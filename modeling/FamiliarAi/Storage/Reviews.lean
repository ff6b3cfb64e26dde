import FamiliarAi.Review.Coordinator
import FamiliarAi.Storage.Gate

/-!
# The review store

The operations by which the coordinator keeps its cycles and artifacts, and by which a human waives a
finding. A cycle is kept as a whole and, beside it, its findings and its evidence row by row; the rows
of an earlier state of the cycle are replaced. A waiver is kept in a table of its own and in the cycle.
The rows of the findings know nothing of it.

The stages of the cycle, its tier and the histories of its findings are kept as well. Nothing that is
modelled reads them. How a value is written as JSON is a parameter.
-/

namespace FamiliarAi

open Relational Text List

/-- A program of the review store. -/
abbrev ReviewQuery := Query Database String

/-- The error for a statement that the engine refuses. -/
def ReviewRepository.constraintFailed : String :=
  "constraint failed"

/-- A statement on one table of the reviews. -/
def onReviews {τ : Type} (get : Reviews → τ) (set : Reviews → τ → Reviews) (f : τ → Option τ) :
    ReviewQuery Unit :=
  .writePart ReviewRepository.constraintFailed (fun db ↦ get db.reviews)
    (fun db t ↦ { db with reviews := set db.reviews t }) f

def Artifact.kind : Artifact → String
  | scopePolicySnapshot _ => "scope_policy_snapshot"
  | remediationRequest _ => "remediation_request"
  | remediationResult _ => "remediation_result"
  | reviewRequest _ => "review_request"
  | reviewResult _ => "review_result"

section Artifacts

variable (sha256 : Sha256)

def artifactRow (kind : String) (content : List Char) : ArtifactRow where
  contentHash := contentHash sha256 content
  kind := kind
  mediaType := "application/json"
  byteSize := byteSize content
  content := content

/-- The reference that the store gives out. -/
def artifactReference (content : List Char) : EvidenceRef where
  contentHash := contentHash sha256 content
  mediaType := "application/json"
  byteSize := byteSize content
  repository := ""
  revision := ""
  storageRef := "sqlite:review_artifacts/" ++ contentHash sha256 content
  truncated := false
  omittedBytes := 0

end Artifacts

/-! ### Cycles -/

def findingRow (cycle : ReviewCycle) (finding : ReviewFinding) : FindingRow where
  findingId := finding.findingId
  cycleId := cycle.cycleId
  blocking := finding.blocking
  status := finding.status
  finding := .record finding
  acceptanceCriterionId := finding.acceptanceCriterionId

def evidenceRow (cycle : ReviewCycle) (entry : VerificationEvidence × ℕ) : EvidenceRow where
  cycleId := cycle.cycleId
  checkId := entry.1.checkId
  phase := evidencePhase entry.2
  evidence := .record entry.1
  repositoryKey := some cycle.repositoryKey

/-- `INSERT INTO review_cycles … ON CONFLICT DO UPDATE`. A cycle belongs to a task that is there. -/
def upsertCycle (cycle : ReviewCycle) : ReviewQuery Unit :=
  .write ReviewRepository.constraintFailed fun db ↦
    let cycles :=
      if (db.reviews.cycles.find (·.cycleId = cycle.cycleId)).isSome then
        db.reviews.cycles.update (·.cycleId = cycle.cycleId) fun row ↦
          { row with
            attempt := cycle.attempt
            state := cycle.state
            disposition := cycle.disposition
            cycle := .record cycle }
      else if (db.reviews.tasks.find (·.taskId = cycle.taskId)).isSome then
        db.reviews.cycles.insert
          { cycleId := cycle.cycleId
            taskId := cycle.taskId
            attempt := cycle.attempt
            state := cycle.state
            disposition := cycle.disposition
            cycle := .record cycle }
      else none
    cycles.map fun cycles ↦ { db with reviews := { db.reviews with cycles } }

/-- A statement on `review_findings`. -/
def onFindings (f : Table findingSchema → Option (Table findingSchema)) : ReviewQuery Unit :=
  onReviews (·.findings) (fun reviews findings ↦ { reviews with findings }) f

/-- A statement on `review_verification_evidence`. -/
def onEvidence (f : Table evidenceSchema → Option (Table evidenceSchema)) : ReviewQuery Unit :=
  onReviews (·.evidence) (fun reviews evidence ↦ { reviews with evidence }) f

/-- Keep a finding of the cycle. It takes the place of every other one of the same id. -/
def saveFinding (cycle : ReviewCycle) (finding : ReviewFinding) : ReviewQuery Unit :=
  onFindings fun findings ↦ findings.replace (findingRow cycle finding)

def saveFindings (cycle : ReviewCycle) : ReviewQuery Unit :=
  match cycle.reviewResult with
  | none => pure ()
  | some result => do
    onFindings fun findings ↦ some (findings.delete (·.cycleId = cycle.cycleId))
    .forEach result.findings (saveFinding cycle)

def saveEvidence (cycle : ReviewCycle) (entry : VerificationEvidence × ℕ) : ReviewQuery Unit := do
  .ensure (cycle.repositoryKey ≠ "") "verification evidence requires repository identity"
  onEvidence fun evidence ↦ evidence.replace (evidenceRow cycle entry)

/-- Keep a cycle, with its findings and its evidence. -/
def ReviewRepository.saveCycle (cycle : ReviewCycle) : ReviewQuery Unit :=
  .transaction do
    upsertCycle cycle
    saveFindings cycle
    onEvidence fun evidence ↦ some (evidence.delete (·.cycleId = cycle.cycleId))
    .forEach cycle.verificationHistory.zipIdx (saveEvidence cycle)

def requireCycle (cycleId : String) : ReviewQuery ReviewCycle := do
  match ← .read fun db ↦ db.reviews.cycles.find (·.cycleId = cycleId) with
  | none => .fail ("review cycle " ++ cycleId ++ " not found")
  | some row =>
    match row.cycle with
    | .record cycle => pure cycle
    | .malformed error => .fail error

/-- The finding is open, and it blocks or is about an acceptance criterion. -/
def FindingRow.IsWaivable (row : FindingRow) : Prop :=
  row.status = .opened ∧ (row.blocking = true ∨ row.acceptanceCriterionId.isSome = true)

instance : DecidablePred FindingRow.IsWaivable :=
  fun _ ↦ inferInstanceAs (Decidable (_ ∧ _))

def Reviews.findingRow (reviews : Reviews) (cycleId findingId : String) : Option FindingRow :=
  reviews.findings.find fun row ↦ row.cycleId = cycleId ∧ row.findingId = findingId

def FindingRow.substance (row : FindingRow) : Option FindingSubstance :=
  match row.finding with
  | .record finding => some finding.substance
  | .malformed _ => none

def ReviewCycle.waived (cycle : ReviewCycle) (waiver : ReviewWaiver) : ReviewCycle :=
  { cycle with waivers := cycle.waivers.filter (·.findingId ≠ waiver.findingId) ++ [waiver] }

/-- `INSERT INTO review_finding_waivers … ON CONFLICT DO UPDATE`. -/
def upsertWaiver (row : WaiverRow) (waivers : Table waiverSchema) : Option (Table waiverSchema) :=
  let same (row' : WaiverRow) : Bool := row'.cycleId = row.cycleId ∧ row'.findingId = row.findingId
  if (waivers.find same).isSome then waivers.update same fun _ ↦ row else waivers.insert row

def ReviewRepository.waiveFinding (cycleId findingId actor reason createdAt : String) :
    ReviewQuery ReviewWaiver := do
  let waiver : ReviewWaiver := ⟨cycleId ++ ":" ++ findingId, cycleId, findingId, actor, reason, createdAt⟩
  .ensure waiver.ByHuman "waiver requires actor and reason"
  let cycle ← requireCycle cycleId
  let finding ← .read fun db ↦ db.reviews.findingRow cycleId findingId
  .ensure (∃ row ∈ finding, row.IsWaivable)
    ("finding " ++ findingId ++ " is not an open blocking or acceptance-criterion finding")
  .transaction do
    onReviews (·.waivers) (fun reviews waivers ↦ { reviews with waivers }) <| upsertWaiver
      { waiverId := waiver.waiverId
        cycleId
        findingId
        substance := finding.bind (·.substance)
        actor
        reason
        createdAt }
    onReviews (·.cycles) (fun reviews cycles ↦ { reviews with cycles }) fun cycles ↦
      cycles.update (·.cycleId = cycleId) fun row ↦ { row with cycle := .record (cycle.waived waiver) }
    pure waiver

/-! ### What is kept -/

section Kept

variable {sha256 : Sha256} {cycle : ReviewCycle} {c c' : Connection Database String} {u : Unit}

theorem onReviews_runs {τ : Type} {get : Reviews → τ} {set : Reviews → τ → Reviews}
    {f : τ → Option τ} (h : (onReviews get set f).Runs c u c') :
    ∃ t, f (get c.store.reviews) = some t ∧
      c'.store = { c.store with reviews := set c.store.reviews t } :=
  Query.Runs.of_writePart h

theorem onFindings_runs {f : Table findingSchema → Option (Table findingSchema)}
    (h : (onFindings f).Runs c u c') : ∃ findings, f c.store.reviews.findings = some findings ∧
      c'.store = { c.store with reviews := { c.store.reviews with findings } } :=
  onReviews_runs h

theorem onEvidence_runs {f : Table evidenceSchema → Option (Table evidenceSchema)}
    (h : (onEvidence f).Runs c u c') : ∃ evidence, f c.store.reviews.evidence = some evidence ∧
      c'.store = { c.store with reviews := { c.store.reviews with evidence } } :=
  onReviews_runs h

/-- A statement on one table leaves what is told by the others. -/
theorem carries_onReviews {γ τ : Type} {g : Database → γ} {get : Reviews → τ}
    {set : Reviews → τ → Reviews} {f : τ → Option τ}
    (hg : ∀ db t, g { db with reviews := set db.reviews t } = g db) :
    (onReviews get set f).Carries (Query.Agree g) := by
  intro c u c' h
  obtain ⟨t, -, hstore⟩ := onReviews_runs h
  rw [hstore]
  exact hg _ t

theorem find_artifactRow {reviews : Reviews} {kind : String} {content : List Char}
    (h : artifactRow sha256 kind content ∈ reviews.artifacts.rows) :
    (reviews.artifacts.find fun row ↦
        row.contentHash = (artifactReference sha256 content).contentHash) =
      some (artifactRow sha256 kind content) :=
  Table.find_eq_of_key h (decide_eq_true rfl) fun _ _ hrow ↦
    decide_eq_true (of_decide_eq_true hrow)

theorem saveFinding_loop {findings : List ReviewFinding}
    (h : (Query.forEach findings (saveFinding cycle)).Runs c () c')
    (hnodup : (findings.map (·.findingId)).Nodup)
    (hfree : ∀ f ∈ findings, ∀ row ∈ c.store.reviews.findingsOf cycle.cycleId,
      row.findingId ≠ f.findingId) :
    c'.store.reviews.findingsOf cycle.cycleId =
      c.store.reviews.findingsOf cycle.cycleId ++ findings.map (findingRow cycle) := by
  induction findings generalizing c with
  | nil =>
    obtain rfl := Query.runs_forEach_nil.1 h
    rw [map_nil, append_nil]
  | cons finding findings ih =>
    obtain ⟨c₁, hsave, hrest⟩ := Query.runs_forEach_cons.1 h
    obtain ⟨hnew, hnodup⟩ := nodup_cons.1 hnodup
    obtain ⟨T, hreplace, hstore⟩ := onFindings_runs hsave
    have hrows : c₁.store.reviews.findingsOf cycle.cycleId =
        c.store.reviews.findingsOf cycle.cycleId ++ [findingRow cycle finding] := by
      rw [hstore]
      refine Table.filter_rows_replace hreplace (decide_eq_true rfl) fun row hrow hcycle ↦ ?_
      exact decide_eq_false (hfree finding mem_cons_self row (mem_filter.2 ⟨hrow, hcycle⟩))
    rw [ih hrest hnodup, hrows, append_assoc, map_cons, singleton_append]
    intro f hf row hrow
    rw [hrows, mem_append, mem_singleton] at hrow
    rcases hrow with hrow | rfl
    · exact hfree f (mem_cons_of_mem _ hf) row hrow
    · rintro (hid : finding.findingId = f.findingId)
      exact hnew (List.mem_map.2 ⟨f, hf, hid.symm⟩)

def Reviews.evidenceRows (reviews : Reviews) (cycleId : String) : List EvidenceRow :=
  reviews.evidence.rows.filter (·.cycleId = cycleId)

theorem evidencePhase_injective : Function.Injective evidencePhase := by
  intro m n h
  exact toString_nat_injective ((String.append_right_inj "attempt-").1 h)

theorem saveEvidence_loop {entries : List (VerificationEvidence × ℕ)}
    (h : (Query.forEach entries (saveEvidence cycle)).Runs c () c')
    (hnodup : (entries.map (·.2)).Nodup)
    (hfree : ∀ entry ∈ entries, ∀ row ∈ c.store.reviews.evidenceRows cycle.cycleId,
      row.phase ≠ evidencePhase entry.2) :
    c'.store.reviews.evidenceRows cycle.cycleId =
      c.store.reviews.evidenceRows cycle.cycleId ++ entries.map (evidenceRow cycle) := by
  induction entries generalizing c with
  | nil =>
    obtain rfl := Query.runs_forEach_nil.1 h
    rw [map_nil, append_nil]
  | cons entry entries ih =>
    obtain ⟨c₁, hsave, hrest⟩ := Query.runs_forEach_cons.1 h
    obtain ⟨hnew, hnodup⟩ := nodup_cons.1 hnodup
    obtain ⟨-, hsave⟩ := hsave.of_ensure_bind
    obtain ⟨T, hreplace, hstore⟩ := onEvidence_runs hsave
    have hrows : c₁.store.reviews.evidenceRows cycle.cycleId =
        c.store.reviews.evidenceRows cycle.cycleId ++ [evidenceRow cycle entry] := by
      rw [hstore]
      refine Table.filter_rows_replace hreplace (decide_eq_true rfl) fun row hrow hcycle ↦ ?_
      refine decide_eq_false fun hclash ↦ ?_
      exact hfree entry mem_cons_self row (mem_filter.2 ⟨hrow, hcycle⟩) hclash.2.2
    rw [ih hrest hnodup, hrows, append_assoc, map_cons, singleton_append]
    intro later hlater row hrow
    rw [hrows, mem_append, mem_singleton] at hrow
    rcases hrow with hrow | rfl
    · exact hfree later (mem_cons_of_mem _ hlater) row hrow
    · rintro (hphase : evidencePhase entry.2 = evidencePhase later.2)
      exact hnew (List.mem_map.2 ⟨later, hlater, (evidencePhase_injective hphase).symm⟩)

theorem carries_upsertCycle {γ : Type} {g : Database → γ}
    (hg : ∀ (db : Database) cycles, g { db with reviews := { db.reviews with cycles } } = g db) :
    (upsertCycle cycle).Carries (Query.Agree g) := by
  intro c u c' h
  have hwrite := Query.Runs.of_write h
  obtain ⟨cycles, -, hstore⟩ := Option.map_eq_some_iff.1 hwrite
  rw [← hstore]
  exact hg _ cycles

theorem carries_onFindings {γ : Type} {g : Database → γ}
    {f : Table findingSchema → Option (Table findingSchema)}
    (hg : ∀ (db : Database) findings, g { db with reviews := { db.reviews with findings } } = g db) :
    (onFindings f).Carries (Query.Agree g) :=
  carries_onReviews hg

theorem carries_onEvidence {γ : Type} {g : Database → γ}
    {f : Table evidenceSchema → Option (Table evidenceSchema)}
    (hg : ∀ (db : Database) evidence, g { db with reviews := { db.reviews with evidence } } = g db) :
    (onEvidence f).Carries (Query.Agree g) :=
  carries_onReviews hg

theorem carries_saveFindings {γ : Type} {g : Database → γ}
    (hg : ∀ (db : Database) findings, g { db with reviews := { db.reviews with findings } } = g db) :
    (saveFindings cycle).Carries (Query.Agree g) := by
  rw [saveFindings]
  split
  · exact .of_readOnly .pure
  · exact (carries_onFindings hg).bind fun _ ↦ .forEach (fun _ ↦ carries_onFindings hg) _

theorem carries_saveEvidence {γ : Type} {g : Database → γ}
    (hg : ∀ (db : Database) evidence, g { db with reviews := { db.reviews with evidence } } = g db)
    (entry : VerificationEvidence × ℕ) : (saveEvidence cycle entry).Carries (Query.Agree g) :=
  .readOnly_bind .ensure fun _ ↦ carries_onEvidence hg

theorem saveFindings_runs {result : ReviewResult} (h : (saveFindings cycle).Runs c u c')
    (hresult : cycle.reviewResult = some result)
    (hnodup : (result.findings.map (·.findingId)).Nodup) :
    c'.store.reviews.findingsOf cycle.cycleId = result.findings.map (findingRow cycle) := by
  rw [saveFindings, hresult] at h
  obtain ⟨_, c₁, hdelete, hloop⟩ := h.of_bind
  obtain ⟨findings, hfindings, hstore⟩ := onFindings_runs hdelete
  obtain rfl := Option.some.inj hfindings
  have hnone : c₁.store.reviews.findingsOf cycle.cycleId = [] := by
    rw [hstore]
    exact Table.filter_rows_delete
  rw [saveFinding_loop hloop hnodup, hnone, nil_append]
  rw [hnone]
  exact fun _ _ _ hrow ↦ nomatch hrow

/-- **What saving a cycle keeps.** The evidence rows of the cycle are those of its history, and its
finding rows are those of its result. No artifact is touched. -/
theorem saveCycle_runs (h : (ReviewRepository.saveCycle cycle).Runs c u c') :
    c'.store.reviews.artifacts = c.store.reviews.artifacts ∧
      c'.store.reviews.evidenceRows cycle.cycleId =
        cycle.verificationHistory.zipIdx.map (evidenceRow cycle) ∧
      ∀ result, cycle.reviewResult = some result → (result.findings.map (·.findingId)).Nodup →
        c'.store.reviews.findingsOf cycle.cycleId = result.findings.map (findingRow cycle) := by
  obtain ⟨c₀, c₅, hbegin, hbody, hend⟩ := Query.Runs.of_transaction h
  obtain ⟨_, c₁, hcycle, hbody⟩ := hbody.of_bind
  obtain ⟨_, c₂, hfindings, hbody⟩ := hbody.of_bind
  obtain ⟨_, c₃, hdelete, hloop⟩ := hbody.of_bind
  rw [hend, ← hbegin]
  refine ⟨?_, ?_, fun result hresult hnodup ↦ ?_⟩
  · have h₁ := carries_upsertCycle (g := fun db ↦ db.reviews.artifacts) (fun _ _ ↦ rfl) _ _ _ hcycle
    have h₂ := carries_saveFindings (g := fun db ↦ db.reviews.artifacts) (fun _ _ ↦ rfl) _ _ _
      hfindings
    have h₃ := carries_onEvidence (g := fun db ↦ db.reviews.artifacts) (fun _ _ ↦ rfl) _ _ _ hdelete
    have h₄ := Query.Carries.forEach
      (carries_saveEvidence (g := fun db ↦ db.reviews.artifacts) fun _ _ ↦ rfl) _ _ _ _ hloop
    exact h₄.trans (h₃.trans (h₂.trans h₁))
  · obtain ⟨evidence, hevidence, hstore⟩ := onEvidence_runs hdelete
    obtain rfl := Option.some.inj hevidence
    have hnone : c₃.store.reviews.evidenceRows cycle.cycleId = [] := by
      rw [hstore]
      exact Table.filter_rows_delete
    rw [saveEvidence_loop hloop, hnone, nil_append]
    · rw [zipIdx_map_snd]
      exact nodup_range'
    · rw [hnone]
      exact fun _ _ _ hrow ↦ nomatch hrow
  · have h₃ := carries_onEvidence (g := fun db ↦ db.reviews.findingsOf cycle.cycleId)
      (fun _ _ ↦ rfl) _ _ _ hdelete
    have h₄ := Query.Carries.forEach (carries_saveEvidence
      (g := fun db ↦ db.reviews.findingsOf cycle.cycleId) fun _ _ ↦ rfl) _ _ _ _ hloop
    exact h₄.trans (h₃.trans (saveFindings_runs hfindings hresult hnodup))

theorem holdsFindings_of_mem {reviews : Reviews} {result : ReviewResult}
    (hlength : (reviews.findingsOf cycle.cycleId).length = result.findings.length)
    (hrows : ∀ f ∈ result.findings, findingRow cycle f ∈ reviews.findingsOf cycle.cycleId) :
    reviews.HoldsFindings cycle result := by
  refine ⟨hlength, Except.forM_eq_ok.2 fun finding hfinding ↦ ?_⟩
  have hrow := hrows finding hfinding
  have hfound : (reviews.findingsOf cycle.cycleId).find?
      (fun row ↦ row.findingId = finding.findingId) = some (findingRow cycle finding) := by
    rcases hfind : (reviews.findingsOf cycle.cycleId).find?
        fun row ↦ row.findingId = finding.findingId with _ | row
    · exact absurd (decide_eq_true rfl) (find?_eq_none.1 hfind _ hrow)
    · have hid := find?_some hfind
      have hmem := (mem_filter.1 (mem_of_find?_eq_some hfind)).1
      rw [hfind, Table.eq_of_clash hmem (mem_filter.1 hrow).1 hid]
  rw [checkPersistedFinding, hfound]
  refine Except.bind_eq_ok.2 ⟨finding, rfl, ?_⟩
  exact if_pos ⟨rfl, rfl, rfl⟩

end Kept

end FamiliarAi
