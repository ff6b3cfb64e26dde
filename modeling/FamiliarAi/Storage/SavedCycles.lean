import FamiliarAi.Storage.Reviews

/-!
# What saving a cycle does to the others

The rows of all cycles share their tables. The evidence of a cycle is kept under its id; a finding is
kept under its own id alone, which is up to the reviewer, and saving it takes the place of whatever
has that id. We say what the store keeps of one cycle, what it means that a save is faithful to the
cycle and to all others, and under which condition on the store and the cycle it is. The condition is
exact, save by save, so that a whole run of saves is faithful where it holds at every one of them.
-/

namespace FamiliarAi

open Relational Text List

/-- What the store keeps of one cycle. -/
structure CyclePart where
  row : Option ReviewCycleRow
  findings : List FindingRow
  evidence : List EvidenceRow

def Reviews.cyclePart (reviews : Reviews) (cycleId : String) : CyclePart where
  row := reviews.cycles.find (·.cycleId = cycleId)
  findings := reviews.findingsOf cycleId
  evidence := reviews.evidenceRows cycleId

def ReviewCycle.findings (cycle : ReviewCycle) : List ReviewFinding :=
  match cycle.reviewResult with
  | none => []
  | some result => result.findings

def ReviewCycleRow.Holds (row : ReviewCycleRow) (cycle : ReviewCycle) : Prop :=
  row.attempt = cycle.attempt ∧ row.state = cycle.state ∧ row.disposition = cycle.disposition ∧
    row.cycle = .record cycle

/-- **A faithful save.** The others are left as they were, with the requests of all of them, and of the
cycle there is what it consists of. -/
structure SavedFaithfully (db : Database) (cycle : ReviewCycle) (db' : Database) : Prop where
  others : ∀ id, id ≠ cycle.cycleId → db'.reviews.cyclePart id = db.reviews.cyclePart id
  artifacts : db'.reviews.artifacts = db.reviews.artifacts
  row : ∃ row ∈ (db'.reviews.cyclePart cycle.cycleId).row, row.Holds cycle
  findings : (db'.reviews.cyclePart cycle.cycleId).findings = cycle.findings.map (findingRow cycle)
  evidence : (db'.reviews.cyclePart cycle.cycleId).evidence =
    cycle.verificationHistory.zipIdx.map (evidenceRow cycle)

/-- The findings of the cycle have ids of their own, among themselves and among those of all other
cycles. Without a review there is none of an earlier one. -/
structure Separate (db : Database) (cycle : ReviewCycle) : Prop where
  distinct : (cycle.findings.map (·.findingId)).Nodup
  fresh : ∀ row ∈ db.reviews.findings.rows, row.cycleId ≠ cycle.cycleId →
    ∀ finding ∈ cycle.findings, row.findingId ≠ finding.findingId
  unreviewed : cycle.reviewResult = none → db.reviews.findingsOf cycle.cycleId = []

section Others

variable {cycle : ReviewCycle} {id : String} {c c' : Connection Database String} {u : Unit}

theorem upsertCycle_runs (h : (upsertCycle cycle).Runs c u c') : ∃ row : ReviewCycleRow,
    row.cycleId = cycle.cycleId ∧ row.Holds cycle ∧
      c'.store.reviews.cycles.find (·.cycleId = cycle.cycleId) = some row ∧
      ∀ id, id ≠ cycle.cycleId → c'.store.reviews.cycles.find (·.cycleId = id) =
        c.store.reviews.cycles.find (·.cycleId = id) := by
  have hwrite := Query.Runs.of_write h
  obtain ⟨cycles, hcycles, hstore⟩ := Option.map_eq_some_iff.1 hwrite
  have hother (id : String) (hid : id ≠ cycle.cycleId) (row : ReviewCycleRow)
      (hrow : decide (row.cycleId = cycle.cycleId) = true) : decide (row.cycleId = id) = false :=
    decide_eq_false fun hrow' ↦ hid (hrow'.symm.trans (of_decide_eq_true hrow))
  rw [← hstore]
  split_ifs at hcycles with hthere
  · -- the row that is there is rewritten
    obtain ⟨row, hrow⟩ := Option.isSome_iff_exists.1 hthere
    have hown := Table.find_update hcycles (q := (·.cycleId = cycle.cycleId)) fun _ ↦ rfl
    rw [hrow, Option.map_some, if_pos (Table.find_some hrow).2] at hown
    let written : ReviewCycleRow :=
      { row with
        attempt := cycle.attempt
        state := cycle.state
        disposition := cycle.disposition
        cycle := .record cycle }
    refine ⟨written, of_decide_eq_true (Table.find_some hrow).2, ⟨rfl, rfl, rfl, rfl⟩, hown, ?_⟩
    exact fun id hid ↦ Table.find_update_of_ne hcycles (fun _ ↦ rfl) (hother id hid)
  · -- a row is added
    have hown := Table.find_insert hcycles (q := (·.cycleId = cycle.cycleId))
    rw [Option.not_isSome_iff_eq_none.1 hthere, Option.none_or, if_pos (decide_eq_true rfl)] at hown
    refine ⟨_, rfl, ⟨rfl, rfl, rfl, rfl⟩, hown, fun id hid ↦ ?_⟩
    refine (Table.find_insert hcycles).trans ?_
    rw [if_neg (by simpa using hid.symm), Option.or_none]

theorem saveFinding_loop_other {findings : List ReviewFinding}
    (h : (Query.forEach findings (saveFinding cycle)).Runs c u c') (hid : id ≠ cycle.cycleId)
    (hfresh : ∀ row ∈ c.store.reviews.findingsOf id, ∀ f ∈ findings, row.findingId ≠ f.findingId) :
    c'.store.reviews.findingsOf id = c.store.reviews.findingsOf id := by
  induction findings generalizing c with
  | nil =>
    obtain rfl := Query.runs_forEach_nil.1 h
    rfl
  | cons finding findings ih =>
    obtain ⟨c₁, hsave, hrest⟩ := Query.runs_forEach_cons.1 h
    obtain ⟨T, hreplace, hstore⟩ := onFindings_runs hsave
    have hrows : c₁.store.reviews.findingsOf id = c.store.reviews.findingsOf id := by
      rw [hstore]
      refine Table.filter_rows_replace_of_not hreplace (decide_eq_false hid.symm) fun row hrow hcycle ↦ ?_
      exact decide_eq_false (hfresh row (mem_filter.2 ⟨hrow, hcycle⟩) finding mem_cons_self)
    rw [ih hrest, hrows]
    rw [hrows]
    exact fun row hrow f hf ↦ hfresh row hrow f (mem_cons_of_mem _ hf)

theorem saveFindings_other (h : (saveFindings cycle).Runs c u c') (hid : id ≠ cycle.cycleId)
    (hfresh : ∀ row ∈ c.store.reviews.findingsOf id, ∀ f ∈ cycle.findings,
      row.findingId ≠ f.findingId) :
    c'.store.reviews.findingsOf id = c.store.reviews.findingsOf id := by
  rw [saveFindings] at h
  rw [ReviewCycle.findings] at hfresh
  split at h
  · obtain ⟨-, rfl⟩ := h.of_pure
    rfl
  · rename_i result hresult
    rw [hresult] at hfresh
    obtain ⟨_, c₁, hdelete, hloop⟩ := h.of_bind
    obtain ⟨findings, hfindings, hstore⟩ := onFindings_runs hdelete
    obtain rfl := Option.some.inj hfindings
    have hrows : c₁.store.reviews.findingsOf id = c.store.reviews.findingsOf id := by
      rw [hstore]
      refine Table.filter_rows_delete_of_not fun row hrow ↦ decide_eq_false fun hcycle ↦ ?_
      exact hid ((of_decide_eq_true hrow).symm.trans hcycle)
    rw [saveFinding_loop_other hloop hid, hrows]
    rw [hrows]
    exact hfresh

theorem saveEvidence_other (hid : id ≠ cycle.cycleId) (entry : VerificationEvidence × ℕ) :
    (saveEvidence cycle entry).Carries (Query.Agree fun db ↦ db.reviews.evidenceRows id) := by
  refine .readOnly_bind .ensure fun _ ↦ ?_
  intro c u c' h
  obtain ⟨T, hreplace, hstore⟩ := onEvidence_runs h
  show c'.store.reviews.evidenceRows id = c.store.reviews.evidenceRows id
  rw [hstore]
  refine Table.filter_rows_replace_of_not hreplace (decide_eq_false hid.symm) fun row _ hcycle ↦ ?_
  exact decide_eq_false fun hclash ↦ hid ((of_decide_eq_true hcycle).symm.trans hclash.1)

end Others

/-! ### One save -/

section Save

variable {cycle : ReviewCycle} {c c' : Connection Database String} {u : Unit}

theorem saveCycle_stages (h : (ReviewRepository.saveCycle cycle).Runs c u c') :
    ∃ c₀ c₁ c₂ c₃ c₄, c₀.store = c.store ∧ (upsertCycle cycle).Runs c₀ () c₁ ∧
      (saveFindings cycle).Runs c₁ () c₂ ∧
      (onEvidence fun evidence ↦ some (evidence.delete (·.cycleId = cycle.cycleId))).Runs c₂ () c₃ ∧
      (Query.forEach cycle.verificationHistory.zipIdx (saveEvidence cycle)).Runs c₃ () c₄ ∧
      c'.store = c₄.store := by
  obtain ⟨c₀, c₄, hbegin, hbody, hend⟩ := Query.Runs.of_transaction h
  obtain ⟨_, c₁, hcycle, hbody⟩ := hbody.of_bind
  obtain ⟨_, c₂, hfindings, hbody⟩ := hbody.of_bind
  obtain ⟨_, c₃, hdelete, hloop⟩ := hbody.of_bind
  exact ⟨c₀, c₁, c₂, c₃, c₄, hbegin, hcycle, hfindings, hdelete, hloop, hend⟩

theorem saveCycle_cycles (h : (ReviewRepository.saveCycle cycle).Runs c u c') :
    (∃ row, row.Holds cycle ∧
      c'.store.reviews.cycles.find (·.cycleId = cycle.cycleId) = some row) ∧
      ∀ id, id ≠ cycle.cycleId → c'.store.reviews.cycles.find (·.cycleId = id) =
        c.store.reviews.cycles.find (·.cycleId = id) := by
  obtain ⟨c₀, c₁, c₂, c₃, c₄, hbegin, hcycle, hfindings, hdelete, hloop, hend⟩ := saveCycle_stages h
  have h₂ := carries_saveFindings (g := fun db ↦ db.reviews.cycles) (fun _ _ ↦ rfl) _ _ _ hfindings
  have h₃ := carries_onEvidence (g := fun db ↦ db.reviews.cycles) (fun _ _ ↦ rfl) _ _ _ hdelete
  have h₄ := Query.Carries.forEach
    (carries_saveEvidence (g := fun db ↦ db.reviews.cycles) fun _ _ ↦ rfl) _ _ _ _ hloop
  have hkept : c'.store.reviews.cycles = c₁.store.reviews.cycles := by
    rw [hend]
    exact h₄.trans (h₃.trans h₂)
  obtain ⟨row, -, hholds, hown, hothers⟩ := upsertCycle_runs hcycle
  rw [hbegin] at hothers
  rw [hkept]
  exact ⟨⟨row, hholds, hown⟩, hothers⟩

theorem saveCycle_findings (h : (ReviewRepository.saveCycle cycle).Runs c u c') :
    ∃ c₁ c₂, (saveFindings cycle).Runs c₁ () c₂ ∧
      c₁.store.reviews.findings = c.store.reviews.findings ∧
      c'.store.reviews.findings = c₂.store.reviews.findings := by
  obtain ⟨c₀, c₁, c₂, c₃, c₄, hbegin, hcycle, hfindings, hdelete, hloop, hend⟩ := saveCycle_stages h
  have h₁ := carries_upsertCycle (g := fun db ↦ db.reviews.findings) (fun _ _ ↦ rfl) _ _ _ hcycle
  have h₃ := carries_onEvidence (g := fun db ↦ db.reviews.findings) (fun _ _ ↦ rfl) _ _ _ hdelete
  have h₄ := Query.Carries.forEach
    (carries_saveEvidence (g := fun db ↦ db.reviews.findings) fun _ _ ↦ rfl) _ _ _ _ hloop
  refine ⟨c₁, c₂, hfindings, ?_, ?_⟩
  · rw [← hbegin]
    exact h₁
  · rw [hend]
    exact h₄.trans h₃

theorem saveCycle_evidence {id : String} (h : (ReviewRepository.saveCycle cycle).Runs c u c')
    (hid : id ≠ cycle.cycleId) :
    c'.store.reviews.evidenceRows id = c.store.reviews.evidenceRows id := by
  obtain ⟨c₀, c₁, c₂, c₃, c₄, hbegin, hcycle, hfindings, hdelete, hloop, hend⟩ := saveCycle_stages h
  have h₁ := carries_upsertCycle (g := fun db ↦ db.reviews.evidenceRows id) (fun _ _ ↦ rfl)
    _ _ _ hcycle
  have h₂ := carries_saveFindings (g := fun db ↦ db.reviews.evidenceRows id) (fun _ _ ↦ rfl)
    _ _ _ hfindings
  have h₃ : c₃.store.reviews.evidenceRows id = c₂.store.reviews.evidenceRows id := by
    obtain ⟨evidence, hevidence, hstore⟩ := onEvidence_runs hdelete
    obtain rfl := Option.some.inj hevidence
    rw [hstore]
    refine Table.filter_rows_delete_of_not fun row hrow ↦ decide_eq_false fun hcycle ↦ ?_
    exact hid ((of_decide_eq_true hrow).symm.trans hcycle)
  have h₄ := Query.Carries.forEach (saveEvidence_other hid) _ _ _ _ hloop
  rw [hend, ← hbegin]
  exact h₄.trans (h₃.trans (h₂.trans h₁))

theorem saveFindings_unreviewed (h : (saveFindings cycle).Runs c u c')
    (hresult : cycle.reviewResult = none) : c'.store = c.store := by
  rw [saveFindings, hresult] at h
  obtain ⟨-, rfl⟩ := h.of_pure
  rfl

theorem saveFindings_own (h : (saveFindings cycle).Runs c u c')
    (hdistinct : (cycle.findings.map (·.findingId)).Nodup)
    (hunreviewed : cycle.reviewResult = none → c.store.reviews.findingsOf cycle.cycleId = []) :
    c'.store.reviews.findingsOf cycle.cycleId = cycle.findings.map (findingRow cycle) := by
  rw [ReviewCycle.findings] at hdistinct ⊢
  split
  · rename_i hresult
    rw [saveFindings_unreviewed h hresult, hunreviewed hresult, map_nil]
  · rename_i result hresult
    rw [hresult] at hdistinct
    exact saveFindings_runs h hresult hdistinct

/-- **A save of a cycle with separate findings is faithful.** -/
theorem savedFaithfully_of_separate (h : (ReviewRepository.saveCycle cycle).Runs c u c')
    (hseparate : Separate c.store cycle) : SavedFaithfully c.store cycle c'.store := by
  obtain ⟨⟨row, hholds, hown⟩, hcycles⟩ := saveCycle_cycles h
  obtain ⟨hartifacts, hevidence, -⟩ := saveCycle_runs h
  obtain ⟨c₁, c₂, hfindings, hbefore, hafter⟩ := saveCycle_findings h
  have hrows (id : String) : c₁.store.reviews.findingsOf id = c.store.reviews.findingsOf id := by
    rw [Reviews.findingsOf, hbefore, Reviews.findingsOf]
  have hrows' (id : String) : c'.store.reviews.findingsOf id = c₂.store.reviews.findingsOf id := by
    rw [Reviews.findingsOf, hafter, Reviews.findingsOf]
  refine ⟨fun id hid ↦ ?_, hartifacts, ⟨row, hown, hholds⟩, ?_, hevidence⟩
  · have hothers : c'.store.reviews.findingsOf id = c.store.reviews.findingsOf id := by
      rw [hrows', ← hrows]
      refine saveFindings_other hfindings hid fun row hrow finding hfinding ↦ ?_
      rw [hrows] at hrow
      obtain ⟨hrow, hcycle⟩ := mem_filter.1 hrow
      exact hseparate.fresh row hrow (of_decide_eq_true hcycle ▸ hid) finding hfinding
    rw [Reviews.cyclePart, hcycles id hid, hothers, saveCycle_evidence h hid]
    rfl
  · show c'.store.reviews.findingsOf _ = _
    rw [hrows']
    refine saveFindings_own hfindings hseparate.distinct fun hresult ↦ ?_
    rw [hrows]
    exact hseparate.unreviewed hresult

theorem nodup_of_findingRows {reviews : Reviews}
    (h : reviews.findingsOf cycle.cycleId = cycle.findings.map (findingRow cycle)) :
    (cycle.findings.map (·.findingId)).Nodup := by
  have hpairwise := reviews.findings.admits.2.filter (·.cycleId = cycle.cycleId)
  rw [show reviews.findings.rows.filter _ = _ from h, pairwise_map] at hpairwise
  rw [Nodup, pairwise_map]
  exact hpairwise.imp fun hclash hsame ↦ of_decide_eq_false hclash hsame

/-- **A faithful save is one of a cycle with separate findings.** A row that another cycle has lost, or
that it shares with this one, would not be its own. -/
theorem separate_of_savedFaithfully (h : (ReviewRepository.saveCycle cycle).Runs c u c')
    (hfaithful : SavedFaithfully c.store cycle c'.store) : Separate c.store cycle := by
  have hown : c'.store.reviews.findingsOf cycle.cycleId = _ := hfaithful.findings
  refine ⟨nodup_of_findingRows hown, fun row hrow hcycle finding hfinding hid ↦ ?_, fun hresult ↦ ?_⟩
  · -- both rows are there after the save, and they collide
    have hothers : c'.store.reviews.findingsOf row.cycleId = c.store.reviews.findingsOf row.cycleId :=
      congrArg CyclePart.findings (hfaithful.others row.cycleId hcycle)
    have hkept : row ∈ c'.store.reviews.findingsOf row.cycleId := by
      rw [hothers]
      exact mem_filter.2 ⟨hrow, decide_eq_true rfl⟩
    have hwritten : findingRow cycle finding ∈ c'.store.reviews.findingsOf cycle.cycleId := by
      rw [hown]
      exact List.mem_map_of_mem hfinding
    have hsame := Table.eq_of_clash (mem_filter.1 hkept).1 (mem_filter.1 hwritten).1
      (decide_eq_true hid)
    exact hcycle (congrArg FindingRow.cycleId hsame)
  · obtain ⟨c₁, c₂, hfindings, hbefore, hafter⟩ := saveCycle_findings h
    rw [saveFindings_unreviewed hfindings hresult, hbefore] at hafter
    rw [ReviewCycle.findings, hresult, Reviews.findingsOf, hafter] at hown
    exact hown

/-- **When a save is faithful.** -/
theorem savedFaithfully_iff (h : (ReviewRepository.saveCycle cycle).Runs c u c') :
    SavedFaithfully c.store cycle c'.store ↔ Separate c.store cycle :=
  ⟨separate_of_savedFaithfully h, savedFaithfully_of_separate h⟩

end Save

/-- A save: the cycle, and what the engine answers before it looks at the store. -/
abbrev CycleSave := ReviewCycle × List (Option String)

def SavesFaithfully (db : Database) : List CycleSave → Prop
  | [] => True
  | (cycle, faults) :: saves =>
    match (ReviewRepository.saveCycle cycle).run ⟨db, faults⟩ with
    | (.ok _, c') => SavedFaithfully db cycle c'.store ∧ SavesFaithfully c'.store saves
    | (.error _, c') => c'.store = db ∧ SavesFaithfully c'.store saves

def SavesSeparate (db : Database) : List CycleSave → Prop
  | [] => True
  | (cycle, faults) :: saves =>
    match (ReviewRepository.saveCycle cycle).run ⟨db, faults⟩ with
    | (.ok _, c') => Separate db cycle ∧ SavesSeparate c'.store saves
    | (.error _, c') => SavesSeparate c'.store saves

/-- **Saving keeps the cycles apart**, over every run of saves, exactly if each of them finds the
findings of its cycle separate. -/
theorem savesFaithfully_iff (db : Database) (saves : List CycleSave) :
    SavesFaithfully db saves ↔ SavesSeparate db saves := by
  induction saves generalizing db with
  | nil => exact Iff.rfl
  | cons save saves ih =>
    obtain ⟨cycle, faults⟩ := save
    rw [SavesFaithfully, SavesSeparate]
    rcases hrun : (ReviewRepository.saveCycle cycle).run ⟨db, faults⟩ with ⟨_ | u, c'⟩
    · have hatomic : c'.store = db := Query.Atomic.transaction _ _ _ hrun
      exact (and_iff_right hatomic).trans (ih c'.store)
    · exact and_congr (savedFaithfully_iff (c := ⟨db, faults⟩) hrun) (ih c'.store)

theorem not_savesFaithfully_of_shared {db : Database} {cycle cycle' : ReviewCycle}
    {finding finding' : ReviewFinding} {faults : List (Option String)}
    {c c' : Connection Database String}
    (h : (ReviewRepository.saveCycle cycle).Runs ⟨db, faults⟩ () c)
    (h' : (ReviewRepository.saveCycle cycle').Runs c () c')
    (hcycle : cycle.cycleId ≠ cycle'.cycleId) (hfinding : finding ∈ cycle.findings)
    (hfinding' : finding' ∈ cycle'.findings) (hid : finding.findingId = finding'.findingId) :
    ¬SavesFaithfully db [(cycle, faults), (cycle', c.faults)] := by
  intro hfaithful
  rw [SavesFaithfully, show (ReviewRepository.saveCycle cycle).run ⟨db, faults⟩ = _ from h]
    at hfaithful
  obtain ⟨hfirst, hfaithful⟩ := hfaithful
  rw [SavesFaithfully, show (ReviewRepository.saveCycle cycle').run ⟨c.store, c.faults⟩ = _ from h']
    at hfaithful
  have hrow : findingRow cycle finding ∈ c.store.reviews.findingsOf cycle.cycleId := by
    rw [show c.store.reviews.findingsOf cycle.cycleId = _ from hfirst.findings]
    exact List.mem_map_of_mem hfinding
  have hseparate := (savedFaithfully_iff h').1 hfaithful.1
  exact hseparate.fresh _ (mem_filter.1 hrow).1 hcycle finding' hfinding' hid

namespace SharedFinding

/-- The reviewer of each cycle has called its first finding the same. -/
def finding : ReviewFinding where
  findingId := "F1"
  category := .correctnessDefect
  severity := .critical
  blocking := true
  title := "title"
  claim := "claim"
  evidence := [.fileRange "src/lib.rs" ⟨1, 2⟩]
  remediation := "remediation"
  status := .opened
  supersedes := none
  acceptanceCriterionId := none

def author : AgentAssignment :=
  ⟨"a", "a", some "a", none, .implementation, none⟩

def reviewer : AgentAssignment :=
  ⟨"b", "b", some "b", none, .review, none⟩

def result : ReviewResult where
  reviewId := "review"
  reviewer := ⟨reviewer, none, none, []⟩
  startedAt := "t"
  endedAt := "t"
  durationMs := 1
  findings := [finding]
  reviewedManifestHash := "manifest"
  usage := {}
  disposition := .remediationRequired
  unavailableFields := []

def cycle (cycleId : String) : ReviewCycle where
  cycleId
  taskId := "task"
  repositoryKey := "repo"
  attempt := 1
  state := .completed
  implementation := ⟨author, none, none, []⟩
  implementationExecution := none
  reviewer := some ⟨reviewer, none, none, []⟩
  independence := none
  reviewRequest := none
  reviewResult := some result
  remediationRequest := none
  remediationResult := none
  verificationBeforeReview := []
  verificationAfterRemediation := []
  verificationHistory := []
  waivers := []
  scopePolicySnapshot := none
  scopeEvaluations := []
  tierSelection := none
  batchPending := false
  aggregateUsage := {}
  aggregateDurationMs := 0
  startedAt := "t"
  endedAt := some "t"
  disposition := .remediationRequired
  stopReasons := []
  stopDetail := none
  reviewAttempts := []
  remediationAttempts := []

def task : ReviewTask :=
  ⟨"task", "o", [], "base", [], [], "verification"⟩

def db : Database where
  backlog := ⟨.empty, .empty, .empty⟩
  checkpoints := .empty
  reviews :=
    { Reviews.empty with
      tasks := ⟨[⟨"task", .record task⟩], by simp [reviewTaskSchema], pairwise_singleton _ _⟩ }
  orchestration := .empty

end SharedFinding

theorem saveCycle_takes_finding : ¬∀ (db : Database) (saves : List CycleSave),
    SavesFaithfully db saves := by
  intro hfaithful
  have hsaved : (((ReviewRepository.saveCycle (SharedFinding.cycle "a")) >>= fun _ ↦
      ReviewRepository.saveCycle (SharedFinding.cycle "b")).run
        ⟨SharedFinding.db, []⟩).1.toOption = some () := by
    decide +kernel
  rcases hrun : ((ReviewRepository.saveCycle (SharedFinding.cycle "a")) >>= fun _ ↦
      ReviewRepository.saveCycle (SharedFinding.cycle "b")).run
        ⟨SharedFinding.db, []⟩ with ⟨answer, c'⟩
  rw [hrun] at hsaved
  obtain rfl := Except.toOption_eq_some.1 hsaved
  obtain ⟨_, c, hfirst, hsecond⟩ := Query.Runs.of_bind hrun
  have hmem : SharedFinding.finding ∈ SharedFinding.result.findings := mem_singleton_self _
  refine not_savesFaithfully_of_shared hfirst hsecond ?_ hmem hmem rfl (hfaithful _ _)
  show "a" ≠ "b"
  decide

end FamiliarAi
