import FamiliarAi.Storage.CheckpointTrail

/-!
# The gate of scope decisions

A candidate that reaches beyond its scope is blocked, and every finding about its scope waits for a
human. With the last approval the checkpoint goes on. Findings are kept under their hashes: one
whose hash is there already, be it for another checkpoint or another candidate, is ignored, and the
gate knows nothing of it. A decision names the candidate that it is about, and moves the checkpoint
of the finding whatever its candidate has become.

We show that the gate holds as long as neither happens: **a checkpoint goes on only when every
finding that was recorded for its candidate is approved, and a decision touches nothing of another
checkpoint or another candidate.**
-/

namespace FamiliarAi

open Relational

def Orchestration.decisionsOf (o : Orchestration) (checkpointId candidateHash : String) :
    List ScopeDecisionRow :=
  o.scopeDecisions.rows.filter fun row ↦
    row.checkpointId = checkpointId ∧ row.candidateHash = candidateHash

section Decision

variable {repository findingHash candidateHash checkpointId : String} {approve : Bool}
  {db db' : Database}
  (h : ScopeDecided repository findingHash candidateHash approve db checkpointId db')

include h in
theorem ScopeDecided.of_hash {row : ScopeDecisionRow}
    (hrow : row ∈ db.orchestration.scopeDecisions.rows) (hhash : row.findingHash = findingHash) :
    row.checkpointId = checkpointId ∧ row.candidateHash = candidateHash := by
  obtain ⟨pendingRow, hpending, hid⟩ := h.pending
  obtain ⟨hmem, hmatches⟩ := Table.find_some hpending
  obtain ⟨-, hpendingHash, hcandidate, -⟩ := of_decide_eq_true hmatches
  have hsame : row = pendingRow :=
    Table.eq_of_clash hrow hmem (decide_eq_true (hhash.trans hpendingHash.symm))
  rw [hsame]
  exact ⟨hid, hcandidate⟩

include h in
theorem ScopeDecided.decisionsOf_eq {otherId otherCandidate : String}
    (hother : ¬(otherId = checkpointId ∧ otherCandidate = candidateHash)) :
    db'.orchestration.decisionsOf otherId otherCandidate =
      db.orchestration.decisionsOf otherId otherCandidate := by
  let decide' (row : ScopeDecisionRow) : ScopeDecisionRow :=
    if decide (row.findingHash = findingHash ∧ row.decision = none) then
      { row with decision := some (.of approve) }
    else row
  let ofOther (row : ScopeDecisionRow) : Bool :=
    row.checkpointId = otherId ∧ row.candidateHash = otherCandidate
  have hkeeps : ofOther ∘ decide' = ofOther := by
    funext row
    show ofOther (decide' row) = ofOther row
    unfold decide'
    split <;> rfl
  show db'.orchestration.scopeDecisions.rows.filter ofOther =
    db.orchestration.scopeDecisions.rows.filter ofOther
  rw [Table.rows_update h.decided]
  show (db.orchestration.scopeDecisions.rows.map decide').filter ofOther = _
  rw [List.filter_map, hkeeps]
  refine (List.map_congr_left fun row hrow ↦ if_neg fun hdecided ↦ hother ?_).trans (List.map_id _)
  obtain ⟨hmem, hrow⟩ := List.mem_filter.1 hrow
  obtain ⟨hid, hcandidate⟩ := h.of_hash hmem (of_decide_eq_true hdecided).1
  obtain ⟨hid', hcandidate'⟩ := of_decide_eq_true hrow
  exact ⟨hid'.symm.trans hid, hcandidate'.symm.trans hcandidate⟩

end Decision

/-! ### Runs -/

structure RecordedFinding where
  checkpointId : String
  candidateHash : String
  findingHash : String
  deriving DecidableEq

/-- The database, with all findings that were recorded, whatever became of them. -/
structure ScopeWorld where
  store : Database
  recorded : List RecordedFinding

/-- The findings that the database holds to begin with count as recorded. -/
def ScopeWorld.start (db : Database) : ScopeWorld where
  store := db
  recorded := db.orchestration.scopeDecisions.rows.map fun row ↦
    ⟨row.checkpointId, row.candidateHash, row.findingHash⟩

/-- A call with the engine faults that it meets. Between the calls, candidates are made and phases
are set, and everything but the decisions may change. -/
inductive ScopeStep
  | recordScopeFinding (repository checkpointId prd candidateHash findingHash : String)
      (faults : List (Option FamiliarError))
  | decideScope (repository findingHash candidateHash : String) (approve : Bool)
      (faults : List (Option FamiliarError))
  | elsewhere (tables : Database)

/-- What a call leaves, whether it succeeds or fails. -/
def ScopeWorld.step (w : ScopeWorld) : ScopeStep → ScopeWorld
  | .recordScopeFinding repository checkpointId prd candidateHash findingHash faults =>
    let (result, c) := (OrchestrationRepository.recordScopeFinding repository checkpointId prd
      candidateHash findingHash).run ⟨w.store, faults⟩
    { store := c.store
      recorded :=
        if result.isOk then w.recorded ++ [⟨checkpointId, candidateHash, findingHash⟩]
        else w.recorded }
  | .decideScope repository findingHash candidateHash approve faults =>
    let (_, c) := (OrchestrationRepository.decideScope repository findingHash candidateHash
      approve).run ⟨w.store, faults⟩
    { w with store := c.store }
  | .elsewhere tables =>
    { w with
      store :=
        { tables with
          orchestration :=
            { tables.orchestration with
              scopeDecisions := w.store.orchestration.scopeDecisions } } }

def ScopeWorld.run (w : ScopeWorld) (steps : List ScopeStep) : ScopeWorld :=
  steps.foldl ScopeWorld.step w

def ScopeStep.Careful (db : Database) : ScopeStep → Prop
  | .recordScopeFinding _ checkpointId _ candidateHash findingHash _ =>
    ∀ row ∈ db.orchestration.scopeDecisions.rows, row.findingHash = findingHash →
      row.checkpointId = checkpointId ∧ row.candidateHash = candidateHash
  | .decideScope repository findingHash candidateHash _ _ =>
    ∀ row ∈ db.orchestration.pendingDecision repository findingHash candidateHash,
      ∀ checkpoint ∈ db.checkpoints.row row.checkpointId, checkpoint.diffHash = candidateHash
  | .elsewhere _ => True

instance (db : Database) (step : ScopeStep) : Decidable (step.Careful db) :=
  match step with
  | .recordScopeFinding _ checkpointId _ candidateHash findingHash _ =>
    inferInstanceAs (Decidable (∀ row ∈ db.orchestration.scopeDecisions.rows,
      row.findingHash = findingHash →
        row.checkpointId = checkpointId ∧ row.candidateHash = candidateHash))
  | .decideScope repository findingHash candidateHash _ _ =>
    inferInstanceAs (Decidable (∀ row ∈ db.orchestration.pendingDecision repository findingHash
      candidateHash, ∀ checkpoint ∈ db.checkpoints.row row.checkpointId,
        checkpoint.diffHash = candidateHash))
  | .elsewhere _ => inferInstanceAs (Decidable True)

def ScopeWorld.Careful (w : ScopeWorld) : List ScopeStep → Prop
  | [] => True
  | step :: steps => step.Careful w.store ∧ (w.step step).Careful steps

/-- Every finding that was recorded is there. -/
def ScopeWorld.Kept (w : ScopeWorld) : Prop :=
  ∀ finding ∈ w.recorded, ∃ row ∈ w.store.orchestration.scopeDecisions.rows,
    row.findingHash = finding.findingHash ∧ row.checkpointId = finding.checkpointId ∧
      row.candidateHash = finding.candidateHash

theorem ScopeWorld.kept_start (db : Database) : (ScopeWorld.start db).Kept := by
  intro finding hfinding
  obtain ⟨row, hrow, rfl⟩ := List.mem_map.1 hfinding
  exact ⟨row, hrow, rfl, rfl, rfl⟩

theorem recordScopeFinding_runs
    {repository checkpointId prd candidateHash findingHash : String} {u : Unit}
    {c c' : Connection Database FamiliarError}
    (h : (OrchestrationRepository.recordScopeFinding repository checkpointId prd candidateHash
      findingHash).Runs c u c') :
    c'.store.checkpoints = c.store.checkpoints ∧
      c'.store.orchestration.scopeDecisions =
        c.store.orchestration.scopeDecisions.insertOrIgnore
          ⟨findingHash, repository, checkpointId, prd, candidateHash, none⟩ := by
  have hwrite := Query.Runs.of_write h
  split at hwrite
  · obtain hstore := Option.some.inj hwrite
    rw [← hstore]
    exact ⟨rfl, rfl⟩
  · cases hwrite

theorem exists_of_insertOrIgnore {decisions : Table scopeDecisionSchema} {row : ScopeDecisionRow}
    (hcareful : ∀ other ∈ decisions.rows, other.findingHash = row.findingHash →
      other.checkpointId = row.checkpointId ∧ other.candidateHash = row.candidateHash) :
    ∃ found ∈ (decisions.insertOrIgnore row).rows, found.findingHash = row.findingHash ∧
      found.checkpointId = row.checkpointId ∧ found.candidateHash = row.candidateHash := by
  by_cases hfree : ∀ other ∈ decisions.rows, scopeDecisionSchema.clash other row = false
  · obtain ⟨decisions', hinsert⟩ := Table.exists_insert (T := decisions) (r := row) rfl hfree
    refine ⟨row, ?_, rfl, rfl, rfl⟩
    rw [Table.insertOrIgnore, hinsert]
    exact (Table.mem_insert hinsert).2 (.inr rfl)
  · simp only [not_forall] at hfree
    obtain ⟨other, hmem, hclash⟩ := hfree
    have hsame : other.findingHash = row.findingHash :=
      of_decide_eq_true (Bool.eq_true_of_not_eq_false hclash)
    exact ⟨other, Table.subset_insertOrIgnore hmem, hsame, hcareful other hmem hsame⟩

/-- **What a step keeps.** -/
theorem ScopeWorld.Kept.step {w : ScopeWorld} (h : w.Kept) {step : ScopeStep}
    (hcareful : step.Careful w.store) : (w.step step).Kept := by
  cases step with
  | elsewhere tables => exact h
  | decideScope repository findingHash candidateHash approve faults =>
    rcases hrun : (OrchestrationRepository.decideScope repository findingHash candidateHash
      approve).run ⟨w.store, faults⟩ with ⟨result, c⟩
    have hstep : w.step (.decideScope repository findingHash candidateHash approve faults) =
        { w with store := c.store } := by
      rw [ScopeWorld.step, hrun]
    rw [hstep]
    rcases result with e | checkpointId
    · have hstore : c.store = w.store := Query.Atomic.transaction _ _ _ hrun
      rw [hstore]
      exact h
    have hdecided := decideScope_runs hrun
    intro finding hfinding
    obtain ⟨row, hrow, hhash, hid, hcandidate⟩ := h finding hfinding
    refine ⟨_, (Table.mem_update hdecided.decided).2 ⟨row, hrow, rfl⟩, ?_⟩
    split <;> exact ⟨hhash, hid, hcandidate⟩
  | recordScopeFinding repository checkpointId prd candidateHash findingHash faults =>
    rcases hrun : (OrchestrationRepository.recordScopeFinding repository checkpointId prd
      candidateHash findingHash).run ⟨w.store, faults⟩ with ⟨result, c⟩
    rw [ScopeWorld.step, hrun]
    rcases result with e | u
    · have hstore : c.store = w.store := Query.Atomic.write _ _ _ hrun
      show ScopeWorld.Kept { w with store := c.store }
      rw [hstore]
      exact h
    obtain ⟨-, hdecisions⟩ := recordScopeFinding_runs hrun
    intro finding hfinding
    show ∃ row ∈ c.store.orchestration.scopeDecisions.rows, _
    rw [hdecisions]
    rcases List.mem_append.1 hfinding with hfinding | hfinding
    · obtain ⟨row, hrow, hsame⟩ := h finding hfinding
      exact ⟨row, Table.subset_insertOrIgnore hrow, hsame⟩
    · rw [List.mem_singleton.1 hfinding]
      exact exists_of_insertOrIgnore hcareful

/-- What is promised of a decision on a finding of a candidate. -/
structure GateHolds (recorded : List RecordedFinding) (candidateHash : String) (approve : Bool)
    (db : Database) (checkpointId : String) (db' : Database) : Prop where
  approved : ∀ id row row', db.checkpoints.row id = some row → db'.checkpoints.row id = some row' →
    row.phase ≠ .implemented → row'.phase = .implemented →
    ∀ finding ∈ recorded, finding.checkpointId = id → finding.candidateHash = row'.diffHash →
      ∃ decision ∈ db'.orchestration.decisionsOf id row'.diffHash,
        decision.findingHash = finding.findingHash ∧ decision.decision = some .approved
  rejected : approve = false → ∀ row' ∈ db'.checkpoints.row checkpointId, row'.phase = .blocked
  candidate : ∀ row' ∈ db'.checkpoints.row checkpointId, row'.diffHash = candidateHash
  others : ∀ id, id ≠ checkpointId → db'.checkpoints.row id = db.checkpoints.row id
  decisions : ∀ id candidate, ¬(id = checkpointId ∧ candidate = candidateHash) →
    db'.orchestration.decisionsOf id candidate = db.orchestration.decisionsOf id candidate

theorem ScopeDecided.gateHolds
    {repository findingHash candidateHash checkpointId : String} {approve : Bool}
    {db db' : Database} {recorded : List RecordedFinding}
    (h : ScopeDecided repository findingHash candidateHash approve db checkpointId db')
    (hkept : ScopeWorld.Kept ⟨db', recorded⟩)
    (hcurrent : ∀ checkpoint ∈ db.checkpoints.row checkpointId,
      checkpoint.diffHash = candidateHash) :
    GateHolds recorded candidateHash approve db checkpointId db' where
  approved id row row' hrow hrow' hbefore hafter finding hfinding hid hcandidate := by
    rcases h.row_eq id with hsame | ⟨rfl, hmoves, hmoved⟩
    · rw [hsame, hrow] at hrow'
      rw [← Option.some.inj hrow'] at hafter
      exact absurd hafter hbefore
    rw [hmoved, hrow, Option.map_some] at hrow'
    obtain rfl := Option.some.inj hrow'
    have hphase : phaseAfter db' id candidateHash approve = .implemented := hafter
    rw [phaseAfter] at hphase
    split at hphase
    · rename_i hruling
      obtain ⟨happrove, hnoneRejected⟩ := hruling
      have hnonePending := hmoves.resolve_left (by rw [happrove]; exact Bool.noConfusion)
      obtain ⟨decision, hdecision, hhash, hdecisionId, hdecisionCandidate⟩ := hkept finding hfinding
      have hof : decision.checkpointId = id ∧ decision.candidateHash = candidateHash :=
        ⟨hdecisionId.trans hid, hdecisionCandidate.trans (hcandidate.trans (hcurrent row hrow))⟩
      refine ⟨decision, List.mem_filter.2 ⟨hdecision, decide_eq_true ⟨hof.1, ?_⟩⟩, hhash, ?_⟩
      · exact hof.2.trans (hcurrent row hrow).symm
      · -- of the rulings that a finding can have, two are counted and not there
        rcases hruling : decision.decision with _ | _ | _
        · exact absurd (decide_eq_true ⟨hof.1, hof.2, hruling⟩)
            (Bool.not_eq_true _ ▸ Table.count_eq_zero_iff.1 hnonePending decision hdecision)
        · rfl
        · exact absurd (decide_eq_true ⟨hof.1, hof.2, hruling⟩)
            (Bool.not_eq_true _ ▸ Table.count_eq_zero_iff.1 hnoneRejected decision hdecision)
    · cases hphase
  rejected happrove row' hrow' := by
    rcases h.moves with ⟨-, hupdate⟩ | ⟨hstays, -⟩
    · have hmoved := checkpoint_update hupdate (fun _ ↦ rfl) checkpointId
      rw [show Checkpoints.row { db.checkpoints with rows := db'.checkpoints.rows } checkpointId =
        db'.checkpoints.row checkpointId from rfl, hrow'] at hmoved
      obtain ⟨row, hrow, rfl⟩ := Option.map_eq_some_iff.1 hmoved.symm
      rw [if_pos (Table.find_some hrow).2]
      exact if_neg fun hruling ↦ by
        rw [happrove] at hruling
        cases hruling.1
    · exact absurd (.inl happrove) hstays
  candidate row' hrow' := by
    rcases h.row_eq checkpointId with hsame | ⟨-, -, hmoved⟩
    · rw [hsame] at hrow'
      exact hcurrent row' hrow'
    · rw [hmoved] at hrow'
      obtain ⟨row, hrow, rfl⟩ := Option.map_eq_some_iff.1 hrow'
      exact hcurrent row hrow
  others id hid := (h.row_eq id).resolve_right fun hmoved ↦ hid hmoved.1
  decisions id candidate hother := h.decisionsOf_eq hother

def ScopeStep.Gated (w : ScopeWorld) : ScopeStep → Prop
  | .decideScope repository findingHash candidateHash approve faults =>
    (∀ checkpointId c', (OrchestrationRepository.decideScope repository findingHash candidateHash
        approve).Runs ⟨w.store, faults⟩ checkpointId c' →
      GateHolds w.recorded candidateHash approve w.store checkpointId c'.store) ∧
    ∀ error c', (OrchestrationRepository.decideScope repository findingHash candidateHash
        approve).Fails ⟨w.store, faults⟩ error c' → c'.store = w.store
  | .recordScopeFinding repository checkpointId prd candidateHash findingHash faults =>
    ∀ c', (OrchestrationRepository.recordScopeFinding repository checkpointId prd candidateHash
        findingHash).Runs ⟨w.store, faults⟩ () c' →
      c'.store.checkpoints = w.store.checkpoints ∧
      w.store.orchestration.scopeDecisions.rows ⊆ c'.store.orchestration.scopeDecisions.rows
  | .elsewhere _ => True

/-- What is promised of every step of a run. -/
def ScopeWorld.Gated (w : ScopeWorld) : List ScopeStep → Prop
  | [] => True
  | step :: steps => step.Gated w ∧ (w.step step).Gated steps

theorem ScopeWorld.Kept.gated_step {w : ScopeWorld} (h : w.Kept) {step : ScopeStep}
    (hcareful : step.Careful w.store) : step.Gated w := by
  cases step with
  | elsewhere tables => trivial
  | decideScope repository findingHash candidateHash approve faults =>
    refine ⟨fun checkpointId c' hruns ↦ ?_, fun error c' hfails ↦
      Query.Atomic.transaction _ _ _ hfails⟩
    have hdecided := decideScope_runs hruns
    have hkept := h.step hcareful
    rw [ScopeWorld.step, show (OrchestrationRepository.decideScope repository findingHash
      candidateHash approve).run ⟨w.store, faults⟩ = (.ok checkpointId, c') from hruns] at hkept
    obtain ⟨row, hrow, rfl⟩ := hdecided.pending
    exact hdecided.gateHolds hkept (hcareful row hrow)
  | recordScopeFinding repository checkpointId prd candidateHash findingHash faults =>
    intro c' hruns
    obtain ⟨hcheckpoints, hdecisions⟩ := recordScopeFinding_runs hruns
    refine ⟨hcheckpoints, ?_⟩
    rw [hdecisions]
    exact Table.subset_insertOrIgnore

theorem ScopeWorld.Kept.gated {w : ScopeWorld} (h : w.Kept) {steps : List ScopeStep}
    (hcareful : w.Careful steps) : w.Gated steps := by
  induction steps generalizing w with
  | nil => trivial
  | cons step steps ih => exact ⟨h.gated_step hcareful.1, ih (h.step hcareful.1) hcareful.2⟩

/-- **The gate of scope decisions.** In every run that is careful, every step keeps what is promised
of it. -/
theorem scope_gate (db : Database) (steps : List ScopeStep)
    (hcareful : (ScopeWorld.start db).Careful steps) : (ScopeWorld.start db).Gated steps :=
  (ScopeWorld.kept_start db).gated hcareful

namespace ScopePause

/-- Two checkpoints that wait for decisions on their scope. -/
def checkpoints : Checkpoints where
  rows := ⟨[⟨"a", "repo", "PRD-1", .blocked, "ca", none, none, none⟩,
      ⟨"b", "repo", "PRD-2", .blocked, "cb", none, none, none⟩],
    by decide, by simp [checkpointSchema]⟩
  events := .empty

def db : Database :=
  { Database.empty with checkpoints }

/-- A finding of the first checkpoint, and two of the second one, one of which is approved. -/
def steps (hash : String) : List ScopeStep :=
  [.recordScopeFinding "repo" "a" "PRD-1" "ca" "f" [],
    .recordScopeFinding "repo" "b" "PRD-2" "cb" hash [],
    .recordScopeFinding "repo" "b" "PRD-2" "cb" "g" [],
    .decideScope "repo" "g" "cb" true []]

/-- What there is when the decision is made. -/
def paused (hash : String) : ScopeWorld :=
  (ScopeWorld.start db).run ((steps hash).take 3)

/-- What the decision leaves. -/
def decided (hash : String) : Connection Database FamiliarError :=
  ((OrchestrationRepository.decideScope "repo" "g" "cb" true).run ⟨(paused hash).store, []⟩).2

end ScopePause

theorem scope_gate_sample :
    (ScopeWorld.start ScopePause.db).Gated (ScopePause.steps "h") :=
  scope_gate ScopePause.db (ScopePause.steps "h") (by
    refine ⟨?_, ?_, ?_, ?_, trivial⟩ <;> decide)

/-- The second checkpoint goes on, although nobody decided on the finding that has the hash of one
of the first checkpoint. -/
theorem shared_hash_ungated :
    ¬(ScopeWorld.start ScopePause.db).Gated (ScopePause.steps "f") := by
  rintro ⟨-, -, -, ⟨hgate, -⟩, -⟩
  have hruns : (OrchestrationRepository.decideScope "repo" "g" "cb" true).Runs
      ⟨(ScopePause.paused "f").store, []⟩ "b" (ScopePause.decided "f") :=
    Prod.ext (by decide) rfl
  obtain ⟨decision, hmem, hhash, -⟩ := (hgate "b" _ hruns).approved "b"
    ⟨"b", "repo", "PRD-2", .blocked, "cb", none, none, none⟩
    ⟨"b", "repo", "PRD-2", .implemented, "cb", none, none, none⟩
    (by decide) (by decide) (by decide) rfl ⟨"b", "cb", "f"⟩ (by decide) rfl rfl
  have hnone : ∀ row ∈ (ScopePause.decided "f").store.orchestration.decisionsOf "b" "cb",
      row.findingHash ≠ "f" := by decide
  exact hnone decision hmem hhash

end FamiliarAi
