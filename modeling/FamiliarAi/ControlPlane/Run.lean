import FamiliarAi.ControlPlane.Recovery

/-!
# Runs of the control plane

Whatever sequence of scheduling calls is made, with whatever faults and whatever ceilings, the slot
accounts agree and an execution that has ended stays ended. The ceilings bind a claim only where it
claims: a ceiling may be lowered below what is running, and what is running is left to finish.
-/

namespace FamiliarAi

open Relational Relation ControlStore

namespace ControlStore

variable {S S' : ControlStore} {id : String} {s : ExecutionState}

theorem moves_ignoring {α : Type} {m : ControlQuery α} (h : m.Respects (ReflTransGen Moves)) :
    (m >>= fun _ ↦ pure ()).Respects (ReflTransGen Moves) :=
  h.bind fun _ ↦ moves_of_keeps (pure_keeps _)

theorem query_moves (call : ControlCall) : call.query.Respects (ReflTransGen Moves) := by
  cases call with
  | registerProject projectId root priority ceiling =>
    exact moves_of_keeps (registerProject_keeps projectId root priority ceiling)
  | setProjectState projectId state =>
    exact moves_ignoring (moves_of_keeps (setProjectState_keeps projectId state))
  | submit now request => exact moves_ignoring (submit_moves now request)
  | claimNext globalCeiling generation =>
    exact moves_ignoring (claimNext_moves globalCeiling generation)
  | bindWorker execution identity pid start tokenHash generation =>
    exact bindWorker_moves execution identity pid start tokenHash generation
  | finish id state reason => exact moves_ignoring (finish_moves id state reason)
  | cancel id => exact moves_ignoring (finish_moves id .cancelled "operator_cancelled")
  | recoverRunning live => exact moves_ignoring (recoverRunning_moves live)

theorem step_moves (S : ControlStore) (call : ControlCall × List (Option FamiliarError)) :
    ReflTransGen Moves S (S.step call) :=
  query_moves call.1 ⟨S, call.2⟩

theorem run_moves (S : ControlStore)
    (calls : List (ControlCall × List (Option FamiliarError))) :
    ReflTransGen Moves S (S.run calls) := by
  induction calls generalizing S with
  | nil => exact .refl
  | cons call calls ih => exact (step_moves S call).trans (ih (S.step call))

theorem slotted_initial (installationId : Option String) : (initial installationId).Slotted :=
  fun _ ↦ rfl

theorem slotted_of_moves (h : ReflTransGen Moves S S') (hS : S.Slotted) : S'.Slotted := by
  induction h with
  | refl => exact hS
  | tail _ hmoves ih => exact hmoves.slotted ih

theorem terminal_of_moves (h : ReflTransGen Moves S S') (hs : S.stateOf id = some s)
    (hterminal : s.IsTerminal) : S'.stateOf id = some s := by
  induction h with
  | refl => exact hs
  | tail _ hmoves ih => exact hmoves.terminal ih hterminal

/-- What a call of `claim_next` may do to the executions: nothing, unless it answers with one. Then
that execution was queued in an active project, and both ceilings still hold with it running. -/
def ClaimWithinCeilings (S : ControlStore) (globalCeiling : ℕ) :
    Except FamiliarError (Option String) → ControlStore → Prop
  | .ok (some id), S' => ∃ e p, S.execution id = some e ∧ e.state = .queued ∧
      S.project e.projectId = some p ∧ p.state = .active ∧ S'.occupied ≤ globalCeiling ∧
      (S'.occupiedIn e.projectId : ℤ) ≤ p.concurrencyCeiling ∧
      ∀ q, q ≠ e.projectId → S'.occupiedIn q = S.occupiedIn q
  | _, S' => S'.executions = S.executions

/-- Moving one execution from the queue to `running` adds one to the counts it belongs to. -/
theorem count_claimed {T : Table executionSchema} {e : ExecutionRow} {q : ExecutionRow → Bool}
    (hT : S.executions.update (fun r ↦ r.executionId = e.executionId ∧ r.state = .queued)
      (fun r ↦ { r with state := .running, attempt := r.attempt + 1 }) = some T)
    (he : e ∈ S.executions.rows) (hqueued : e.state = .queued) (hq : q e = false) :
    T.count q = S.executions.count q +
      if q { e with state := .running, attempt := e.attempt + 1 } then 1 else 0 := by
  have hcount := Table.count_update_single (q := q) hT he (by simp [hqueued])
    fun r hr hp ↦ Table.eq_of_clash hr he (by
      simp [executionSchema, (of_decide_eq_true hp).1])
  rw [hq] at hcount
  exact hcount

theorem claimNext_withinCeilings (S : ControlStore) (globalCeiling ownerGeneration : ℕ)
    (faults : List (Option FamiliarError)) :
    ClaimWithinCeilings S globalCeiling
      ((claimNext globalCeiling ownerGeneration).run ⟨S, faults⟩).1
      ((claimNext globalCeiling ownerGeneration).run ⟨S, faults⟩).2.store := by
  cases hrun : (claimNext globalCeiling ownerGeneration).run ⟨S, faults⟩ with
  | mk r c' =>
    rcases r with err | a
    · show c'.store.executions = S.executions
      rw [Query.Atomic.transaction _ _ _ hrun]
    rcases claimNext_runs hrun with ⟨rfl, hkeep⟩ |
      ⟨e, p, T, rfl, he, hqueued, hproject, hactive, hroom, hceiling, hT, hexecutions, -⟩
    · exact hkeep.executions
    · refine ⟨e, p, execution_eq_some he rfl, hqueued, hproject, hactive, ?_, ?_, fun q hq ↦ ?_⟩
      · have hcount := count_claimed (q := (·.state.occupies)) hT he hqueued (by simp [hqueued])
        show c'.store.executions.count _ ≤ _
        rw [hexecutions, hcount]
        exact hroom
      · have hcount := count_claimed
          (q := fun r ↦ decide (r.projectId = e.projectId) && r.state.occupies) hT he hqueued
          (by simp [hqueued])
        show ((c'.store.executions.count _ : ℕ) : ℤ) ≤ _
        rw [hexecutions, hcount]
        change (S.executions.count _ : ℤ) < _ at hceiling
        simp only [decide_true, Bool.true_and, ExecutionState.occupies_running, if_true]
        push_cast
        omega
      · have hcount := count_claimed
          (q := fun r ↦ decide (r.projectId = q) && r.state.occupies) hT he hqueued
          (by simp [hqueued])
        show c'.store.executions.count _ = _
        rw [hexecutions, hcount]
        simp [Ne.symm hq, occupiedIn]

/-- **Every run of the control plane.** A running or ambiguous execution holds exactly one
reservation and no other execution holds one; a claim claims within both ceilings and otherwise
leaves the executions alone; and an execution that has ended stays in the state it ended in,
whatever calls follow. -/
theorem run_slots (installationId : Option String)
    (calls : List (ControlCall × List (Option FamiliarError))) :
    let S := (initial installationId).run calls
    (∀ id, S.holds id = if (S.stateOf id).any ExecutionState.occupies then 1 else 0) ∧
      (∀ globalCeiling ownerGeneration faults, ClaimWithinCeilings S globalCeiling
        ((claimNext globalCeiling ownerGeneration).run ⟨S, faults⟩).1
        ((claimNext globalCeiling ownerGeneration).run ⟨S, faults⟩).2.store) ∧
      ∀ later id s, S.stateOf id = some s → s.IsTerminal → (S.run later).stateOf id = some s := by
  intro S
  refine ⟨?_, fun globalCeiling ownerGeneration faults ↦ ?_, fun later id s hs hterminal ↦ ?_⟩
  · exact slotted_of_moves (run_moves _ calls) (slotted_initial installationId)
  · exact claimNext_withinCeilings S globalCeiling ownerGeneration faults
  · exact terminal_of_moves (run_moves S later) hs hterminal

/-- Two executions of `alpha` are running when its ceiling is lowered to one, and one of `beta` is
queued. -/
def loweredCeiling : ControlStore :=
  (initial none).run
    [(.registerProject "alpha" "/alpha" 0 2, []), (.registerProject "beta" "/beta" 0 1, []),
      (.submit "t" ⟨"a1", "alpha", "k1", .detached, 0, "\x7b\x7d"⟩, []),
      (.submit "t" ⟨"a2", "alpha", "k2", .detached, 0, "\x7b\x7d"⟩, []),
      (.claimNext 3 1, []), (.claimNext 3 1, []),
      (.submit "t" ⟨"b1", "beta", "k3", .detached, 0, "\x7b\x7d"⟩, []),
      (.registerProject "alpha" "/alpha" 0 1, [])]

/-- The next claim takes the queued execution while `alpha` is over its ceiling, and a claim under a
lower global ceiling takes none and leaves more running than that. -/
theorem loweredCeiling_exceeded :
    let claim := (claimNext 3 1).run ⟨loweredCeiling, []⟩
    claim.1 = .ok (some "b1") ∧ claim.2.store.occupiedIn "alpha" = 2 ∧
      (claim.2.store.project "alpha").map (·.concurrencyCeiling) = some 1 ∧
      ((claimNext 1 1).run ⟨loweredCeiling, []⟩).1 = .ok none ∧
      ((claimNext 1 1).run ⟨loweredCeiling, []⟩).2.store.occupied = 2 := by
  decide +kernel

end ControlStore

end FamiliarAi
