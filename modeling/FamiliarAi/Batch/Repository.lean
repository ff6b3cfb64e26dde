import FamiliarAi.Core.Reservation
import Mathlib.Tactic.SplitIfs

/-!
# Batch reviews in the store

A review that is submitted to the batch interface of the provider has one row under its review id.
Every statement names the id, which is unique, so a row is modelled apart from the others: `Option
BatchReviewRow` is the row under one id. The statements that change the state of a row compare it
first, and say whether they took effect.
-/

namespace FamiliarAi

inductive BatchReviewState
  | submitted
  | completed
  | applied
  | expiredFallback
  deriving DecidableEq

/-- A row, with the columns that a review or a poller reads or writes. Times are milliseconds. -/
structure BatchReviewRow where
  providerBatchId : String
  state : BatchReviewState
  maxWaitMs : ℕ
  submittedAt : ℕ
  deadlineAt : ℕ
  polledAt : Option ℕ := none
  completedAt : Option ℕ := none
  resultJson : Option String := none
  providerCostLexical : Option String := none
  fallbackReason : Option String := none

def stateOfRow (row : Option BatchReviewRow) : Option BatchReviewState :=
  row.map (·.state)

namespace BatchReviewRepository

/-- `INSERT OR IGNORE`: the answer says whether the row was made. -/
def submit (providerBatchId : String) (maxWaitMs now : ℕ) (row : Option BatchReviewRow) :
    Except FamiliarError (Bool × Option BatchReviewRow) :=
  if maxWaitMs = 0 then
    .error (.database "batch review submission requires a positive max_wait_ms")
  else
    match row with
    | some row => .ok (false, some row)
    | none => .ok (true, some
        { providerBatchId := providerBatchId
          state := .submitted
          maxWaitMs := maxWaitMs
          submittedAt := now
          deadlineAt := now + maxWaitMs })

/-- `UPDATE … WHERE review_id = ? AND state = ?`. -/
def updateWhere (state : BatchReviewState) (f : BatchReviewRow → BatchReviewRow) :
    Option BatchReviewRow → Bool × Option BatchReviewRow
  | none => (false, none)
  | some row => if row.state = state then (true, some (f row)) else (false, some row)

def markPolled (now : ℕ) : Option BatchReviewRow → Bool × Option BatchReviewRow :=
  updateWhere .submitted fun row ↦ { row with polledAt := some now }

def markCompleted (resultJson : String) (providerCostLexical : Option String) (now : ℕ) :
    Option BatchReviewRow → Bool × Option BatchReviewRow :=
  updateWhere .submitted fun row ↦
    { row with
      state := .completed
      resultJson := some resultJson
      providerCostLexical := providerCostLexical
      completedAt := some now }

def peekCompleted : Option BatchReviewRow → Except FamiliarError (Option String)
  | none => .ok none
  | some row =>
    if row.state = .completed then
      match row.resultJson with
      | some resultJson => .ok (some resultJson)
      | none => .error (.database "Invalid column type Null")
    else .ok none

def markApplied : Option BatchReviewRow → Bool × Option BatchReviewRow :=
  updateWhere .completed fun row ↦ { row with state := .applied }

def markAppliedReentryFallback (reason : String) :
    Option BatchReviewRow → Bool × Option BatchReviewRow :=
  updateWhere .applied fun row ↦
    { row with state := .expiredFallback, fallbackReason := some reason }

def markExpiredFallback (reason : String) : Option BatchReviewRow → Bool × Option BatchReviewRow :=
  updateWhere .submitted fun row ↦
    { row with state := .expiredFallback, fallbackReason := some reason }

end BatchReviewRepository

/-! ### How a row moves -/

/-- The moves of the state under an id. -/
inductive StateMoves : Option BatchReviewState → Option BatchReviewState → Prop
  | stays (state : Option BatchReviewState) : StateMoves state state
  | inserted : StateMoves none (some .submitted)
  | completed : StateMoves (some .submitted) (some .completed)
  | applied : StateMoves (some .completed) (some .applied)
  | expired : StateMoves (some .submitted) (some .expiredFallback)
  | reentered : StateMoves (some .applied) (some .expiredFallback)

namespace StateMoves

variable {state state' : Option BatchReviewState}

theorem of_completed (hmoves : StateMoves (some .completed) state') :
    state' = some .completed ∨ state' = some .applied := by
  cases hmoves with
  | stays => exact .inl rfl
  | applied => exact .inr rfl

/-- A row that fell back stays so. -/
theorem of_expiredFallback (hmoves : StateMoves (some .expiredFallback) state') :
    state' = some .expiredFallback := by
  cases hmoves with
  | stays => rfl

theorem of_disposed (hmoves : StateMoves state state')
    (hstate : state = some .applied ∨ state = some .expiredFallback) :
    state' = some .applied ∨ state' = some .expiredFallback := by
  cases hmoves with
  | stays => exact hstate
  | reentered => exact .inr rfl
  | inserted | completed | applied | expired => simp at hstate

theorem isSome (hmoves : StateMoves state state') (hsome : state.isSome) : state'.isSome := by
  cases hmoves with
  | stays => exact hsome
  | inserted | completed | applied | expired | reentered => rfl

end StateMoves

namespace BatchReviewRepository

variable {row : Option BatchReviewRow} {f : BatchReviewRow → BatchReviewRow}
  {state : BatchReviewState} {reason : String} {maxWaitMs now : ℕ} {batchId : String}

theorem updateWhere_of_eq {row : BatchReviewRow} (hstate : row.state = state) :
    updateWhere state f (some row) = (true, some (f row)) :=
  if_pos hstate

theorem updateWhere_of_ne {row : BatchReviewRow} (hstate : row.state ≠ state) :
    updateWhere state f (some row) = (false, some row) :=
  if_neg hstate

theorem updateWhere_moves
    (hf : ∀ row, row.state = state → StateMoves (some state) (some (f row).state)) :
    StateMoves (stateOfRow row) (stateOfRow (updateWhere state f row).2) := by
  rcases row with _ | row
  · exact .stays _
  by_cases hstate : row.state = state
  · rw [updateWhere_of_eq hstate]
    show StateMoves (some row.state) _
    rw [hstate]
    exact hf row hstate
  · rw [updateWhere_of_ne hstate]
    exact .stays _

theorem markPolled_moves {now : ℕ} :
    StateMoves (stateOfRow row) (stateOfRow (markPolled now row).2) :=
  updateWhere_moves fun row hstate ↦ by
    rw [hstate]
    exact .stays _

theorem markCompleted_moves {resultJson : String} {cost : Option String} {now : ℕ} :
    StateMoves (stateOfRow row) (stateOfRow (markCompleted resultJson cost now row).2) :=
  updateWhere_moves fun _ _ ↦ .completed

theorem markApplied_moves : StateMoves (stateOfRow row) (stateOfRow (markApplied row).2) :=
  updateWhere_moves fun _ _ ↦ .applied

theorem markExpiredFallback_moves :
    StateMoves (stateOfRow row) (stateOfRow (markExpiredFallback reason row).2) :=
  updateWhere_moves fun _ _ ↦ .expired

theorem markAppliedReentryFallback_moves :
    StateMoves (stateOfRow row) (stateOfRow (markAppliedReentryFallback reason row).2) :=
  updateWhere_moves fun _ _ ↦ .reentered

theorem submit_moves {made : Bool} {row' : Option BatchReviewRow}
    (h : submit batchId maxWaitMs now row = .ok (made, row')) :
    StateMoves (stateOfRow row) (stateOfRow row') ∧ row'.isSome := by
  unfold submit at h
  split_ifs at h
  rcases row with _ | row
  · cases h
    exact ⟨.inserted, rfl⟩
  cases h
  exact ⟨.stays _, rfl⟩

theorem submit_error {e : FamiliarError} (h : submit batchId maxWaitMs now row = .error e) :
    maxWaitMs = 0 := by
  unfold submit at h
  split_ifs at h with hwait
  · exact hwait
  · cases row <;> cases h

theorem markApplied_won (hwon : (markApplied row).1 = true) :
    stateOfRow row = some .completed ∧ stateOfRow (markApplied row).2 = some .applied := by
  rcases row with _ | row
  · cases hwon
  by_cases hstate : row.state = .completed
  · rw [markApplied, updateWhere_of_eq hstate]
    exact ⟨congrArg some hstate, rfl⟩
  · rw [markApplied, updateWhere_of_ne hstate] at hwon
    cases hwon

theorem markExpiredFallback_expires
    (hstate : stateOfRow row = some .submitted ∨ stateOfRow row = some .expiredFallback) :
    stateOfRow (markExpiredFallback reason row).2 = some .expiredFallback := by
  rcases row with _ | row
  · simp [stateOfRow] at hstate
  by_cases hsubmitted : row.state = .submitted
  · rw [markExpiredFallback, updateWhere_of_eq hsubmitted]
    rfl
  · rw [markExpiredFallback, updateWhere_of_ne hsubmitted]
    exact hstate.resolve_left fun h ↦ hsubmitted (Option.some.inj h)

theorem markAppliedReentryFallback_expires
    (hstate : stateOfRow row = some .applied ∨ stateOfRow row = some .expiredFallback) :
    stateOfRow (markAppliedReentryFallback reason row).2 = some .expiredFallback := by
  rcases row with _ | row
  · simp [stateOfRow] at hstate
  by_cases happlied : row.state = .applied
  · rw [markAppliedReentryFallback, updateWhere_of_eq happlied]
    rfl
  · rw [markAppliedReentryFallback, updateWhere_of_ne happlied]
    exact hstate.resolve_left fun h ↦ happlied (Option.some.inj h)

end BatchReviewRepository

end FamiliarAi
