import FamiliarAi.Storage.Transitions

/-!
# The history of a PRD

The main result on the backlog store: **the events of every PRD account for its status**. Over any
sequence of operations, successful or failing, with engine faults at any statement, the events of a PRD
begin with the status that it was first recorded with, go on from one to the next without a gap, and
end with the status of its row. Since an operation is one transaction, one that fails leaves
everything as it was.
-/

namespace FamiliarAi

open Relational

variable {sha256 : Sha256} {parseRequest : List Char → Except String ReviewRequest} {db : Database}
  {b : Backlog}

theorem recoverPrd_atomic (repository : RepositoryIdentity) (target : DiscoveredPrd)
    (action : BacklogRecoveryAction) (actor reason : String) :
    (recoverPrd repository target action actor reason).Atomic :=
  .bind .ofExcept fun _ ↦ .transaction

theorem recordComplete_atomic (repository : RepositoryIdentity) (discovered : List DiscoveredPrd)
    (target : DiscoveredPrd) (actor reason : String) :
    (recordComplete repository discovered target actor reason).Atomic :=
  .bind .ofExcept fun _ ↦ .transaction

theorem approveAndComplete_atomic (repository : RepositoryIdentity) (target : DiscoveredPrd)
    (actor reason approvedDiffHash commit : String) :
    (approveAndComplete repository target actor reason approvedDiffHash commit).Atomic :=
  .bind .ofExcept fun _ ↦
    .bind .ensure fun _ ↦ .transaction

theorem claimRun_atomic (repository : RepositoryIdentity) (discovered : List DiscoveredPrd)
    (target : DiscoveredPrd) (actor : String) :
    (claimRun repository discovered target actor).Atomic :=
  .bind .ofExcept fun _ ↦ .transaction

/-- Nothing of a failed completion is kept, whatever `finalize` has written. -/
theorem completeRunWith_atomic (repository : RepositoryIdentity) (target : DiscoveredPrd)
    (executionId actor : String) (requiredChecks : List String) (finalize : DatabaseQuery Unit) :
    (completeRunWith sha256 parseRequest repository target executionId actor requiredChecks
      finalize).Atomic :=
  .bind .ofExcept fun _ ↦ .transaction

theorem query_atomic (call : BacklogCall) : (call.query sha256 parseRequest).Atomic := by
  cases call with
  | reconcile repository discovered => exact Query.Atomic.transaction.bind_pure
  | reconcilePrd repository prd => exact Query.Atomic.transaction.bind_pure
  | claimRun repository discovered target actor =>
    exact (claimRun_atomic repository discovered target actor).bind_pure
  | completeRun repository target executionId actor requiredChecks =>
    exact (completeRunWith_atomic repository target executionId actor requiredChecks _).bind_pure
  | recover repository target action actor reason =>
    exact (recoverPrd_atomic repository target action actor reason).bind_pure
  | recordComplete repository discovered target actor reason =>
    exact (recordComplete_atomic repository discovered target actor reason).bind_pure
  | approveAndComplete repository target actor reason approvedDiffHash commit =>
    exact (approveAndComplete_atomic repository target actor reason approvedDiffHash
      commit).bind_pure

/-- The events account for the statuses, and are numbered in order. -/
structure Backlog.Sound (b : Backlog) : Prop where
  accounts : backlogAudit.Accounts b
  inOrder : b.InOrder

theorem Backlog.Sound.empty : Backlog.empty.Sound where
  accounts _ := rfl
  inOrder := List.Pairwise.nil

theorem Backlog.Sound.evolves {claims : PrdKey → String → Prop} {b b' : Backlog} (h : b.Sound)
    (h' : b.Evolves claims b') : b'.Sound where
  accounts := h.accounts.extends h'.extends_
  inOrder := h'.inOrder h.inOrder

theorem Database.sound_step (h : db.backlog.Sound) (step : BacklogStep) :
    (db.step sha256 parseRequest step).backlog.Sound := by
  cases step with
  | call call faults => exact h.evolves (respects_query call ⟨db, faults⟩)
  | elsewhere checkpoints reviews => exact h

theorem Database.sound_run (h : db.backlog.Sound) (steps : List BacklogStep) :
    (db.run sha256 parseRequest steps).backlog.Sound := by
  induction steps generalizing db with
  | nil => exact h
  | cons step steps ih => exact ih (Database.sound_step h step)

theorem Backlog.Sound.status_of_getLast (h : b.Sound) {key : PrdKey} {event : StatusEventRow}
    (hevent : (b.history key).getLast? = some event) :
    ∃ row, b.row key = some row ∧ row.status = event.new := by
  have haccounts := h.accounts key
  rw [h.inOrder.history_eq] at hevent
  have htrail : (backlogAudit.trail b key).getLast? = some event.transition := by
    show ((b.eventsOf key).map _).getLast? = _
    rw [List.getLast?_map, hevent, Option.map_some]
  cases hrow : b.row key with
  | none =>
    have hempty : backlogAudit.trail b key = [] := by
      have hvalue : backlogAudit.value b key = none := congrArg (Option.map _) hrow
      rw [hvalue] at haccounts
      exact haccounts
    rw [hempty] at htrail
    cases htrail
  | some row =>
    have hvalue : backlogAudit.value b key = some row.status := congrArg (Option.map _) hrow
    rw [hvalue] at haccounts
    obtain ⟨initial, -, hleads⟩ := haccounts
    exact ⟨row, rfl, (hleads.getLast htrail).symm⟩

/-- The events of a PRD account for its status: they begin with the status that it was first recorded
with, each goes on from the one before it, and the status is where they end. None of them leaves
`completed`, so a PRD that was first recorded as completed has none, and neither has one that was never
recorded. -/
def Backlog.Accounted (b : Backlog) (key : PrdKey) : Prop :=
  match b.row key with
  | none => b.history key = []
  | some row => ∃ location,
      (∀ event ∈ (b.history key).head?, event.old = initialStatus location) ∧
      (b.history key).IsChain (fun event event' ↦ event'.old = event.new) ∧
      (∀ event ∈ b.history key, event.old ≠ .completed) ∧
      row.status = ((b.history key).getLast?.map (·.new)).getD (initialStatus location)

theorem Backlog.Sound.accounted (h : b.Sound) (key : PrdKey) : b.Accounted key := by
  have haccounts := h.accounts key
  rw [Accounted, h.inOrder.history_eq]
  rcases hrow : b.row key with _ | row
  · have hvalue : backlogAudit.value b key = none := congrArg (Option.map _) hrow
    rw [hvalue] at haccounts
    exact List.map_eq_nil_iff.1 haccounts
  have hvalue : backlogAudit.value b key = some row.status := congrArg (Option.map _) hrow
  rw [hvalue] at haccounts
  obtain ⟨initial, hinitial, hleads⟩ := haccounts
  obtain ⟨location, rfl⟩ : ∃ location, initial = initialStatus location := by
    rcases hinitial with rfl | rfl
    · exact ⟨.active, rfl⟩
    · exact ⟨.archived, rfl⟩
  refine ⟨location, fun event hevent ↦ ?_, ?_, fun event hevent ↦ ?_, ?_⟩
  · refine hleads.head (t := event.transition) ?_
    show ((b.eventsOf key).map _).head? = _
    rw [List.head?_map, Option.mem_def.1 hevent, Option.map_some]
  · exact (List.isChain_map _).1 hleads.isChain
  · exact hleads.permits (List.mem_map_of_mem hevent)
  · rcases hlast : (b.eventsOf key).getLast? with _ | event
    · have hnil : backlogAudit.trail b key = [] :=
        congrArg (List.map _) (List.getLast?_eq_none_iff.1 hlast)
      rw [hnil] at hleads
      exact hleads.symm
    refine (hleads.getLast (t := event.transition) ?_).symm
    show ((b.eventsOf key).map _).getLast? = _
    rw [List.getLast?_map, hlast, Option.map_some]

/-- **The events of a PRD account for its status** after any sequence of operations, and an operation
that fails leaves the rows and the events of all PRDs as they were. -/
theorem status_history (sha256 : Sha256) (parseRequest : List Char → Except String ReviewRequest) :
    (∀ steps key, (Database.run sha256 parseRequest .empty steps).backlog.Accounted key) ∧
      ∀ call : BacklogCall, (call.query sha256 parseRequest).Atomic :=
  ⟨fun steps key ↦ (Database.sound_run .empty steps).accounted key, query_atomic⟩

end FamiliarAi
