import FamiliarAi.ControlPlane.Store

/-!
# The control-plane repository

The operations of the control-plane repository that schedule executions, statement by statement:
registering projects, submitting, claiming, binding workers, finishing, and recovering after a crash.
-/

namespace FamiliarAi

open Relational

def onExecutions {α : Type} (f : Table executionSchema → Option (α × Table executionSchema)) :
    ControlQuery α :=
  .changePart constraintFailed ControlStore.executions (fun S T ↦ { S with executions := T }) f

def onProjects {α : Type} (f : Table projectSchema → Option (α × Table projectSchema)) :
    ControlQuery α :=
  .changePart constraintFailed ControlStore.projects (fun S T ↦ { S with projects := T }) f

/-- A statement on the resource pools. -/
def onPools {α : Type} (f : Table poolSchema → Option (α × Table poolSchema)) : ControlQuery α :=
  .changePart constraintFailed ControlStore.pools (fun S T ↦ { S with pools := T }) f

def onReservations {α : Type} (f : Table reservationSchema → Option (α × Table reservationSchema)) :
    ControlQuery α :=
  .changePart constraintFailed ControlStore.reservations (fun S T ↦ { S with reservations := T }) f

def onWorkers {α : Type} (f : Table workerSchema → Option (α × Table workerSchema)) :
    ControlQuery α :=
  .changePart constraintFailed ControlStore.workers (fun S T ↦ { S with workers := T }) f

/-- A statement on a table that the control plane never reads back (the execution history, the
accounting evidence, the usage observations): it may fault, and changes nothing modelled. -/
def sideTable : ControlQuery Unit := .control

/-- Append an event of an execution that exists. The answer is the cursor of the event. -/
def insertEvent (row : ControlEventRow) : ControlQuery ℕ :=
  .change constraintFailed fun S ↦
    if (S.execution row.executionId).isSome then
      (S.events.insert row).map fun T ↦ (T.rows.length, { S with events := T })
    else
      none

def insertReservationEvent (row : EventRow) : ControlQuery Unit :=
  .write constraintFailed fun S ↦
    if 0 < S.reservations.count (fun r ↦ r.reservationId = row.reservationId) then
      some { S with reservationEvents := S.reservationEvents ++ [row] }
    else
      none

/-- A `usize` cast to a signed column. -/
def asI64 (n : ℕ) : ℤ :=
  if n < 2 ^ 63 then n else n - 2 ^ 64

def registerProject (projectId root : String) (priority : ℤ) (ceiling : ℕ) : ControlQuery Unit :=
  onProjects fun T ↦
    (match T.find fun p ↦ p.projectId = projectId with
    | none => T.insert
        { projectId := projectId, rootPath := root, priority := priority,
          concurrencyCeiling := asI64 ceiling }
    | some _ => T.update (fun p ↦ p.projectId = projectId) fun p ↦
        { p with rootPath := root, priority := priority, concurrencyCeiling := asI64 ceiling }).map
      fun T' ↦ ((), T')

/-- Pause, archive or reactivate a project. The answer says whether the project exists. -/
def setProjectState (projectId state : String) : ControlQuery Bool := do
  let state ← .ofExcept (match ProjectState.ofStr? state with
    | some state => .ok state
    | none => .error (.database "invalid project state"))
  let changed ← onProjects fun T ↦ T.modify (fun p ↦ p.projectId = projectId) fun p ↦
    { p with state := state }
  pure (decide (changed = 1))

/-- The execution that a key was submitted under before, with the cursor of its first event. -/
def ControlStore.duplicateOf (S : ControlStore) (idempotencyKey : String) : Option (String × ℕ) :=
  (S.executions.find fun e ↦ e.idempotencyKey = idempotencyKey).bind fun e ↦
    (S.events.rows.findIdx? fun v ↦
      decide (v.executionId = e.executionId) && decide (v.kind = "submitted")).map fun i ↦
        (e.executionId, i + 1)

/-- Queue an execution and record its first event. A key that was used before is answered with the
execution it was used for. `now` is the time of the store. -/
def submit (now : String) (request : Submission) : ControlQuery SubmissionAck :=
  .transaction do
    let duplicate ← .read fun S ↦ S.duplicateOf request.idempotencyKey
    match duplicate with
    | some (id, cursor) => pure ⟨id, true, cursor⟩
    | none =>
      let changed ← .change constraintFailed fun S ↦
        if (S.project request.projectId).any (·.state ≠ .archived) then
          (S.executions.insert
            { executionId := request.executionId, projectId := request.projectId,
              idempotencyKey := request.idempotencyKey, mode := request.mode,
              priority := request.priority, state := .queued, commandJson := request.commandJson,
              createdAt := now }).map fun T ↦ (1, { S with executions := T })
        else
          some (0, S)
      .ensure (changed = 1) (.database "project is unknown or archived; submission refused")
      let cursor ← insertEvent
        ⟨request.executionId ++ ":submitted", request.executionId, "submitted", .empty⟩
      pure ⟨request.executionId, false, cursor⟩

def slotPool (poolId : String) : PoolKey :=
  ⟨poolId, ResourceType.inferenceSlots.asStr⟩

/-- The pool that every execution takes a slot of. -/
def globalPool : String := "control-plane:global"

def projectPool (projectId : String) : String := "control-plane:project:" ++ projectId

def ensureSlotPool (poolId : String) (capacity occupied : ℕ) : ControlQuery Unit := do
  let capacity ← .ofExcept (if capacity ≤ maxSqlAmount then .ok capacity
    else .error (.database "concurrency ceiling exceeds SQLite range"))
  -- `capacity.saturating_sub(occupied).max(0)`
  let available := capacity - occupied
  onPools fun T ↦
    (match T.find fun p ↦ p.key = slotPool poolId with
    | none => T.insert ⟨slotPool poolId, capacity, available, true⟩
    | some _ => T.update (fun p ↦ p.key = slotPool poolId) fun p ↦
        ⟨p.key, capacity, available, true⟩).map fun T' ↦ ((), T')

def takeSlot (poolId : String) : ControlQuery Unit := do
  let changed ← onPools fun T ↦
    T.modify (·.covers (slotPool poolId) 1) fun p ↦ { p with available := p.available - 1 }
  .ensure (changed = 1) (.database ("atomic concurrency reservation unavailable for " ++ poolId))

def insertSlotItem (reservationId poolId : String) : ControlQuery Unit :=
  .write constraintFailed fun S ↦
    if 0 < S.reservations.count (fun r ↦ r.reservationId = reservationId) ∧
        0 < S.pools.count (fun p ↦ p.key = slotPool poolId) then
      (S.items.insert
        { reservationId := reservationId, pool := slotPool poolId, requestedAmount := 1,
          grantedAmount := 1 }).map fun T ↦ { S with items := T }
    else
      none

def acquireControlPlaneReservation (execution project : String) (attempt generation : ℕ)
    (pool : String) : ControlQuery Unit := do
  takeSlot globalPool
  takeSlot pool
  let reservationId := "control-plane:" ++ execution ++ ":" ++ toString attempt
  let sequence ← .read fun S ↦ (S.reservations.rows.map (·.arrivalSequence)).foldr max 0 + 1
  let installation ← .read fun S ↦ S.installationId
  onReservations fun T ↦
    (T.insert
      { reservationId := reservationId
        owner :=
          { ownerInstanceId := execution ++ ":" ++ toString attempt
            installationId := installation
            nonceOrGeneration := toString generation
            ownerKind := controlPlaneWorker
            projectId := project
            executionId := execution
            componentId := "attempt-" ++ toString attempt }
        state := .held
        arrivalSequence := sequence
        expiresAt := none }).map fun T' ↦ ((), T')
  insertSlotItem reservationId globalPool
  insertSlotItem reservationId pool
  insertReservationEvent ⟨reservationId, "acquired", "control-plane", "atomic execution claim"⟩
  sideTable

def ControlStore.heldReservation (S : ControlStore) (execution : String) : Option String :=
  ((S.reservations.rows.filter (·.isHeldBy execution)).insertionSort
    fun r r' ↦ r'.arrivalSequence ≤ r.arrivalSequence).head?.map (·.reservationId)

/-- Give the slots of an execution back, up to the capacity of their pools. -/
def releaseControlPlaneReservation (execution reason : String) : ControlQuery Unit := do
  let reservation ← .read fun S ↦ S.heldReservation execution
  match reservation with
  | none => pure ()
  | some reservation =>
    let items ← .read fun S ↦ S.items.rows.filter fun i ↦ i.reservationId = reservation
    .forEach items fun item ↦ onPools fun T ↦
      (T.update (fun p ↦ p.key = item.pool) fun p ↦
        { p with available := min p.capacity (p.available + item.grantedAmount) }).map
          fun T' ↦ ((), T')
    onReservations fun T ↦
      (T.update (fun r ↦ r.reservationId = reservation ∧ r.state = .held) fun r ↦
        { r with state := .released }).map fun T' ↦ ((), T')
    insertReservationEvent ⟨reservation, "released", "control-plane", reason⟩

/-- The queued executions that may run now, each with its project: the project is active and has
fewer executions running than its ceiling. -/
def ControlStore.candidates (S : ControlStore) : List (ExecutionRow × ProjectRow) :=
  S.executions.rows.filterMap fun e ↦
    match S.project e.projectId with
    | some p =>
      if e.state = .queued ∧ p.state = .active ∧
          (S.occupiedIn e.projectId : ℤ) < p.concurrencyCeiling then some (e, p)
      else none
    | none => none

/-- The order in which candidates are claimed. -/
def ClaimBefore (x y : ExecutionRow × ProjectRow) : Prop :=
  y.2.priority < x.2.priority ∨ y.2.priority = x.2.priority ∧
    (x.2.lastClaimSequence < y.2.lastClaimSequence ∨
      x.2.lastClaimSequence = y.2.lastClaimSequence ∧
        (y.1.priority < x.1.priority ∨ y.1.priority = x.1.priority ∧
          (x.1.createdAt < y.1.createdAt ∨
            x.1.createdAt = y.1.createdAt ∧ x.1.executionId ≤ y.1.executionId)))

instance : DecidableRel ClaimBefore := fun x y ↦ by
  unfold ClaimBefore
  infer_instance

def ControlStore.nextClaim (S : ControlStore) : Option (ExecutionRow × ProjectRow) :=
  (S.candidates.insertionSort ClaimBefore).head?

def claimNext (globalCeiling ownerGeneration : ℕ) : ControlQuery (Option String) :=
  .transaction do
    let occupied ← .read fun S ↦ S.occupied
    ensureSlotPool globalPool globalCeiling occupied
    if globalCeiling ≤ occupied then
      pure none
    else
      let selected ← .read fun S ↦ S.nextClaim
      match selected with
      | none => pure none
      | some (e, p) =>
        let attempt := e.attempt + 1
        let projectOccupied ← .read fun S ↦ S.occupiedIn e.projectId
        ensureSlotPool (projectPool e.projectId) p.concurrencyCeiling.toNat projectOccupied
        acquireControlPlaneReservation e.executionId e.projectId attempt ownerGeneration
          (projectPool e.projectId)
        let _ ← onExecutions fun T ↦ T.modify
          (fun r ↦ r.executionId = e.executionId ∧ r.state = .queued)
          fun r ↦ { r with state := .running, attempt := r.attempt + 1 }
        let _ ← insertEvent
          ⟨e.executionId ++ ":claimed:" ++ toString ownerGeneration ++ ":" ++ toString attempt,
            e.executionId, "claimed", .empty⟩
        let _ ← onProjects fun T ↦ T.modify (fun r ↦ r.projectId = e.projectId) fun r ↦
          { r with lastClaimSequence := (T.rows.map (·.lastClaimSequence)).foldr max 0 + 1 }
        pure (some e.executionId)

def bindWorker (execution identity : String) (pid : ℕ) (start tokenHash : String)
    (generation : ℕ) : ControlQuery Unit :=
  .transaction do
    let attempt ← .read fun S ↦ (S.execution execution).bind fun e ↦
      if e.state = .running then some e.attempt else none
    let attempt ← .ofExcept (match attempt with
      | some attempt => .ok attempt
      | none => .error (.database "Query returned no rows"))
    onWorkers fun T ↦
      (T.insert
        { workerIdentity := identity, executionId := execution, attempt := attempt, pid := pid,
          processStartIdentity := start, launchTokenHash := tokenHash,
          ownerGeneration := generation, state := .running }).map fun T' ↦ ((), T')
    let _ ← onExecutions fun T ↦ T.modify (fun e ↦ e.executionId = execution) fun e ↦
      { e with workerIdentity := some identity }
    pure ()

/-- Move a running or queued execution to a terminal state and release what it holds. The answer
says whether it was running or queued. -/
def finish (id : String) (state : ExecutionState) (reason : String) : ControlQuery Bool := do
  .ensure state.IsTerminal (.database "invalid terminal execution state")
  .transaction do
    let changed ← onExecutions fun T ↦ T.modify
      (fun e ↦ e.executionId = id ∧ (e.state = .running ∨ e.state = .queued))
      fun e ↦ { e with state := state }
    if changed = 1 then
      let _ ← insertEvent ⟨id ++ ":" ++ state.name, id, state.name, .reason reason⟩
      let _ ← insertEvent ⟨id ++ ":usage_finalized", id, "usage_finalized", .usageUnknown⟩
      sideTable
      sideTable
      sideTable
      releaseControlPlaneReservation id "execution_terminal"
      pure true
    else
      pure false

/-- What cancelling an execution does to the store. -/
def cancel (id : String) : ControlQuery Bool :=
  finish id .cancelled "operator_cancelled"

/-- What becomes of an execution that was running when the control plane went down. -/
inductive RecoveryKind
  /-- Its worker is gone: it is queued again. -/
  | runnerInterrupted
  /-- Its worker is still alive: it may still be running. -/
  | ambiguousLiveOrphan

def RecoveryKind.state : RecoveryKind → ExecutionState
  | runnerInterrupted => .queued
  | ambiguousLiveOrphan => .ambiguousLiveOrphan

/-- The kind of the event that records it. -/
def RecoveryKind.name : RecoveryKind → String
  | runnerInterrupted => "runner_interrupted"
  | ambiguousLiveOrphan => "ambiguous_live_orphan"

def RecoveryKind.workerState : RecoveryKind → WorkerState
  | runnerInterrupted => .exited
  | ambiguousLiveOrphan => .ambiguous

/-- What becomes of an execution with the given worker. -/
def recoveryKind (live : List String) (worker : Option String) : RecoveryKind :=
  if worker.any (live.contains ·) then .ambiguousLiveOrphan else .runnerInterrupted

def recoveryEventId (execution : String) (kind : RecoveryKind) : String :=
  execution ++ ":recovery:" ++ kind.name

/-- Record what became of the worker of an execution, if one was bound. -/
def recoverWorker (kind : RecoveryKind) : Option String → ControlQuery Unit
  | some worker => do
    let _ ← onWorkers fun T ↦ T.modify (fun w ↦ w.workerIdentity = worker) fun w ↦
      { w with state := kind.workerState, exitReason := some kind.name }
    pure ()
  | none => pure ()

def recoverOne (live : List String) (e : ExecutionRow) : ControlQuery ℕ := do
  let kind := recoveryKind live e.workerIdentity
  let changed ← onExecutions fun T ↦ T.modify
    (fun r ↦ r.executionId = e.executionId ∧ r.state = .running)
    fun r ↦ { r with state := kind.state }
  recoverWorker kind e.workerIdentity
  .when (kind.state = .queued) (releaseControlPlaneReservation e.executionId "runner_interrupted")
  let _ ← insertEvent ⟨recoveryEventId e.executionId kind, e.executionId, kind.name, .empty⟩
  pure changed

def recoverAll (live : List String) : List ExecutionRow → ControlQuery ℕ
  | [] => pure 0
  | e :: es => do
    let changed ← recoverOne live e
    let rest ← recoverAll live es
    pure (changed + rest)

def ControlStore.runningRows (S : ControlStore) : List ExecutionRow :=
  S.executions.rows.filter fun e ↦ e.state = .running

/-- Recover every execution that was running, in one transaction. `live` are the identities of the
workers that are verified to be alive. -/
def recoverRunning (live : List String) : ControlQuery ℕ := do
  let rows ← .read fun S ↦ S.runningRows
  .transaction (recoverAll live rows)

/-- One call of a scheduling operation. -/
inductive ControlCall
  | registerProject (projectId root : String) (priority : ℤ) (ceiling : ℕ)
  | setProjectState (projectId state : String)
  | submit (now : String) (request : Submission)
  | claimNext (globalCeiling ownerGeneration : ℕ)
  | bindWorker (execution identity : String) (pid : ℕ) (start tokenHash : String) (generation : ℕ)
  | finish (id : String) (state : ExecutionState) (reason : String)
  | cancel (id : String)
  | recoverRunning (live : List String)

/-- The operation a call names, without its answer. -/
def ControlCall.query : ControlCall → ControlQuery Unit
  | .registerProject projectId root priority ceiling =>
    FamiliarAi.registerProject projectId root priority ceiling
  | .setProjectState projectId state => do
    let _ ← FamiliarAi.setProjectState projectId state
    pure ()
  | .submit now request => do
    let _ ← FamiliarAi.submit now request
    pure ()
  | .claimNext globalCeiling ownerGeneration => do
    let _ ← FamiliarAi.claimNext globalCeiling ownerGeneration
    pure ()
  | .bindWorker execution identity pid start tokenHash generation =>
    FamiliarAi.bindWorker execution identity pid start tokenHash generation
  | .finish id state reason => do
    let _ ← FamiliarAi.finish id state reason
    pure ()
  | .cancel id => do
    let _ ← FamiliarAi.cancel id
    pure ()
  | .recoverRunning live => do
    let _ ← FamiliarAi.recoverRunning live
    pure ()

def ControlStore.step (S : ControlStore) (call : ControlCall × List (Option FamiliarError)) :
    ControlStore :=
  (call.1.query.run ⟨S, call.2⟩).2.store

def ControlStore.run (S : ControlStore) (calls : List (ControlCall × List (Option FamiliarError))) :
    ControlStore :=
  calls.foldl ControlStore.step S

end FamiliarAi
