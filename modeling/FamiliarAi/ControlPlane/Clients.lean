import FamiliarAi.ControlPlane.Repository

/-!
# What the repository reads and writes for clients

Sessions, gates, the event stream, and the views that agents are given: the statements of the
control-plane repository that the service runs on behalf of a client. Each is a statement or two
outside a transaction.
-/

namespace FamiliarAi

open Relational

/-- What the control plane takes from outside the repository: the digest under which credentials are
stored, and whether a text is valid JSON. -/
structure Host where
  credentialHash : String → String
  isJson : String → Bool

/-- Store a minted session. The project and the execution it names have to exist. -/
def storeSession (hash : String) (scope : CapabilityScope) (expiresAt : String) :
    ControlQuery Unit :=
  .write constraintFailed fun S ↦
    if scope.projectId.all (fun p ↦ (S.project p).isSome) = true ∧
        scope.executionId.all (fun e ↦ (S.execution e).isSome) = true then
      (S.sessions.insert ⟨hash, scope, expiresAt, none⟩).map fun T ↦ { S with sessions := T }
    else
      none

/-- The scope of a session that is neither revoked nor expired. -/
def ControlStore.session (S : ControlStore) (now hash : String) : Option CapabilityScope :=
  (S.sessions.find fun s ↦
    decide (s.sessionHash = hash) && s.revokedAt.isNone && decide (now < s.expiresAt)).map (·.scope)

def revokeSession (now hash : String) : ControlQuery Bool := do
  let changed ← .changePart constraintFailed ControlStore.sessions (fun S T ↦ { S with sessions := T })
    fun T ↦ T.modify (fun s ↦ s.sessionHash = hash ∧ s.revokedAt.isNone) fun s ↦
      { s with revokedAt := some now }
  pure (decide (changed = 1))

/-- Record a request for escalation against the project and execution of the session. -/
def pendingGate (hash : String) (scope : CapabilityScope) (request : String) :
    ControlQuery String := do
  let project ← .ofExcept (match scope.projectId with
    | some project => .ok project
    | none => .error (.database "capability is not project scoped"))
  let execution ← .ofExcept (match scope.executionId with
    | some execution => .ok execution
    | none => .error (.database "capability is not execution scoped"))
  let earlier ← .read fun S ↦ S.gates.count fun g ↦ g.executionId = execution
  let id := "gate-" ++ execution ++ "-" ++ toString (earlier + 1)
  .write constraintFailed fun S ↦
    if (S.project project).isSome ∧ (S.execution execution).isSome ∧
        0 < S.sessions.count (fun s ↦ s.sessionHash = hash) then
      (S.gates.insert ⟨id, project, execution, hash, request⟩).map fun T ↦ { S with gates := T }
    else
      none
  pure id

def appendAgentEvent (host : Host) (execution kind payload : String) : ControlQuery ℕ := do
  .ensure (kind = "agent_progress" ∨ kind = "agent_evidence")
    (.database "agent event kind is not permitted")
  .ensure (host.isJson payload = true) (.database "agent event payload must be valid JSON")
  let sequence ← .read fun S ↦
    S.events.count (fun v ↦ v.executionId = execution ∧ v.kind = kind) + 1
  insertEvent ⟨execution ++ ":" ++ kind ++ ":" ++ toString sequence, execution, kind, .json payload⟩

/-- Record what a live orphan reports late, once for each worker and attempt. The answer says whether the
execution is a live orphan of that worker. -/
def recordLateOutcome (host : Host) (execution worker payload : String) : ControlQuery Bool := do
  .ensure (host.isJson payload = true) (.database "late worker outcome must be valid JSON")
  let attempt ← .read fun S ↦ (S.execution execution).bind fun e ↦
    if e.state = .ambiguousLiveOrphan ∧ e.workerIdentity = some worker then some e.attempt else none
  match attempt with
  | none => pure false
  | some attempt =>
    .write constraintFailed fun S ↦
      if (S.execution execution).isSome then
        some { S with
          events := S.events.insertOrIgnore
            ⟨execution ++ ":late:" ++ worker ++ ":" ++ toString attempt, execution,
              "late_worker_outcome", .json payload⟩ }
      else none
    pure true

def ControlStore.eventsAfter (S : ControlStore) (execution : String) (cursor : ℤ) (limit : ℕ) :
    List ControlEvent :=
  ((S.events.rows.zipIdx.filter fun v ↦
    decide (v.1.executionId = execution) && decide (cursor < v.2 + 1)).take limit).map fun v ↦
      ⟨v.2 + 1, v.1.eventId, v.1.executionId, v.1.kind, v.1.payload⟩

/-- An execution as clients read it. -/
def ExecutionRow.record (e : ExecutionRow) : ExecutionRecord :=
  ⟨e.executionId, e.projectId, e.mode, e.state, e.attempt, e.workerIdentity, e.commandJson⟩

/-- The process of the worker that an execution is bound to, while it may be alive. -/
def ControlStore.workerPid (S : ControlStore) (execution : String) : Option ℕ :=
  (S.execution execution).bind fun e ↦ e.workerIdentity.bind fun worker ↦
    (S.workers.find fun w ↦ decide (w.workerIdentity = worker) &&
      (decide (w.state = .launching) || decide (w.state = .running) ||
        decide (w.state = .adopted))).map (·.pid)

/-- What is left of one item of a held reservation. -/
structure RemainingItem where
  reservationId : String
  poolId : String
  resourceType : String
  remaining : ℤ
  deriving DecidableEq

/-- What is left of what an execution holds, item by item in a fixed order. The source writes it as a
JSON text. -/
def ControlStore.reservationView (S : ControlStore) (execution : String) :
    Option (List RemainingItem) :=
  let items := S.reservations.rows.flatMap fun r ↦
    if r.owner.executionId = execution ∧ r.state = .held then
      (S.items.rows.filter fun i ↦ i.reservationId = r.reservationId).map fun i ↦
        (⟨r.reservationId, i.pool.poolId, i.pool.resourceType,
          (i.grantedAmount : ℤ) - i.observedAmount.getD 0⟩ : RemainingItem)
    else
      []
  let sorted := items.insertionSort fun i i' ↦ i.reservationId < i'.reservationId ∨
    i.reservationId = i'.reservationId ∧
      PoolKey.Before ⟨i.poolId, i.resourceType⟩ ⟨i'.poolId, i'.resourceType⟩
  if sorted.isEmpty then none else some sorted

def ControlStore.warrantView (S : ControlStore) (execution : String) : Option String :=
  ((S.warrants.filter fun w ↦ w.executionId = execution).insertionSort
    fun w w' ↦ w'.sequence ≤ w.sequence).head?.map (·.warrantJson)

/-- What an agent is shown of its assignment. -/
structure AgentCapabilityView where
  projectId : String
  executionId : String
  attempt : ℤ
  workerId : String
  state : ExecutionState
  warrantJson : Option String
  remainingReservations : Option (List RemainingItem)
  deriving DecidableEq

end FamiliarAi
