import FamiliarAi.Core.ControlPlane
import FamiliarAi.Reservation.Ledger

/-!
# The store of the control plane

The tables of migration 049 that the control plane works on, next to the resource tables of the reservation
ledger, which the control plane writes with statements of its own. Every execution that runs, or may
still be running, holds a reservation of one slot in the global pool and one in the pool of its
project.

Columns that no modelled statement reads (`claim_generation`, `stage`, the update timestamps) are
left out. The creation time of an execution is kept, because claims are ordered by it.
-/

namespace FamiliarAi

open Relational

/-! ### Tables -/

/-- A row of `control_plane_projects`. -/
structure ProjectRow where
  projectId : String
  rootPath : String
  priority : ℤ
  concurrencyCeiling : ℤ
  state : ProjectState := .active
  lastClaimSequence : ℕ := 0
  deriving DecidableEq

/-- `control_plane_projects`: a project may always run something. -/
def projectSchema : Schema ProjectRow where
  check p := decide (0 < p.concurrencyCeiling)
  clash p p' := decide (p.projectId = p'.projectId)

/-- A row of `control_plane_executions`. -/
structure ExecutionRow where
  executionId : String
  projectId : String
  idempotencyKey : String
  mode : ExecutionMode
  priority : ℤ
  state : ExecutionState
  attempt : ℕ := 0
  workerIdentity : Option String := none
  commandJson : String
  createdAt : String
  deriving DecidableEq

/-- `control_plane_executions`: the id and the idempotency key are each unique. -/
def executionSchema : Schema ExecutionRow where
  clash e e' := decide (e.executionId = e'.executionId) ||
    decide (e.idempotencyKey = e'.idempotencyKey)

/-- A row of `control_plane_events`. The cursor of an event is its position, counted from one. -/
structure ControlEventRow where
  eventId : String
  executionId : String
  kind : String
  payload : EventPayload
  deriving DecidableEq

/-- `control_plane_events`: an event id is used once. -/
def controlEventSchema : Schema ControlEventRow where
  clash v v' := decide (v.eventId = v'.eventId)

/-- The states of a worker process. -/
inductive WorkerState
  | launching
  | running
  | adopted
  | exited
  | ambiguous
  deriving DecidableEq

/-- A row of `control_plane_workers`. -/
structure WorkerRow where
  workerIdentity : String
  executionId : String
  attempt : ℕ
  pid : ℕ
  processStartIdentity : String
  launchTokenHash : String
  ownerGeneration : ℕ
  state : WorkerState
  exitReason : Option String := none
  deriving DecidableEq

/-- `control_plane_workers`: a worker identity is used once. -/
def workerSchema : Schema WorkerRow where
  clash w w' := decide (w.workerIdentity = w'.workerIdentity)

/-- A row of `control_plane_capability_sessions`. The authorities are kept as the list that the durable
JSON text is written from and read back to. -/
structure SessionRow where
  sessionHash : String
  scope : CapabilityScope
  expiresAt : String
  revokedAt : Option String := none
  deriving DecidableEq

/-- `control_plane_capability_sessions`: a credential is used once. -/
def sessionSchema : Schema SessionRow where
  clash s s' := decide (s.sessionHash = s'.sessionHash)

/-- A row of `control_plane_pending_gates`, in the state `pending` it is written with. -/
structure GateRow where
  gateId : String
  projectId : String
  executionId : String
  requestedBySessionHash : String
  requestJson : String
  deriving DecidableEq

/-- `control_plane_pending_gates`: a gate id is used once. -/
def gateSchema : Schema GateRow where
  clash g g' := decide (g.gateId = g'.gateId)

/-- The warrant of a driver attempt: a row of `driver_attempts` with the text its session has. -/
structure WarrantRow where
  executionId : String
  sequence : ℕ
  warrantJson : String
  deriving DecidableEq

/-- The durable store, as far as the control plane reads and writes it. -/
structure ControlStore where
  installationId : Option String
  projects : Table projectSchema
  executions : Table executionSchema
  events : Table controlEventSchema
  workers : Table workerSchema
  pools : Table poolSchema
  reservations : Table reservationSchema
  items : Table itemSchema
  reservationEvents : List EventRow
  sessions : Table sessionSchema
  gates : Table gateSchema
  warrants : List WarrantRow
  deriving DecidableEq

/-- A program over the control-plane store. -/
abbrev ControlQuery (α : Type) := Query ControlStore FamiliarError α

namespace ControlStore

def initial (installationId : Option String) : ControlStore where
  installationId := installationId
  projects := Table.empty
  executions := Table.empty
  events := Table.empty
  workers := Table.empty
  pools := Table.empty
  reservations := Table.empty
  items := Table.empty
  reservationEvents := []
  sessions := Table.empty
  gates := Table.empty
  warrants := []

def execution (S : ControlStore) (id : String) : Option ExecutionRow :=
  S.executions.find fun e ↦ e.executionId = id

def stateOf (S : ControlStore) (id : String) : Option ExecutionState :=
  (S.execution id).map (·.state)

def project (S : ControlStore) (id : String) : Option ProjectRow :=
  S.projects.find fun p ↦ p.projectId = id

/-- How many executions are running or may still be running. -/
def occupied (S : ControlStore) : ℕ :=
  S.executions.count (·.state.occupies)

/-- How many of them belong to a project. -/
def occupiedIn (S : ControlStore) (projectId : String) : ℕ :=
  S.executions.count fun e ↦ decide (e.projectId = projectId) && e.state.occupies

end ControlStore

/-- The owner kind of the reservations that the control plane makes. -/
def controlPlaneWorker : String := "control-plane-worker"

/-- A reservation that an execution holds as a control-plane worker. -/
def ReservationRow.isHeldBy (r : ReservationRow) (execution : String) : Bool :=
  decide (r.owner.executionId = execution) && decide (r.owner.ownerKind = controlPlaneWorker) &&
    decide (r.state = .held)

def ControlStore.holds (S : ControlStore) (execution : String) : ℕ :=
  S.reservations.count (·.isHeldBy execution)

end FamiliarAi
