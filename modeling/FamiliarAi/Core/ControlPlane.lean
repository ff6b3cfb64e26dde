import Mathlib.Data.Nat.Notation
import Mathlib.Data.Int.Notation

/-!
# Control-plane vocabulary of the core crate

The enumerations, scopes and records that the control plane and its clients exchange, with the
spellings under which the store keeps them.
-/

namespace FamiliarAi

/-- How the work of an execution is attached to the client that submitted it. -/
inductive ExecutionMode
  | detached
  | attached
  | foregroundOnly
  deriving DecidableEq

inductive ExecutionState
  | queued
  | running
  | paused
  | completed
  | failed
  | cancelled
  | foregroundEnded
  | ambiguousLiveOrphan
  deriving DecidableEq

namespace ExecutionState

/-- The durable spelling, which also names the event that a terminal state is entered with. -/
def name : ExecutionState → String
  | queued => "queued"
  | running => "running"
  | paused => "paused"
  | completed => "completed"
  | failed => "failed"
  | cancelled => "cancelled"
  | foregroundEnded => "foreground_ended"
  | ambiguousLiveOrphan => "ambiguous_live_orphan"

def IsTerminal : ExecutionState → Prop
  | completed | failed | cancelled | foregroundEnded => True
  | _ => False

instance : DecidablePred IsTerminal := fun s ↦ by
  cases s <;> unfold IsTerminal <;> infer_instance

/-- The states that take up a slot of the concurrency ceilings. -/
def occupies : ExecutionState → Bool
  | running | ambiguousLiveOrphan => true
  | _ => false

theorem IsTerminal.not_occupies {s : ExecutionState} (h : s.IsTerminal) : s.occupies = false := by
  cases s with
  | running | ambiguousLiveOrphan => exact h.elim
  | _ => rfl

@[simp] theorem occupies_queued : queued.occupies = false := rfl

@[simp] theorem occupies_running : running.occupies = true := rfl

@[simp] theorem occupies_ambiguousLiveOrphan : ambiguousLiveOrphan.occupies = true := rfl

end ExecutionState

/-- The state of a registered project. -/
inductive ProjectState
  | active
  | paused
  | archived
  deriving DecidableEq

def ProjectState.ofStr? : String → Option ProjectState
  | "active" => some active
  | "paused" => some paused
  | "archived" => some archived
  | _ => none

/-- A request to run something for a project. -/
structure Submission where
  executionId : String
  projectId : String
  idempotencyKey : String
  mode : ExecutionMode
  priority : ℤ
  commandJson : String

/-- What a submission is answered with. -/
structure SubmissionAck where
  executionId : String
  duplicate : Bool
  eventCursor : ℕ
  deriving DecidableEq

/-- An execution as the control plane reports it. -/
structure ExecutionRecord where
  executionId : String
  projectId : String
  mode : ExecutionMode
  state : ExecutionState
  attempt : ℕ
  workerIdentity : Option String
  commandJson : String
  deriving DecidableEq

/-- The payload of a control-plane event. -/
inductive EventPayload
  | empty
  /-- `json_object('reason', reason)` -/
  | reason (reason : String)
  /-- `{"known":false}` -/
  | usageUnknown
  | json (text : String)
  deriving DecidableEq

/-- An execution event as clients read it. -/
structure ControlEvent where
  cursor : ℕ
  eventId : String
  executionId : String
  kind : String
  payload : EventPayload
  deriving DecidableEq

/-- The kinds of clients that sessions are minted for. -/
inductive ClientClass
  | operator
  | observer
  | mcp
  | worker
  | internal
  deriving DecidableEq

/-- What a session may do. -/
inductive Authority
  | observe
  | control
  | readWarrant
  | readAccountingLabels
  | reportProgress
  | submitEvidence
  | requestEscalation
  deriving DecidableEq

/-- The spelling of an authority in the message of a refusal. -/
def Authority.debugName : Authority → String
  | observe => "Observe"
  | control => "Control"
  | readWarrant => "ReadWarrant"
  | readAccountingLabels => "ReadAccountingLabels"
  | reportProgress => "ReportProgress"
  | submitEvidence => "SubmitEvidence"
  | requestEscalation => "RequestEscalation"

/-- What a session is for: without a project it is for all of them. -/
structure CapabilityScope where
  clientClass : ClientClass
  projectId : Option String
  executionId : Option String
  attempt : Option ℤ
  workerId : Option String
  authorities : List Authority
  deriving DecidableEq

/-- A minted session, with the credential that is returned once. -/
structure CapabilityGrant where
  credential : String
  scope : CapabilityScope
  expiresAt : String
  deriving DecidableEq

end FamiliarAi
