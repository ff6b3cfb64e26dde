import FamiliarAi.Core.Outcome
import FamiliarAi.Drive.Selection
import FamiliarAi.Reservation.Run

/-!
# The drive session and the state of its loop

What the scheduling loop of `drive` runs with, the state it keeps between its passes, and the answers
it gets from the outside: the backlog, the store, the worktrees and the workers. Every answer is a
field of an input record, so that a run of the loop is a function of the list of its inputs.

The rows of attempts, decisions and diagnostics are written by the loop and read by none of its
decisions; of such a write only whether it succeeded is kept. The ledger of the session pools is the
one of `FamiliarAi.Reservation.Ledger`. The loop state carries one component the source does not
have: `log`, the record of what the loop did, which no definition reads.
-/

namespace FamiliarAi

/-! ### Warrant -/

/-- Why a driver session stopped. -/
inductive DriveTermination
  | backlogEmpty
  | nothingEligible
  | budgetPrdsExhausted
  | budgetCostExhausted
  | budgetTokensExhausted
  | budgetDurationExhausted
  | costUnknown
  | storageFailure
  | interrupted
  | unclassifiedResult
  | workerHeartbeatLost
  | preflightFailed
  | deliveryBlocked
  | budgetDeliveriesExhausted
  | deterministicFailureCascade
  deriving DecidableEq

/-- The budget ceilings of a session. Zero means that there is no ceiling of the kind. -/
structure DriveWarrant where
  maxPrds : ℕ := 0
  maxCostMicrousd : ℕ := 0
  maxTokens : ℕ := 0
  maxDurationMs : ℕ := 0
  prdAllowlist : Option (List PrdId) := none

/-- The ceiling breached before starting another attempt, if any. -/
def DriveWarrant.exhausted (w : DriveWarrant) (attempted cost tokens elapsedMs : ℕ) :
    Option DriveTermination :=
  if 0 < w.maxPrds ∧ w.maxPrds ≤ attempted then some .budgetPrdsExhausted
  else if 0 < w.maxCostMicrousd ∧ w.maxCostMicrousd ≤ cost then some .budgetCostExhausted
  else if 0 < w.maxTokens ∧ w.maxTokens ≤ tokens then some .budgetTokensExhausted
  else if 0 < w.maxDurationMs ∧ w.maxDurationMs ≤ elapsedMs then some .budgetDurationExhausted
  else none

/-- A session that the driver opens: its warrant, and the part of the configuration that the loop
reads. -/
structure DriveSession where
  sessionId : String
  repositoryKey : String
  warrant : DriveWarrant
  /-- `driver.max_parallel_components`. -/
  parallelism : ℕ
  /-- `driver.max_implementation_tokens`. -/
  maxImplementationTokens : ℕ
  /-- `max_deliveries_per_session`, when the repository delivers at all. -/
  maxDeliveries : Option ℕ
  parallelism_pos : 0 < parallelism
  /-- An unattended drive has at least one finite ceiling. -/
  finite : ¬(warrant.maxPrds = 0 ∧ warrant.maxCostMicrousd = 0 ∧ warrant.maxTokens = 0 ∧
    warrant.maxDurationMs = 0)

namespace DriveSession

def pool (d : DriveSession) (resource : ResourceType) : PoolKey :=
  ⟨d.sessionId, resource.asStr⟩

def definePool (d : DriveSession) (resource : ResourceType) (capacity : ℕ)
    (faults : List (Option FamiliarError)) (L : Ledger) : Except DriveError Ledger :=
  match (FamiliarAi.definePool d.sessionId resource capacity false).run ⟨L, faults⟩ with
  | (.ok (), c) => .ok c.store
  | (.error e, _) => .error (.storage e.display)

def openCostPool (d : DriveSession) (faults : List (Option FamiliarError)) (L : Ledger) :
    Except DriveError Ledger :=
  if d.warrant.maxCostMicrousd = 0 then .ok L
  else if d.warrant.maxCostMicrousd * 1000 ≤ maxU64 then
    d.definePool .nanousdBudget (d.warrant.maxCostMicrousd * 1000) faults L
  else .error (.config "cost warrant exceeds nanoUSD range")

def openTokenPool (d : DriveSession) (faults : List (Option FamiliarError)) (L : Ledger) :
    Except DriveError Ledger :=
  if d.warrant.maxTokens = 0 then .ok L
  else d.definePool .uncachedTokens d.warrant.maxTokens faults L

def openPools (d : DriveSession) (faults faults' : List (Option FamiliarError)) (L : Ledger) :
    Except DriveError Ledger := do
  let L ← d.openCostPool faults L
  d.openTokenPool faults' L

/-- `component_warrant_requests`: what a primary attempt reserves, its fair share of each finite
ceiling. -/
def componentWarrantRequests (d : DriveSession) : List ResourceRequest :=
  let divisor := max d.parallelism 1
  (if 0 < d.warrant.maxCostMicrousd then
      [⟨d.sessionId, .nanousdBudget, max (saturatingMul d.warrant.maxCostMicrousd 1000 / divisor) 1⟩]
    else []) ++
  (if 0 < d.warrant.maxTokens then
      let fairShare := max (d.warrant.maxTokens / divisor) 1
      [⟨d.sessionId, .uncachedTokens,
        if 0 < d.maxImplementationTokens then min d.maxImplementationTokens fairShare
        else fairShare⟩]
    else [])

def owner (d : DriveSession) (sequence : ℕ) (componentId : String) : ReservationOwnerIdentity where
  ownerInstanceId := d.sessionId ++ ":" ++ toString sequence
  installationId := none
  nonceOrGeneration := d.sessionId
  ownerKind := "drive-component"
  projectId := d.repositoryKey
  executionId := d.sessionId ++ ":" ++ toString sequence
  componentId := componentId

end DriveSession

def DriveWarrant.remainingDurationMs (w : DriveWarrant) (elapsedMs : ℕ) : Option ℕ :=
  if 0 < w.maxDurationMs then some (w.maxDurationMs - elapsedMs) else none

def DriveWarrant.EscalationAdmitted (w : DriveWarrant) (knownCost knownTokens elapsedMs estimatedCost
    tokenReservation durationReservationMs : ℕ) : Prop :=
  (w.maxCostMicrousd = 0 ∨ saturatingAdd knownCost estimatedCost ≤ w.maxCostMicrousd) ∧
  (w.maxTokens = 0 ∨
    0 < tokenReservation ∧ saturatingAdd knownTokens tokenReservation ≤ w.maxTokens) ∧
  (w.maxDurationMs = 0 ∨
    0 < durationReservationMs ∧ saturatingAdd elapsedMs durationReservationMs ≤ w.maxDurationMs)

instance (w : DriveWarrant) (knownCost knownTokens elapsedMs estimatedCost tokenReservation
    durationReservationMs : ℕ) : Decidable (w.EscalationAdmitted knownCost knownTokens elapsedMs
      estimatedCost tokenReservation durationReservationMs) :=
  inferInstanceAs (Decidable (_ ∧ _ ∧ _))

/-- Some part of the spending of an attempt is not known although its ceiling is finite. -/
def DriveWarrant.SpendingUnknown (w : DriveWarrant) (cost tokens : Option ℕ) : Prop :=
  (0 < w.maxCostMicrousd ∧ cost = none) ∨ (0 < w.maxTokens ∧ tokens = none)

instance (w : DriveWarrant) (cost tokens : Option ℕ) : Decidable (w.SpendingUnknown cost tokens) :=
  inferInstanceAs (Decidable (_ ∨ _))

/-- The accounts of the session at the moment an attempt is admitted. Costs are in nanoUSD. -/
structure Admission where
  knownCost : ℕ
  knownTokens : ℕ
  reservedCost : ℕ
  reservedTokens : ℕ
  /-- What the new attempt is admitted with. -/
  cost : ℕ
  tokens : ℕ
  deriving DecidableEq

/-- What the loop does that its bounds are about. -/
inductive LoopEvent
  /-- A stop reason is recorded. -/
  | stopped (reason : DriveTermination)
  | ceilingExhausted (reason : DriveTermination)
  | started (id : PrdId)
  /-- A primary attempt has its reservation. -/
  | admitted (id : PrdId) (accounts : Admission)
  | spawned (id : PrdId) (active : ℕ)
  | escalated (id : PrdId) (accounts : Admission)
  /-- An attempt has finished and its spending under a finite ceiling stays unknown. -/
  | spendingUnknown (id : PrdId)
  deriving DecidableEq

namespace LoopEvent

def isStop : LoopEvent → Bool
  | stopped _ | ceilingExhausted _ => true
  | _ => false

/-- A primary attempt is started. -/
def isStart : LoopEvent → Bool
  | started _ => true
  | _ => false

def isAttempt : LoopEvent → Bool
  | started _ | admitted .. | escalated .. => true
  | _ => false

def isUnknown : LoopEvent → Bool
  | spendingUnknown _ => true
  | _ => false

def accounts? : LoopEvent → Option Admission
  | admitted _ accounts | escalated _ accounts => some accounts
  | _ => none

/-- How many workers are active, once a worker is spawned. -/
def active? : LoopEvent → Option ℕ
  | spawned _ active => some active
  | _ => none

end LoopEvent

/-- The worker a failed attempt is escalated to. -/
structure StrongerWorker where
  estimatedCostMicrousd : Option ℕ
  maxExecutionDurationMs : ℕ

/-- A job handed to a worker thread. -/
structure Worker where
  target : DiscoveredPrd
  sequence : ℕ
  escalationWorker : Option StrongerWorker
  migrationVersion : Option ℕ
  reservationId : Option String

/-- The variables of the loop. -/
structure LoopState where
  attemptedIds : List PrdId := []
  attempted : ℕ := 0
  completed : ℕ := 0
  knownCost : ℕ := 0
  knownTokens : ℕ := 0
  delivered : ℕ := 0
  recordedDecisions : List (PrdId × String) := []
  widthReported : Bool := false
  activeWorkers : ℕ := 0
  stopAfterDrain : Option DriveTermination := none
  activeHolds : List ActiveHold := []
  /-- The deterministic reasons met so far, each with its victim. -/
  failureStreaks : List (String × String) := []
  /-- The stop reason of the pass, merged into `stopAfterDrain` at its end. -/
  batchStop : Option DriveTermination := none
  /-- The workers whose results have not been received. -/
  inFlight : List Worker := []
  ledger : Ledger
  log : List LoopEvent := []

/-- How the loop is left. -/
inductive Exit
  | terminated (reason : DriveTermination)
  | failed (error : DriveError)
  deriving DecidableEq

namespace LoopState

/-- Append to the log. -/
def note (s : LoopState) (event : LoopEvent) : LoopState :=
  { s with log := s.log ++ [event] }

def stopBatch (s : LoopState) (reason : DriveTermination) : LoopState :=
  { s with batchStop := some reason }

/-- `batch_stop.get_or_insert(reason)`. -/
def stopBatchOr (s : LoopState) (reason : DriveTermination) : LoopState :=
  { s with batchStop := some (s.batchStop.getD reason) }

/-- A write that fails stops the batch. -/
def stopUnless (recorded : Bool) (s : LoopState) : LoopState :=
  if recorded then s else s.stopBatch .storageFailure

def stopIfLost (heartbeatFailed : Bool) (s : LoopState) : LoopState :=
  if heartbeatFailed then s.stopBatch .workerHeartbeatLost else s

/-- `stop_after_drain.get_or_insert(reason)`. -/
def stopOr (s : LoopState) (reason : DriveTermination) : LoopState :=
  { s with stopAfterDrain := some (s.stopAfterDrain.getD reason) }.note (.stopped reason)

def reserved (s : LoopState) (workers : List Worker) (key : PoolKey) : ℕ :=
  (workers.map fun w ↦ w.reservationId.elim 0 fun id ↦ s.ledger.granted id key).sum

end LoopState

/-- What the loop meets while it prepares one selected PRD. -/
structure Preparation where
  /-- The admission quality is persisted. -/
  qualityRecorded : Bool := true
  /-- `quality.refusal()`. -/
  refusal : Option String := none
  componentId : String
  /-- The sequence number of the recorded attempt. -/
  sequence : Option ℕ
  random : Option String
  acquireFaults : List (Option FamiliarError) := []
  /-- The attempt that got no reservation is closed. -/
  refusalRecorded : Except String Unit := .ok ()
  /-- The version that `reserve_migration` answers. -/
  migrationVersion : Option ℕ := none
  /-- The phase of the attempt is persisted. -/
  diagnosticsRecorded : Bool := true
  route : Except String (Option StrongerWorker) := .ok none
  revisionRead : Except String Unit := .ok ()
  worktreeCreated : Bool := true

/-- What the loop meets when it delivers a landed candidate. -/
structure Delivery where
  heartbeatFailed : Bool := false
  delivered : Bool := true
  stateRecorded : Bool := true
  phaseRecorded : Bool := true

/-- What the loop meets while it runs an escalated attempt. -/
structure Escalation where
  elapsedMs : ℕ
  revisionRead : Except String Unit := .ok ()
  worktreeCreated : Bool := true
  attemptRecorded : Bool := true
  succeeded : Bool
  landed : Bool
  cost : Option ℕ
  tokens : Option ℕ
  outcomeRecorded : Bool := true
  deliver : Bool := true

/-- The result of a worker that did not panic, and what the loop meets while it processes it. -/
structure Execution where
  diagnosticsRecorded : Bool := true
  /-- The workflow succeeded, or its review risk was accepted. -/
  succeeded : Bool
  retainedReason : Option String := none
  cost : Option ℕ
  tokens : Option ℕ
  settleFaults : List (Option FamiliarError) := []
  /-- The candidate is merged, and its landing committed. -/
  landed : Bool
  /-- The state of the worktree is persisted. -/
  stateRecorded : Bool := true
  delivery : Delivery := {}
  outcomeRecorded : Bool := true
  escalation : Escalation

/-- A received result. -/
structure Drained where
  heartbeatFailed : Bool := false
  /-- `none`: the worker panicked. -/
  execution : Option Execution
  panicStateRecorded : Bool := true
  /-- The panicked attempt is closed. -/
  panicRecorded : Bool := true

/-- What the loop meets during one pass. -/
structure PassInput where
  heartbeatFailed : Bool := false
  elapsedMs : ℕ := 0
  /-- The discovered backlog, or why it cannot be read or its graph is invalid. -/
  discovered : Except String (List DiscoveredPrd)
  readFile : RepositoryPath → Except String String
  foreign : ForeignState := {}
  snapshot : Except String (List BacklogEntry)
  decisionRecorded : SelectionDecision → Bool := fun _ ↦ true
  widthRecorded : Bool := true
  preparation : DiscoveredPrd → Preparation
  /-- Which of the workers in flight reports, and what; `none` when the channel fails. -/
  received : Option (ℕ × Drained)
  /-- The session heartbeat at the end of the pass is persisted. -/
  heartbeatRecorded : Bool := true

end FamiliarAi
