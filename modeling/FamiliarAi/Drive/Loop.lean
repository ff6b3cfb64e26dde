import FamiliarAi.Drive.Session

/-!
# The scheduling loop

One pass of the loop of `drive`: it looks at the stop reason and the ceilings, selects what may be
started beside the workers in flight, prepares and spawns it, receives the result of one worker and
processes it, escalating the attempt when the ladder says so. A pass either leads to the next one or
leaves the loop.

`drive` waits for the workers still in flight when it leaves the loop, and processes no result of
theirs.
-/

namespace FamiliarAi

namespace LoopState

variable (d : DriveSession) (i : PassInput)

/-- What the loop may still start by its ceilings. -/
def exhausted (s : LoopState) : Option DriveTermination :=
  d.warrant.exhausted s.attempted s.knownCost s.knownTokens i.elapsedMs

/-- A lost heartbeat becomes the stop reason, also where another one was recorded. -/
def observeHeartbeat (s : LoopState) : LoopState :=
  if i.heartbeatFailed then
    { s with stopAfterDrain := some .workerHeartbeatLost }.note (.stopped .workerHeartbeatLost)
  else s

/-- The top of the loop: record a lost heartbeat and an exhausted ceiling as stop reasons. -/
def observe (s : LoopState) : LoopState :=
  let s := s.observeHeartbeat i
  match s.exhausted d i with
  | some reason => (s.stopOr reason).note (.ceilingExhausted reason)
  | none => s

/-- Why the loop is left at its top. With no worker active, a recorded stop reason ends it, and so
does an exhausted ceiling. -/
def stops (s : LoopState) : Option DriveTermination :=
  if s.activeWorkers = 0 then s.stopAfterDrain.or (s.exhausted d i) else none

/-- How many PRDs the pass asks the selection for. -/
def remaining (s : LoopState) : ℕ :=
  min
    (if s.stopAfterDrain.isSome then 0
    else if d.warrant.maxPrds = 0 then d.parallelism
    else min (d.warrant.maxPrds - s.attempted) d.parallelism)
    (d.parallelism - s.activeWorkers)

def selectionContext (s : LoopState) : SelectionContext where
  readFile := i.readFile
  attempted := s.attemptedIds
  allowlist := d.warrant.prdAllowlist
  activeHolds := s.activeHolds
  foreign := i.foreign
  limit := s.remaining d

/-- Persist the decisions, each (PRD, decision) pair once a session. `none` when that fails. -/
def recordDecisions : List SelectionDecision → LoopState → Option LoopState
  | [], s => some s
  | decision :: decisions, s =>
    if s.recordedDecisions.contains (decision.prdId, decision.decision) then
      recordDecisions decisions s
    else if i.decisionRecorded decision then
      recordDecisions decisions
        { s with recordedDecisions := (decision.prdId, decision.decision) :: s.recordedDecisions }
    else none

def choose (s : LoopState) : Except Exit (List DiscoveredPrd × LoopState) :=
  match i.discovered with
  | .error _ => .error (.terminated .storageFailure)
  | .ok discovered =>
    let (selection, decisions) :=
      selectBatchWithForeign (s.selectionContext d i) discovered i.snapshot
    match selection with
    | .error e => .error (.failed e)
    | .ok selection =>
      match recordDecisions i decisions s with
      | none => .error (.terminated .storageFailure)
      | some s =>
        if selection = .backlogEmpty ∧ s.activeWorkers = 0 then
          .error (.terminated .backlogEmpty)
        else if selection = .nothingEligible ∧ s.activeWorkers = 0 then
          .error (.terminated .nothingEligible)
        else if ¬s.widthReported ∧ selection.prds.length < s.remaining d ∧ ¬i.widthRecorded then
          .error (.terminated .storageFailure)
        else .ok (selection.prds, { s with widthReported := true })

/-- The accounts when an attempt is admitted beside the given workers. -/
def accounts (s : LoopState) (running : List Worker) (cost tokens : ℕ) : Admission where
  knownCost := s.knownCost * 1000
  knownTokens := s.knownTokens
  reservedCost := s.reserved running (d.pool .nanousdBudget)
  reservedTokens := s.reserved running (d.pool .uncachedTokens)
  cost := cost
  tokens := tokens

/-- What becomes of a selected PRD. -/
inductive Prepared
  /-- `continue`: no job comes of it. -/
  | skipped
  | job (worker : Worker)
  | halted (exit : Exit)

def Prepared.failed : Prepared :=
  .halted (.terminated .storageFailure)

/-- Start a primary attempt. -/
def start (id : PrdId) (s : LoopState) : LoopState :=
  { s with attemptedIds := id :: s.attemptedIds, attempted := s.attempted + 1 }.note (.started id)

def requested (key : PoolKey) : ℕ :=
  (d.componentWarrantRequests.map fun r ↦
    if (⟨r.poolId, r.resourceType.asStr⟩ : PoolKey) = key then r.amount else 0).sum

def reserveWarrant (a : Preparation) (jobs : List Worker) (target : DiscoveredPrd) (sequence : ℕ)
    (s : LoopState) : Except Prepared (Option String) × LoopState :=
  let accounts := s.accounts d (s.inFlight ++ jobs) (requested d (d.pool .nanousdBudget))
    (requested d (d.pool .uncachedTokens))
  if d.componentWarrantRequests = [] then (.ok none, s.note (.admitted target.id accounts))
  else
    let (outcome, c) := (acquire a.random (d.owner sequence a.componentId)
      d.componentWarrantRequests .allOrNothing none).run ⟨s.ledger, a.acquireFaults⟩
    let s := { s with ledger := c.store }
    match outcome with
    | .ok (.granted id _ _) => (.ok (some id), s.note (.admitted target.id accounts))
    | .ok (.refused _) =>
      match a.refusalRecorded with
      | .ok () => (.error .skipped, s)
      | .error e => (.error (.halted (.failed (.storage e))), s)
    | .error e => (.error (.halted (.failed (.storage e.display))), s)

def declaresMigrations (target : DiscoveredPrd) : Bool :=
  match prdScope i.readFile target with
  | .ok scope => scope.contains (migrationsDirectory, .directory)
  | .error _ => false

def equip (a : Preparation) (target : DiscoveredPrd) (sequence : ℕ) (reservationId : Option String) :
    Prepared :=
  let migrations := declaresMigrations i target
  if migrations && a.migrationVersion.isNone then .failed
  else if !a.diagnosticsRecorded then .failed
  else
    match a.route with
    | .error e => .halted (.failed (.config e))
    | .ok escalationWorker =>
    match a.revisionRead with
    | .error e => .halted (.failed (.storage e))
    | .ok () =>
      if !a.worktreeCreated then .skipped
      else .job
        { target := target
          sequence := sequence
          escalationWorker := escalationWorker
          migrationVersion := if migrations then a.migrationVersion else none
          reservationId := reservationId }

/-- Prepare one selected PRD. A refused admission counts as attempted, but is no attempt. -/
def prepare (jobs : List Worker) (target : DiscoveredPrd) (s : LoopState) : Prepared × LoopState :=
  let a := i.preparation target
  if !a.qualityRecorded then (.failed, s)
  else if a.refusal.isSome then
    (.skipped, { s with attemptedIds := target.id :: s.attemptedIds })
  else
    let s := s.start target.id
    match a.sequence with
    | none => (.failed, s)
    | some sequence =>
      match s.reserveWarrant d a jobs target sequence with
      | (.error prepared, s) => (prepared, s)
      | (.ok reservationId, s) => (equip i a target sequence reservationId, s)

def prepareAll : List DiscoveredPrd → List Worker → LoopState →
    Except Exit (List Worker) × LoopState
  | [], jobs, s => (.ok jobs, s)
  | target :: targets, jobs, s =>
    match prepare d i jobs target s with
    | (.halted exit, s) => (.error exit, s)
    | (.skipped, s) => prepareAll targets jobs s
    | (.job worker, s) => prepareAll targets (jobs ++ [worker]) s

/-- Spawn a worker: it holds its scope and its resources until its result is received. -/
def spawn (s : LoopState) (worker : Worker) : LoopState :=
  let hold : ActiveHold :=
    { id := worker.target.id
      scope := (prdScope i.readFile worker.target).toOption.getD []
      resources := worker.target.metadata.resources }
  { s with
    activeWorkers := s.activeWorkers + 1
    activeHolds := s.activeHolds ++ [hold]
    inFlight := s.inFlight ++ [worker] }.note (.spawned worker.target.id (s.activeWorkers + 1))

/-! ### Processing a result -/

def receive (n : ℕ) (worker : Worker) (s : LoopState) : LoopState :=
  { s with
    activeWorkers := s.activeWorkers - 1
    activeHolds := s.activeHolds.filter fun hold ↦ !(hold.id == worker.target.id)
    inFlight := s.inFlight.eraseIdx n }

/-- Note that the spending of an attempt stays unknown, where a finite ceiling asks for it. -/
def noteSpending (id : PrdId) (cost tokens : Option ℕ) (s : LoopState) : LoopState :=
  if d.warrant.SpendingUnknown cost tokens then s.note (.spendingUnknown id) else s

/-- Close a panicked attempt. Nothing is known about what it spent. -/
def closePanicked (r : Drained) (worker : Worker) (s : LoopState) : LoopState :=
  let s := (s.noteSpending d worker.target.id none none).stopUnless r.panicStateRecorded
  if r.panicRecorded then s.stopBatchOr .unclassifiedResult else s.stopBatch .storageFailure

/-- Add the known spending of an attempt to the totals of the session. -/
def spend (cost tokens : Option ℕ) (s : LoopState) : LoopState :=
  { s with
    knownCost := cost.elim s.knownCost (saturatingAdd s.knownCost)
    knownTokens := tokens.elim s.knownTokens (saturatingAdd s.knownTokens) }

/-- What the settlement of an attempt observes: its usage, when all that is bounded is known. -/
def observation (e : Execution) : SettlementObservation :=
  if (d.warrant.maxCostMicrousd = 0 ∨ e.cost.isSome) ∧
      (d.warrant.maxTokens = 0 ∨ e.tokens.isSome) then
    .known
      ((e.cost.elim [] fun value ↦
          [⟨d.sessionId, .nanousdBudget, saturatingMul value 1000⟩]) ++
        e.tokens.elim [] fun value ↦ [⟨d.sessionId, .uncachedTokens, value⟩])
  else .unknown .settleReservedAmount

/-- Settle the reservation of an attempt. -/
def settleWarrant (e : Execution) (worker : Worker) (s : LoopState) : LoopState :=
  match worker.reservationId with
  | none => s
  | some id =>
    let (outcome, c) := (settle id (observation d e)
      (d.sessionId ++ ":" ++ toString worker.sequence)).run ⟨s.ledger, e.settleFaults⟩
    let s := { s with ledger := c.store }
    match outcome with
    | .ok _ => s
    | .error _ => s.stopBatch .storageFailure

def deterministicReasons : List String :=
  ["preflight_failed", "malformed_output", "review_disabled", "worktree_failed",
    "warrant_reservation_refused", "implementation_token_usage_unknown",
    "missing_authoritative_input_reference", "unreadable_reference", "context_compilation_failed",
    "implementation_incomplete"]

/-- Why an attempt is retained; `none` when it is completed. -/
def retainedReason (e : Execution) : Option String :=
  if e.succeeded && e.landed then none
  else some (e.retainedReason.getD
    (if e.succeeded then "integration_failed" else "unclassified_result"))

/-- The circuit breaker: the third victim of one deterministic reason stops the session. -/
def breakCircuit (reason : Option String) (worker : Worker) (s : LoopState) : LoopState :=
  match reason with
  | none => s
  | some reason =>
    if deterministicReasons.contains reason then
      let s := { s with failureStreaks := s.failureStreaks ++ [(reason, worker.target.id.display)] }
      if 3 ≤ (s.failureStreaks.filter (·.1 = reason)).length ∧ s.batchStop = none then
        s.stopBatch .deterministicFailureCascade
      else s
    else s

/-- Deliver a landed candidate. -/
def deliver (e : Delivery) (s : LoopState) : LoopState :=
  match d.maxDeliveries with
  | none => s
  | some maxDeliveries =>
    if maxDeliveries ≤ s.delivered then s.stopBatchOr .budgetDeliveriesExhausted
    else
      let s := s.stopIfLost e.heartbeatFailed
      if e.delivered then
        ({ s with delivered := s.delivered + 1 }.stopUnless e.stateRecorded).stopUnless
          e.phaseRecorded
      else if e.phaseRecorded then s.stopBatch .deliveryBlocked
      else s.stopBatch .storageFailure

/-- `ladder_escalation_payload`: the reasons for which an attempt is escalated. -/
def ladderEscalation (reason : Option String) : Bool :=
  reason = some "verification_failed" || reason = some "human_review_required"

/-- Whether the remaining warrant admits the escalation of an attempt to the given worker. -/
def Escalates (e : Execution) (stronger : StrongerWorker) (s : LoopState) : Prop :=
  let elapsed := e.escalation.elapsedMs
  let durationReservation :=
    max ((d.warrant.remainingDurationMs elapsed).getD stronger.maxExecutionDurationMs)
      stronger.maxExecutionDurationMs
  d.warrant.EscalationAdmitted s.knownCost s.knownTokens elapsed
      (stronger.estimatedCostMicrousd.getD 0) d.maxImplementationTokens durationReservation ∧
    (d.warrant.maxCostMicrousd = 0 ∨ e.cost.isSome) ∧ (d.warrant.maxTokens = 0 ∨ e.tokens.isSome)

instance (e : Execution) (stronger : StrongerWorker) (s : LoopState) :
    Decidable (Escalates d e stronger s) :=
  inferInstanceAs (Decidable (_ ∧ _ ∧ _))

/-- What follows an escalated attempt that ran. -/
def concludeEscalation (e : Escalation) (s : LoopState) : LoopState :=
  if !e.outcomeRecorded then s.stopBatch .storageFailure
  else if e.succeeded && e.landed then
    let s := { s with completed := s.completed + 1 }
    match d.maxDeliveries with
    | none => s
    | some maxDeliveries =>
      if maxDeliveries ≤ s.delivered then s.stopBatch .budgetDeliveriesExhausted
      else if e.deliver then { s with delivered := s.delivered + 1 }
      else s.stopBatch .deliveryBlocked
  else s

/-- Run an escalated attempt, in the thread of the loop. Its spending is added to the totals, and no
reservation is made or settled for it. -/
def runEscalation (e : Escalation) (stronger : StrongerWorker) (worker : Worker) (s : LoopState) :
    LoopState :=
  let accounts := s.accounts d s.inFlight (stronger.estimatedCostMicrousd.getD 0 * 1000)
    d.maxImplementationTokens
  let s := (s.note (.escalated worker.target.id accounts)).spend e.cost e.tokens
  (s.noteSpending d worker.target.id e.cost e.tokens).concludeEscalation d e

/-- Escalate a retained attempt, when the ladder says so and the warrant admits it. -/
def escalate (e : Execution) (worker : Worker) (s : LoopState) : Except DriveError LoopState :=
  match worker.escalationWorker with
  | none => .ok s
  | some stronger =>
    if ladderEscalation (retainedReason e) ∧ Escalates d e stronger s then
      match e.escalation.revisionRead with
      | .error error => .error (.storage error)
      | .ok () =>
        if !e.escalation.worktreeCreated then .ok s
        else if !e.escalation.attemptRecorded then .ok (s.stopBatch .storageFailure)
        else .ok (s.runEscalation d e.escalation stronger worker)
    else .ok s

/-- The stop reasons that a processed attempt leaves. -/
def flag (e : Execution) (s : LoopState) : LoopState :=
  let s := if !e.succeeded ∧ e.retainedReason = none then s.stopBatchOr .unclassifiedResult else s
  let s := if 0 < d.warrant.maxCostMicrousd ∧ e.cost = none then s.stopBatchOr .costUnknown else s
  if 0 < d.warrant.maxTokens ∧ e.tokens = none then s.stopBatchOr .unclassifiedResult else s

/-- Account for an attempt and settle its reservation. -/
def account (e : Execution) (worker : Worker) (s : LoopState) : LoopState :=
  ((s.spend e.cost e.tokens).noteSpending d worker.target.id e.cost e.tokens).settleWarrant d e worker

/-- Count an attempt that landed as completed. -/
def complete (e : Execution) (s : LoopState) : LoopState :=
  if e.succeeded && e.landed then { s with completed := s.completed + 1 } else s

/-- Record the state of the worktree, and deliver what landed. -/
def handOver (e : Execution) (s : LoopState) : LoopState :=
  if !e.stateRecorded then s.stopBatch .storageFailure
  else if e.succeeded && e.landed then s.deliver d e.delivery else s

/-- The outcome of an attempt: count it, watch the streaks, and deliver what landed. -/
def conclude (e : Execution) (worker : Worker) (s : LoopState) : LoopState :=
  ((s.complete e).breakCircuit (retainedReason e) worker).handOver d e

/-- Process the result of an execution, up to the first write that fails. -/
def process (e : Execution) (worker : Worker) (s : LoopState) : Except DriveError LoopState :=
  if !e.diagnosticsRecorded then
    .ok ((s.noteSpending d worker.target.id none none).stopBatch .storageFailure)
  else
    let s := (s.account d e worker).conclude d e worker
    if !e.stateRecorded then .ok s
    else if !e.outcomeRecorded then .ok (s.stopBatch .storageFailure)
    else (s.escalate d e worker).map (flag d e)

/-- Process a received result. -/
def drain (r : Drained) (worker : Worker) (s : LoopState) : Except DriveError LoopState :=
  match r.execution with
  | none => .ok (s.closePanicked d r worker)
  | some e => (s.stopIfLost r.heartbeatFailed).process d e worker

def mergeStop (s : LoopState) : LoopState :=
  match s.batchStop with
  | none => s
  | some reason => { s with batchStop := none }.stopOr reason

/-- Receive one result and process it. -/
def collect (s : LoopState) : LoopState × Option Exit :=
  if s.activeWorkers = 0 then (s, some (.terminated .nothingEligible))
  else
    match i.received.bind fun (n, r) ↦ (s.inFlight[n]?).map fun worker ↦ (n, worker, r) with
    | none => (s, some (.terminated .storageFailure))
    | some (n, worker, r) =>
      match (s.receive n worker).drain d r worker with
      | .error e => (s.receive n worker, some (.failed e))
      | .ok s =>
        let s := s.mergeStop
        (s, if i.heartbeatRecorded then none else some (.terminated .storageFailure))

/-- Start what the pass may start: how the loop is left if it is, and the state in which the pass
receives a result otherwise. -/
def dispatch (s : LoopState) : Option Exit × LoopState :=
  match s.stops d i with
  | some reason => (some (.terminated reason), s)
  | none =>
    let s := s.observe d i
    match s.choose d i with
    | .error exit => (some exit, s)
    | .ok (targets, s) =>
      match prepareAll d i targets [] s with
      | (.error exit, s) => (some exit, s)
      | (.ok jobs, s) => (none, jobs.foldl (spawn i) s)

def pass (s : LoopState) : LoopState × Option Exit :=
  match s.dispatch d i with
  | (some exit, s) => (s, some exit)
  | (none, s) => s.collect d i

end LoopState

def DriveSession.run (d : DriveSession) : List PassInput → LoopState → LoopState × Option Exit
  | [], s => (s, none)
  | i :: inputs, s =>
    match s.pass d i with
    | (s, none) => run d inputs s
    | (s, some exit) => (s, some exit)

end FamiliarAi
