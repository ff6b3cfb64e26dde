import FamiliarAi.Drive.Spending

/-!
# What a session records of its attempts

The rows that `drive` starts and finishes in `driver_attempts`, and the reservations that it acquires
and settles, in the order in which it does so. An attempt is closed when its row has an outcome and
its reservation is settled; the loop gives up attempts at many places and closes them at some of
these. `CleanPass` says which of the answers from the outside make a pass give up an attempt that it
does not close.
-/

namespace FamiliarAi

/-- What the store is told about the attempts of a session. -/
inductive AttemptRecord
  | started (sequence : ℕ)
  /-- `record_attempt_finished`. -/
  | finished (sequence : ℕ) (outcome : String)
  | acquired (reservationId : String)
  | settled (reservationId : String)
  deriving DecidableEq

namespace AttemptRecord

def touch (rows : List ℕ) : AttemptRecord → List ℕ
  | started sequence => rows ++ [sequence]
  | finished sequence _ => rows.filter (· ≠ sequence)
  | acquired _ | settled _ => rows

end AttemptRecord

/-- The attempts that are started and have no outcome. -/
def openRows (records : List AttemptRecord) : List ℕ :=
  records.foldl AttemptRecord.touch []

theorem openRows_append (records more : List AttemptRecord) :
    openRows (records ++ more) = more.foldl AttemptRecord.touch (openRows records) :=
  List.foldl_append

/-- Every reservation that was acquired is settled exactly once, and every attempt that was started
has an outcome. -/
structure Closed (records : List AttemptRecord) (L : Ledger) : Prop where
  settledOnce : ∀ id, .acquired id ∈ records → records.count (.settled id) = 1
  committed : ∀ id, .acquired id ∈ records → L.stateOf id = some .committed
  finished : openRows records = []

/-- What a pass meets, with the answers that only its records depend on. -/
structure RecordedPass extends PassInput where
  /-- The outcome of an attempt without a worktree, or without its evidence, is persisted. The loop
  goes on in any case. -/
  workspaceOutcomeRecorded : DiscoveredPrd → Bool := fun _ ↦ true
  escalationSequence : ℕ := 0

namespace LoopState

variable (d : DriveSession) (i : RecordedPass)

/-! ### Records -/

def prepareRecords (jobs : List Worker) (target : DiscoveredPrd) (s : LoopState) :
    List AttemptRecord :=
  let a := i.preparation target
  if !a.qualityRecorded then []
  else if a.refusal.isSome then []
  else
    match a.sequence with
    | none => []
    | some sequence =>
      .started sequence ::
        match ((s.start target.id).reserveWarrant d a jobs target sequence).1 with
        | .error .skipped => [.finished sequence "retained"]
        | .error _ => []
        | .ok reservationId =>
          reservationId.toList.map .acquired ++
            match equip i.toPassInput a target sequence reservationId with
            | .skipped =>
              if i.workspaceOutcomeRecorded target then [.finished sequence "retained"] else []
            | _ => []

def preparations : List DiscoveredPrd → List Worker → LoopState →
    List (DiscoveredPrd × List Worker × LoopState)
  | [], _, _ => []
  | target :: targets, jobs, s =>
    (target, jobs, s) ::
      match prepare d i.toPassInput jobs target s with
      | (.halted _, _) => []
      | (.skipped, s) => preparations targets jobs s
      | (.job worker, s) => preparations targets (jobs ++ [worker]) s

def preparing (s : LoopState) : List (DiscoveredPrd × List Worker × LoopState) :=
  match s.stops d i.toPassInput with
  | some _ => []
  | none =>
    match (s.observe d i.toPassInput).choose d i.toPassInput with
    | .error _ => []
    | .ok (targets, s) => preparations d i targets [] s

def settleRecords (e : Execution) (worker : Worker) (s : LoopState) : List AttemptRecord :=
  match worker.reservationId with
  | none => []
  | some id =>
    match ((settle id (observation d e) (d.sessionId ++ ":" ++ toString worker.sequence)).run
      ⟨s.ledger, e.settleFaults⟩).1 with
    | .ok _ => [.settled id]
    | .error _ => []

def escalationRecords (e : Execution) (worker : Worker) (s : LoopState) : List AttemptRecord :=
  match worker.escalationWorker with
  | none => []
  | some stronger =>
    if ladderEscalation (retainedReason e) ∧ Escalates d e stronger s then
      match e.escalation.revisionRead with
      | .error _ => []
      | .ok () =>
        if !e.escalation.worktreeCreated then []
        else if !e.escalation.attemptRecorded then []
        else
          .started i.escalationSequence ::
            if e.escalation.outcomeRecorded then
              [.finished i.escalationSequence
                (if e.escalation.succeeded && e.escalation.landed then "completed" else "retained")]
            else []
    else []

def processRecords (e : Execution) (worker : Worker) (s : LoopState) : List AttemptRecord :=
  if !e.diagnosticsRecorded then []
  else
    settleRecords d e worker s ++
      if !e.stateRecorded then []
      else if !e.outcomeRecorded then []
      else
        .finished worker.sequence (if (retainedReason e).isNone then "completed" else "retained") ::
          escalationRecords d i e worker ((s.account d e worker).conclude d e worker)

/-- What processing a received result records. -/
def drainRecords (r : Drained) (worker : Worker) (s : LoopState) : List AttemptRecord :=
  match r.execution with
  | none => if r.panicRecorded then [.finished worker.sequence "retained"] else []
  | some e => processRecords d i e worker (s.stopIfLost r.heartbeatFailed)

/-- The result that the pass receives: from which worker in flight, and what. -/
def reported (s : LoopState) : Option (ℕ × Worker × Drained) :=
  if s.activeWorkers = 0 then none
  else i.received.bind fun (n, r) ↦ (s.inFlight[n]?).map fun worker ↦ (n, worker, r)

/-- What receiving a result records. -/
def collectRecords (s : LoopState) : List AttemptRecord :=
  match s.reported i with
  | none => []
  | some (n, worker, r) => drainRecords d i r worker (s.receive n worker)

def passRecords (s : LoopState) : List AttemptRecord :=
  (preparing d i s).flatMap (fun p ↦ prepareRecords d i p.2.1 p.1 p.2.2) ++
    match s.dispatch d i.toPassInput with
    | (some _, _) => []
    | (none, s) => collectRecords d i s

end LoopState

def DriveSession.records (d : DriveSession) : List RecordedPass → LoopState → List AttemptRecord
  | [], _ => []
  | i :: inputs, s =>
    s.passRecords d i ++
      match s.pass d i.toPassInput with
      | (s, none) => d.records inputs s
      | (_, some _) => []

namespace LoopState

variable (d : DriveSession) (i : RecordedPass)

def Begins (target : DiscoveredPrd) : Prop :=
  (i.preparation target).qualityRecorded = true ∧ (i.preparation target).refusal = none

/-- An attempt with its reservation becomes a job, or is closed. -/
structure CleanEquipping (target : DiscoveredPrd) (reservationId : Option String) : Prop where
  migration : declaresMigrations i.toPassInput target = true →
    (i.preparation target).migrationVersion.isSome = true
  diagnostics : (i.preparation target).diagnosticsRecorded = true
  worktree : ∀ escalationWorker, (i.preparation target).route = .ok escalationWorker →
    (i.preparation target).revisionRead = .ok () →
      (i.preparation target).worktreeCreated = true ∨
        reservationId = none ∧ i.workspaceOutcomeRecorded target = true

/-- An attempt that is given up while it is prepared is closed, and no other one is given up with
it. -/
structure CleanPreparation (jobs : List Worker) (target : DiscoveredPrd) (s : LoopState) : Prop where
  quality : (i.preparation target).qualityRecorded = false → s.inFlight ++ jobs = []
  sequence : Begins i target → (i.preparation target).sequence = none → s.inFlight ++ jobs = []
  equips : Begins i target → ∀ sequence reservationId,
    (i.preparation target).sequence = some sequence →
      ((s.start target.id).reserveWarrant d (i.preparation target) jobs target sequence).1 =
        .ok reservationId → CleanEquipping i target reservationId

def Escalated (e : Execution) (worker : Worker) (s : LoopState) : Prop :=
  ∃ stronger, worker.escalationWorker = some stronger ∧
    ladderEscalation (retainedReason e) = true ∧
    Escalates d e stronger (s.spend e.cost e.tokens) ∧ e.escalation.revisionRead = .ok () ∧
    e.escalation.worktreeCreated = true ∧ e.escalation.attemptRecorded = true

/-- An attempt whose result is received is closed. -/
structure CleanResult (r : Drained) (worker : Worker) (s : LoopState) : Prop where
  panicked : r.execution = none → worker.reservationId = none ∧ r.panicRecorded = true
  diagnostics : ∀ e, r.execution = some e → e.diagnosticsRecorded = true
  settles : ∀ e, r.execution = some e → ∀ id, worker.reservationId = some id →
    ((settle id (observation d e) (d.sessionId ++ ":" ++ toString worker.sequence)).run
      ⟨s.ledger, e.settleFaults⟩).1.isOk = true
  state : ∀ e, r.execution = some e → e.stateRecorded = true
  outcome : ∀ e, r.execution = some e → e.outcomeRecorded = true
  escalation : ∀ e, r.execution = some e → Escalated d e worker s →
    e.escalation.outcomeRecorded = true

/-- No pass gives up an attempt that it does not close. -/
structure CleanPass (s : LoopState) : Prop where
  selects : s.stops d i.toPassInput = none → ∀ reason,
    (s.observe d i.toPassInput).choose d i.toPassInput = .error (.terminated reason) →
      s.inFlight = []
  prepares : ∀ p ∈ preparing d i s, CleanPreparation d i p.2.1 p.1 p.2.2
  reports : (s.dispatch d i.toPassInput).1 = none →
    (s.dispatch d i.toPassInput).2.activeWorkers ≠ 0 →
      ((s.dispatch d i.toPassInput).2.reported i).isSome = true
  results : (s.dispatch d i.toPassInput).1 = none →
    ∀ n worker r, (s.dispatch d i.toPassInput).2.reported i = some (n, worker, r) →
      CleanResult d r worker ((s.dispatch d i.toPassInput).2.receive n worker)
  heartbeat : (s.dispatch d i.toPassInput).1 = none →
    ∀ n worker r, (s.dispatch d i.toPassInput).2.reported i = some (n, worker, r) →
      i.heartbeatRecorded = true ∨ (s.dispatch d i.toPassInput).2.inFlight.eraseIdx n = []

end LoopState

/-- Every pass of the run closes what it gives up. -/
def DriveSession.Clean (d : DriveSession) : LoopState → List RecordedPass → Prop
  | _, [] => True
  | s, i :: inputs => s.CleanPass d i ∧ d.Clean (s.pass d i.toPassInput).1 inputs

end FamiliarAi
