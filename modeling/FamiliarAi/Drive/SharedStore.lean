import FamiliarAi.Drive.WorkerLock
import FamiliarAi.Storage.Integration

/-!
# Sessions that share a store

Any number of processes, on any number of hosts, that take a worker lock and drive a session in one
store. A process that starts to drive takes its lock, closes every attempt and every session that is
open in the store, whosever it is, and opens its own. Processes crash at any point, and then leave their
lock files and their rows behind.

The steps of all processes interleave: a step is a look at the lock files, a lock that is taken or
released, one statement of the recovery, or one call of the session store.
-/

namespace FamiliarAi

open Relational

namespace DriverRepository

/-- The first statement of `recover_incomplete`. -/
def recoverAttempts : SessionQuery ℕ :=
  onAttempts fun attempts ↦
    attempts.modify (·.ended = false) fun row ↦
      { row with
        ended := true
        outcome := row.outcome.or (some .retained)
        retainedReason := row.retainedReason.or (some "interrupted") }

/-- The second statement of `recover_incomplete`. -/
def recoverSessions : SessionQuery ℕ :=
  onSessions fun sessions ↦
    sessions.modify (·.ended = false) fun row ↦
      { row with ended := true, terminationReason := row.terminationReason.or (some "interrupted") }

end DriverRepository

/-- How far a process that holds its lock has come. -/
inductive DrivePhase
  /-- Nothing is recovered yet. Where the command is not `drive`, it stays so. -/
  | locked
  | recovering
  /-- The sessions are recovered as well. -/
  | recovered
  | driving (session : String) (running : List ℕ)
  /-- The session is finished, or the command has failed. -/
  | finished
  deriving DecidableEq

/-- How far a process has come. -/
inductive DriveStage
  | started
  | looked (plan : LockPlan)
  | holding (lock : WorkerLock) (phase : DrivePhase)
  deriving DecidableEq

namespace DriveStage

/-- The lock that a process is about to take. -/
def plan? : DriveStage → Option LockPlan
  | looked plan => some plan
  | started | holding _ _ => none

def lock? : DriveStage → Option WorkerLock
  | holding lock _ => some lock
  | started | looked _ => none

def session? : DriveStage → Option (String × List ℕ)
  | holding _ (.driving session running) => some (session, running)
  | _ => none

end DriveStage

/-- A process that is alive. -/
structure Driver where
  process : Process
  /-- The PID in its `FAMILIAR_AI_DELEGATED_BY`. -/
  delegatedBy : Option ℕ
  runtimeDir : String
  stage : DriveStage
  deriving DecidableEq

/-- The two processes work with the same lock files. -/
def Driver.SharesDir (m m' : Driver) : Prop :=
  m.process.host = m'.process.host ∧ m.runtimeDir = m'.runtimeDir

instance (m m' : Driver) : Decidable (m.SharesDir m') :=
  inferInstanceAs (Decidable (_ ∧ _))

/-- The store, the processes that are alive, and the lock files of every runtime directory of every
host. -/
structure SharedStore where
  db : Database
  drivers : List Driver
  runtimeDirs : String → String → RuntimeDir

namespace SharedStore

/-- The live process with the given identity. -/
def driver (w : SharedStore) (p : Process) : Option Driver :=
  w.drivers.find? (·.process = p)

/-- The processes that the probes see. -/
def processes (w : SharedStore) : List Process :=
  w.drivers.map (·.process)

/-- The lock files that a process works with. -/
def dir (w : SharedStore) (m : Driver) : RuntimeDir :=
  w.runtimeDirs m.process.host m.runtimeDir

def remove (w : SharedStore) (p : Process) : SharedStore :=
  { w with drivers := w.drivers.filter (·.process ≠ p) }

/-- A process has come further. -/
def advance (w : SharedStore) (m : Driver) (stage : DriveStage) : SharedStore :=
  { w with drivers := { m with stage } :: w.drivers.filter (·.process ≠ m.process) }

/-- Write the lock files that a process works with. -/
def setDir (w : SharedStore) (m : Driver) (files : RuntimeDir) : SharedStore :=
  { w with runtimeDirs := fun host runtimeDir ↦
      if host = m.process.host ∧ runtimeDir = m.runtimeDir then files
      else w.runtimeDirs host runtimeDir }

/-- Run a query of a process that holds its lock; what it answers says how far the process has come. -/
def execute {α : Type} (w : SharedStore) (m : Driver) (lock : WorkerLock) (query : SessionQuery α)
    (faults : List (Option FamiliarError)) (next : Except FamiliarError α → DrivePhase) :
    SharedStore :=
  let (outcome, c) := query.run ⟨w.db, faults⟩
  { w with db := c.store }.advance m (.holding lock (next outcome))

end SharedStore

/-! ### Steps -/

/-- The call is one of the driver of the given session, while it drives. -/
def SessionCall.ofSession (session : String) : SessionCall → Bool
  | .heartbeat s _ | .recordAttemptStarted s _ _ | .initializeIntegration s _
  | .advanceIntegration s _ _ _ | .reserveMigration _ s _ _ | .resolveMigration s _ _ =>
    decide (s = session)
  | .recordAttemptFinished key _ _ => decide (key.sessionId = session)
  | .openSession _ _ | .finishSession _ _ | .recoverIncomplete => false

def SessionCall.running (running : List ℕ) (answer : Except FamiliarError SessionAnswer) :
    SessionCall → List ℕ
  | .recordAttemptStarted _ _ _ =>
    match answer with
    | .ok (.count sequence) => sequence :: running
    | _ => running
  | .recordAttemptFinished key _ _ => running.filter (· ≠ key.sequence)
  | _ => running

inductive DriverStep
  | spawn (process : Process) (delegatedBy : Option ℕ) (runtimeDir : String)
  | look (process : Process)
  /-- The lock is taken, with the nonce of a new owner. -/
  | take (process : Process) (nonce : String)
  | recoverAttempts (process : Process) (faults : List (Option FamiliarError))
  | recoverSessions (process : Process) (faults : List (Option FamiliarError))
  | openSession (process : Process) (session repository : String)
    (faults : List (Option FamiliarError))
  | call (process : Process) (call : SessionCall) (faults : List (Option FamiliarError))
  | finishSession (process : Process) (reason : String) (faults : List (Option FamiliarError))
  /-- The command returns, and releases its lock. -/
  | leave (process : Process)
  | crash (process : Process)

namespace SharedStore

def move (w : SharedStore) (m : Driver) : DriverStep → SharedStore
  | .look _ =>
    match m.stage with
    | .started =>
      match lookAtLocks w.processes m.process.host m.delegatedBy (w.dir m) with
      | .ok plan => w.advance m (.looked plan)
      | .error _ => w.remove m.process
    | _ => w
  | .take _ nonce =>
    match m.stage with
    | .looked plan =>
      match plan.take nonce m.process (w.dir m) with
      | .ok (files, lock) => (w.setDir m files).advance m (.holding lock .locked)
      | .error _ => w.remove m.process
    | _ => w
  | .recoverAttempts _ faults =>
    match m.stage with
    | .holding lock .locked =>
      w.execute m lock DriverRepository.recoverAttempts faults fun
        | .ok _ => .recovering
        | .error _ => .finished
    | _ => w
  | .recoverSessions _ faults =>
    match m.stage with
    | .holding lock .recovering =>
      w.execute m lock DriverRepository.recoverSessions faults fun
        | .ok _ => .recovered
        | .error _ => .finished
    | _ => w
  | .openSession _ session repository faults =>
    match m.stage with
    | .holding lock .recovered =>
      w.execute m lock (DriverRepository.openSession session repository) faults fun
        | .ok _ => .driving session []
        | .error _ => .finished
    | _ => w
  | .call _ call faults =>
    match m.stage with
    | .holding lock (.driving session running) =>
      if call.ofSession session then
        w.execute m lock call.query faults fun answer ↦ .driving session (call.running running answer)
      else w
    | _ => w
  | .finishSession _ reason faults =>
    match m.stage with
    | .holding lock (.driving session _) =>
      w.execute m lock (DriverRepository.finishSession session reason) faults fun _ ↦ .finished
    | _ => w
  | .leave _ =>
    match m.stage with
    | .holding lock _ => (w.setDir m (lock.release (w.dir m))).remove m.process
    | _ => w.remove m.process
  | .crash _ => w.remove m.process
  | .spawn _ _ _ => w

end SharedStore

def DriverStep.process : DriverStep → Process
  | spawn p _ _ | look p | take p _ | recoverAttempts p _ | recoverSessions p _
  | openSession p _ _ _ | call p _ _ | finishSession p _ _ | leave p | crash p => p

namespace SharedStore

/-- A process is started under a PID that no live process of its host has. -/
def spawn (w : SharedStore) (p : Process) (delegatedBy : Option ℕ) (runtimeDir : String) :
    SharedStore :=
  if (0 < p.pid ∧ p.pid ≤ maxPid) ∧
      ∀ m ∈ w.drivers, ¬(m.process.host = p.host ∧ m.process.pid = p.pid) then
    { w with drivers := ⟨p, delegatedBy, runtimeDir, .started⟩ :: w.drivers }
  else w

/-- One step. What a process does that is not alive, or has not come so far, is nothing. -/
def step (w : SharedStore) (step : DriverStep) : SharedStore :=
  match step with
  | .spawn p delegatedBy runtimeDir => w.spawn p delegatedBy runtimeDir
  | step =>
    match w.driver step.process with
    | some m => w.move m step
    | none => w

def run (w : SharedStore) (steps : List DriverStep) : SharedStore :=
  steps.foldl step w

end SharedStore

end FamiliarAi
