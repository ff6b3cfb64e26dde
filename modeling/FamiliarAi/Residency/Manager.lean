import FamiliarAi.Interaction.Basic
import FamiliarAi.Reservation.Ledger
import Mathlib.Data.List.AList

/-!
# The manager of resident models

The daemon holds configured models loaded between executions. A model that is asked for and not held
is loaded, for which the least recently used residents are evicted until it fits the ceilings. A
tick of the health check restarts residents that no longer answer, up to a number of times, and then
fails them. Each transition is recorded.

Launching, probing and stopping a server, the registry of artifacts and the table of events are the
environment of the manager. Launches and records name the call that they are part of.
-/

namespace FamiliarAi

open Interaction

structure ResidentModelConfig where
  enabled : Bool
  worker : String
  launch : List String
  memoryMb : Option ℕ
  readyTimeoutSecs : ℕ

structure ModelResidencyConfig where
  enabled : Bool
  maxResidents : ℕ
  memoryCeilingMb : Option ℕ
  maxRestarts : ℕ
  residents : String → Option ResidentModelConfig

/-- The global switch and the one of the resident are both on. -/
def ModelResidencyConfig.isActive (config : ModelResidencyConfig) (key : String) : Bool :=
  config.enabled && (config.residents key).any (·.enabled)

inductive LocalRuntimeKind
  | ollama
  | unsloth

/-- What the manager reads of a worker. -/
structure ResidencyWorker where
  localProfile : Option (LocalRuntimeKind × String)
  modelArtifact : Option String

abbrev WorkerRegistry := String → Option ResidencyWorker

structure ResidentLaunchSpec where
  residentKey : String
  workerIdentity : String
  modelArtifactId : String
  runtimeId : String
  baseUrl : String
  launch : List String
  memoryMb : Option ℕ
  readyTimeoutSecs : ℕ

/-- A launched server, written `key#number`. The number is used once. -/
structure ServerIdentity where
  residentKey : String
  number : ℕ
  deriving DecidableEq

inductive ResidencyCeiling
  | count
  | memory

def ResidencyCeiling.asStr : ResidencyCeiling → String
  | count => "count-ceiling"
  | memory => "memory-ceiling"

def launchSpec (residentKey : String) (resident : ResidentModelConfig)
    (registry : Option WorkerRegistry) : Except String ResidentLaunchSpec :=
  match (registry.bind fun workers ↦ workers resident.worker) with
  | none => .error ("worker-not-configured:" ++ resident.worker)
  | some worker =>
    match worker.localProfile with
    | none => .error ("worker-not-configured:" ++ resident.worker)
    | some (kind, baseUrl) =>
      match worker.modelArtifact.filter (¬isBlank ·) with
      | none => .error ("artifact-not-registered:" ++ resident.worker)
      | some artifact => .ok
          { residentKey := residentKey
            workerIdentity := resident.worker
            modelArtifactId := artifact
            runtimeId := match kind with
              | .ollama => "ollama"
              | .unsloth => "unsloth"
            baseUrl := baseUrl
            launch := resident.launch
            memoryMb := resident.memoryMb
            readyTimeoutSecs := resident.readyTimeoutSecs }

inductive ResidencyEvent
  | loaded
  | stopped
  | evicted
  | restarted
  | failed
  | healthFailed
  deriving DecidableEq

/-- A row of `model_residency_events`. -/
structure ResidencyEventRow where
  spec : ResidentLaunchSpec
  serverIdentity : ServerIdentity
  event : ResidencyEvent
  reason : Option String
  restartAttempt : Option ℕ

/-- A call of the manager. -/
inductive ResidencyCall
  | ensureResident (registry : Option WorkerRegistry) (key : String)
  | stop (key reason : String)
  | stopAll (reason : String)
  | reconcile
  | healthTick
  | clearFailure (key : String)
  | setConfig (config : ModelResidencyConfig)

/-- Which call launches or records. -/
inductive ResidencyCaller
  | ensureResident
  /-- `evict` and `stop`. -/
  | dismiss
  | healthTick
  /-- With the number of the attempt and the highest that is allowed. -/
  | restartOrFail (attempt maxRestarts : ℕ)

inductive ResidencyOp
  | artifactKnown (artifactId : String)
  | launch (caller : ResidencyCaller) (spec : ResidentLaunchSpec) (server : ServerIdentity)
  /-- How many failing probes the time until a server must answer leaves room for. -/
  | probesUntilDeadline (timeoutSecs : ℕ)
  | probe (server : ServerIdentity) (baseUrl : String)
  | stop (server : ServerIdentity)
  | record (caller : ResidencyCaller) (row : ResidencyEventRow)
  | called (call : ResidencyCall)

abbrev ResidencyOp.Answer : ResidencyOp → Type
  | artifactKnown _ => Except String Bool
  | launch .. => Except String Unit
  | probesUntilDeadline _ => ℕ
  | probe .. => Except String Unit
  | stop _ => Except String Unit
  | record .. => Except String Unit
  | called _ => Unit

abbrev ResidencyProgram := Program ResidencyOp ResidencyOp.Answer Empty

abbrev ResidencyHistory := History ResidencyOp ResidencyOp.Answer

abbrev ResidencyEnvironment := Environment ResidencyOp ResidencyOp.Answer

/-! ### The manager -/

structure Resident where
  spec : ResidentLaunchSpec
  serverIdentity : ServerIdentity
  /-- A counter of uses, not a time. -/
  lastUsed : ℕ

structure ResidencyManager where
  config : ModelResidencyConfig
  residents : AList fun _ : String ↦ Resident := ∅
  /-- Why a model is not launched any more. -/
  failed : String → Option String := fun _ ↦ none
  /-- The failures of a model since it was loaded. -/
  failureAttempts : String → ℕ := fun _ ↦ 0
  uses : ℕ := 0
  identityCounter : ℕ := 0

/-- Where an execution is routed. -/
inductive ResidencyOutcome
  | warm (server : ServerIdentity) (baseUrl : String)
  | cold (server : ServerIdentity) (baseUrl : String)
  | notResident (reason : String)

namespace ResidencyManager

variable (M : ResidencyManager)

def entriesInOrder : List (Sigma fun _ : String ↦ Resident) :=
  M.residents.entries.insertionSort fun a b ↦ a.1 ≤ b.1

def residentKeys : List String :=
  M.entriesInOrder.map (·.1)

/-- What the residents declare to hold. -/
def heldMb : ℕ :=
  (M.residents.entries.map fun entry ↦ entry.2.spec.memoryMb.getD 0).sum

def breachedCeiling (candidate : ResidentLaunchSpec) : Except String (Option ResidencyCeiling) :=
  if M.config.maxResidents < M.residents.entries.length + 1 then .ok (some .count)
  else
    match M.config.memoryCeilingMb with
    | none => .ok none
    | some ceiling =>
      if 2 ^ 64 ≤ M.heldMb + candidate.memoryMb.getD 0 then .error "attempt to add with overflow"
      else if ceiling < M.heldMb + candidate.memoryMb.getD 0 then .ok (some .memory)
      else .ok none

def leastRecentlyUsed : Option String :=
  (M.entriesInOrder.argmin (·.2.lastUsed)).map (·.1)

/-- The residents that the configuration no longer enables. -/
def stale : List String :=
  M.residentKeys.filter fun key ↦ !M.config.isActive key

def remove (key : String) : ResidencyManager :=
  { M with residents := M.residents.erase key }

def insertResident (key : String) (spec : ResidentLaunchSpec) (server : ServerIdentity) :
    ResidencyManager :=
  { M with
    uses := M.uses + 1
    residents := M.residents.insert key ⟨spec, server, M.uses + 1⟩ }

def setAttempts (key : String) (attempts : ℕ) : ResidencyManager :=
  { M with failureAttempts := Function.update M.failureAttempts key attempts }

def fail (key reason : String) : ResidencyManager :=
  { M with failed := Function.update M.failed key (some reason) }

def nextServerIdentity (key : String) : ServerIdentity × ResidencyManager :=
  (⟨key, M.identityCounter + 1⟩, { M with identityCounter := M.identityCounter + 1 })

/-- The operator lets the next call try again. -/
def clearFailure (key : String) : ResidencyManager :=
  { M.setAttempts key 0 with failed := Function.update M.failed key none }

end ResidencyManager

/-- What a call of the manager gives, with the manager after it. -/
abbrev ResidencyStep (α : Type) := Except String α × ResidencyManager

namespace ResidencyProgram

def artifactKnown (artifactId : String) : ResidencyProgram (Except String Bool) :=
  Program.perform (ResidencyOp.artifactKnown artifactId)

def launch (caller : ResidencyCaller) (spec : ResidentLaunchSpec) (server : ServerIdentity) :
    ResidencyProgram (Except String Unit) :=
  Program.perform (ResidencyOp.launch caller spec server)

def probesUntilDeadline (timeoutSecs : ℕ) : ResidencyProgram ℕ :=
  Program.perform (ResidencyOp.probesUntilDeadline timeoutSecs)

def probe (server : ServerIdentity) (baseUrl : String) : ResidencyProgram (Except String Unit) :=
  Program.perform (ResidencyOp.probe server baseUrl)

def stopServer (server : ServerIdentity) : ResidencyProgram (Except String Unit) :=
  Program.perform (ResidencyOp.stop server)

def record (caller : ResidencyCaller) (row : ResidencyEventRow) :
    ResidencyProgram (Except String Unit) :=
  Program.perform (ResidencyOp.record caller row)

/-- Probe until the server answers or the deadline has passed. Then it is stopped. -/
def awaitReady (server : ServerIdentity) (baseUrl : String) :
    ℕ → ResidencyProgram (Except String Unit)
  | 0 => do
    match ← probe server baseUrl with
    | .ok () => return .ok ()
    | .error error =>
      let _ ← stopServer server
      return .error ("ready-timeout:" ++ error)
  | left + 1 => do
    match ← probe server baseUrl with
    | .ok () => return .ok ()
    | .error _ => awaitReady server baseUrl left

/-- Launch a server and wait until it answers. The load is recorded only then. -/
def start (caller : ResidencyCaller) (spec : ResidentLaunchSpec) (server : ServerIdentity) :
    ResidencyProgram (Except String Unit) := do
  match ← launch caller spec server with
  | .error error => return .error ("launch-failed:" ++ error)
  | .ok () =>
    match ← awaitReady server spec.baseUrl (← probesUntilDeadline spec.readyTimeoutSecs) with
    | .error reason => return .error reason
    | .ok () => record caller ⟨spec, server, .loaded, none, none⟩

/-- `evict` and `stop`: the resident is removed, its server stopped and the event recorded. -/
def dismiss (key : String) (event : ResidencyEvent) (reason : String) (M : ResidencyManager) :
    ResidencyProgram (ResidencyStep Bool) :=
  match M.residents.lookup key with
  | none => return (.ok false, M)
  | some resident => do
    let _ ← stopServer resident.serverIdentity
    match ← record .dismiss ⟨resident.spec, resident.serverIdentity, event, some reason, none⟩ with
    | .error error => return (.error error, M.remove key)
    | .ok () => return (.ok true, M.remove key)

def makeRoom (candidate : ResidentLaunchSpec) :
    ℕ → ResidencyManager → ResidencyProgram (ResidencyStep (Option String))
  | rounds, M =>
    match M.breachedCeiling candidate with
    | .error error => return (.error error, M)
    | .ok none => return (.ok none, M)
    | .ok (some ceiling) =>
      match rounds, M.leastRecentlyUsed with
      | rounds + 1, some victim => do
        match ← dismiss victim .evicted ceiling.asStr M with
        | (.error error, M) => return (.error error, M)
        | (.ok _, M) => makeRoom candidate rounds M
      | _, _ =>
        return (.ok (some ("resident-exceeds-memory-ceiling:" ++ ceiling.asStr)), M)

def makeRoomFor (candidate : ResidentLaunchSpec) (M : ResidencyManager) :
    ResidencyProgram (ResidencyStep (Option String)) :=
  match M.config.memoryCeilingMb, candidate.memoryMb with
  | some ceiling, some memory =>
    if ceiling < memory then
      return (.ok (some ("resident-exceeds-memory-ceiling:" ++ toString memory ++ "mb>" ++
        toString ceiling ++ "mb")), M)
    else makeRoom candidate M.residents.entries.length M
  | _, _ => makeRoom candidate M.residents.entries.length M

/-- The terminal failure of a model is recorded before the manager knows of it. -/
def recordFailed (caller : ResidencyCaller) (key : String) (spec : ResidentLaunchSpec)
    (server : ServerIdentity) (reason : String) (M : ResidencyManager) :
    ResidencyProgram (ResidencyStep Unit) := do
  match ← record caller ⟨spec, server, .failed, some "health-restart-exhausted", none⟩ with
  | .error error => return (.error error, M)
  | .ok () => return (.ok (), M.fail key reason)

def loadFailed (key : String) (spec : ResidentLaunchSpec) (server : ServerIdentity)
    (reason : String) (M : ResidencyManager) :
    ResidencyProgram (ResidencyStep ResidencyOutcome) := do
  let attempts := M.failureAttempts key + 1
  let M := M.setAttempts key attempts
  match ← record .ensureResident ⟨spec, server, .healthFailed, some reason, none⟩ with
  | .error error => return (.error error, M)
  | .ok () =>
    if M.config.maxRestarts < attempts then
      match ← recordFailed .ensureResident key spec server ("health-restart-exhausted:" ++ reason)
        M with
      | (.error error, M) => return (.error error, M)
      | (.ok (), M) => return (.ok (.notResident reason), M)
    else return (.ok (.notResident reason), M)

/-- Load a model for which there is room. -/
def load (key : String) (spec : ResidentLaunchSpec) (M : ResidencyManager) :
    ResidencyProgram (ResidencyStep ResidencyOutcome) := do
  let (server, M) := M.nextServerIdentity key
  match ← start .ensureResident spec server with
  | .ok () => return (.ok (.cold server spec.baseUrl),
      (M.setAttempts key 0).insertResident key spec server)
  | .error reason => loadFailed key spec server reason M

def loadResident (key : String) (spec : ResidentLaunchSpec) (M : ResidencyManager) :
    ResidencyProgram (ResidencyStep ResidencyOutcome) := do
  match ← artifactKnown spec.modelArtifactId with
  | .error error => return (.error error, M)
  | .ok false =>
    return (.ok (.notResident ("artifact-not-registered:" ++ spec.modelArtifactId)), M)
  | .ok true =>
    match ← makeRoomFor spec M with
    | (.error error, M) => return (.error error, M)
    | (.ok (some reason), M) => return (.ok (.notResident reason), M)
    | (.ok none, M) => load key spec M

def touch (key : String) (resident : Resident) (M : ResidencyManager) : ResidencyManager :=
  { M with
    uses := M.uses + 1
    residents := M.residents.insert key { resident with lastUsed := M.uses + 1 } }

def ensureResident (registry : Option WorkerRegistry) (key : String) (M : ResidencyManager) :
    ResidencyProgram (ResidencyStep ResidencyOutcome) :=
  if !M.config.enabled then return (.ok (.notResident "residency-disabled"), M)
  else
    match M.config.residents key with
    | none => return (.ok (.notResident ("resident-not-configured:" ++ key)), M)
    | some entry =>
      if !entry.enabled then return (.ok (.notResident "residency-disabled"), M)
      else
        match M.failed key, M.residents.lookup key with
        | some reason, _ => return (.ok (.notResident reason), M)
        | none, some resident =>
          return (.ok (.warm resident.serverIdentity resident.spec.baseUrl), touch key resident M)
        | none, none =>
          match launchSpec key entry registry with
          | .error reason => return (.ok (.notResident reason), M)
          | .ok spec => loadResident key spec M

def stop (key reason : String) (M : ResidencyManager) : ResidencyProgram (ResidencyStep Bool) :=
  dismiss key .stopped reason M

/-- Stop these, one after the other, until one cannot be recorded. -/
def stopEach (reason : String) :
    List String → ResidencyManager → ResidencyProgram (ResidencyStep Unit)
  | [], M => return (.ok (), M)
  | key :: keys, M => do
    match ← stop key reason M with
    | (.error error, M) => return (.error error, M)
    | (.ok _, M) => stopEach reason keys M

def stopAll (reason : String) (M : ResidencyManager) : ResidencyProgram (ResidencyStep Unit) :=
  stopEach reason M.residentKeys M

def reconcile (M : ResidencyManager) : ResidencyProgram (ResidencyStep Unit) :=
  stopEach "disabled-by-configuration" M.stale M

def restartFailed (key : String) (spec : ResidentLaunchSpec) (replacement : ServerIdentity)
    (attempt : ℕ) (reason : String) (M : ResidencyManager) :
    ResidencyProgram (ResidencyStep Unit) := do
  let caller := .restartOrFail attempt M.config.maxRestarts
  match ← record caller ⟨spec, replacement, .healthFailed, some reason, none⟩ with
  | .error error => return (.error error, M)
  | .ok () =>
    if M.config.maxRestarts ≤ attempt then
      recordFailed caller key spec replacement ("health-restart-exhausted:" ++ key) (M.remove key)
    else return (.ok (), M)

def restartOrFail (key : String) (spec : ResidentLaunchSpec) (server : ServerIdentity)
    (M : ResidencyManager) : ResidencyProgram (ResidencyStep Unit) := do
  let attempts := M.failureAttempts key
  let caller := .restartOrFail (attempts + 1) M.config.maxRestarts
  let _ ← stopServer server
  if M.config.maxRestarts ≤ attempts then
    recordFailed caller key spec server ("health-restart-exhausted:" ++ key) (M.remove key)
  else
    let (replacement, M) := (M.setAttempts key (attempts + 1)).nextServerIdentity key
    match ← start caller spec replacement with
    | .ok () =>
      let restarted ← record caller
        ⟨spec, replacement, .restarted, some "health-probe-failed", some (attempts + 1)⟩
      return (restarted, M.insertResident key spec replacement)
    | .error error =>
      restartFailed key spec replacement (attempts + 1) ("restart-launch-failed:" ++ error) M

def checkHealth (key : String) (M : ResidencyManager) : ResidencyProgram (ResidencyStep Unit) :=
  match M.residents.lookup key with
  | none => return (.ok (), M)
  | some resident => do
    match ← probe resident.serverIdentity resident.spec.baseUrl with
    | .ok () => return (.ok (), M)
    | .error error =>
      match ← record .healthTick ⟨resident.spec, resident.serverIdentity, .healthFailed,
          some ("health-probe-failed:" ++ error), none⟩ with
      | .error error => return (.error error, M)
      | .ok () => restartOrFail key resident.spec resident.serverIdentity M

def checkEach : List String → ResidencyManager → ResidencyProgram (ResidencyStep Unit)
  | [], M => return (.ok (), M)
  | key :: keys, M => do
    match ← checkHealth key M with
    | (.error error, M) => return (.error error, M)
    | (.ok (), M) => checkEach keys M

def healthTick (M : ResidencyManager) : ResidencyProgram (ResidencyStep Unit) := do
  match ← reconcile M with
  | (.error error, M) => return (.error error, M)
  | (.ok (), M) => checkEach M.residentKeys M

end ResidencyProgram

namespace ResidencyCall

def perform (call : ResidencyCall) (M : ResidencyManager) :
    ResidencyProgram (Option ResidencyOutcome × ResidencyManager) := do
  match call with
  | ensureResident registry key =>
    match ← ResidencyProgram.ensureResident registry key M with
    | (.ok outcome, M) => return (some outcome, M)
    | (.error _, M) => return (none, M)
  | stop key reason => return (none, (← ResidencyProgram.stop key reason M).2)
  | stopAll reason => return (none, (← ResidencyProgram.stopAll reason M).2)
  | reconcile => return (none, (← ResidencyProgram.reconcile M).2)
  | healthTick => return (none, (← ResidencyProgram.healthTick M).2)
  | clearFailure key => return (none, M.clearFailure key)
  | setConfig config => return (none, { M with config := config })

end ResidencyCall

def residencyRun (config : ModelResidencyConfig) (calls : List ResidencyCall) :
    ResidencyProgram (Option ResidencyOutcome × ResidencyManager) :=
  calls.foldlM (fun step call ↦ do
    Program.perform (ResidencyOp.called call)
    call.perform step.2) (none, { config := config })

end FamiliarAi
