import FamiliarAi.Agent.RunLoop
import FamiliarAi.Reservation.Ledger

/-!
# The host of the raw agent

A raw agent runs its loop between two reservations and their resolution. The host reserves a budget
for the execution and, for a local model, a share of the hardware; it keeps the handles in two slots.
`finish` resolves both when the loop ended with an outcome and then persists the outcome,
`abandon_execution` releases both when it did not. A guard calls `abandon_execution` on every way out
that `finish` did not see through, a panic included.

What the database, the loop and the hooks of the host answer is up to the environment. Each opening of
the database and each resolution of a reservation names the call that it is part of.
-/

namespace FamiliarAi

open Interaction

/-! ### Operations -/

/-- Which call opens the database or resolves a reservation. -/
inductive HostCall
  | reserveExecutionBudget
  | acquireLocalReservation
  | releaseLocalReservation
  | abandonExecution
  | finish
  /-- `resolve_reservation`, on behalf of `finish`. -/
  | resolveReservation
  deriving DecidableEq

inductive HostOp
  | openDatabase (caller : HostCall)
  | poolIsDefined (poolId : String) (resourceType : ResourceType)
  | definePool (poolId : String) (resourceType : ResourceType) (capacity : ℕ) (renewable : Bool)
  | acquire (owner : ReservationOwnerIdentity) (requests : List ResourceRequest)
  | release (caller : HostCall) (id actor : String)
  | settle (caller : HostCall) (id : String) (observation : SettlementObservation) (actor : String)
  | persistRunOutcome (effectiveModel : String) (outcome : RunOutcome)
  | persistLocalTelemetry (outcome : RunOutcome)
  /-- The journal, the executor, the authorizer and the authority of the host are made. -/
  | hooks
  | buildRuntime
  | runLoop (stable : StablePrefix) (task : String) (config : LoopConfig) (attemptScope : String)

abbrev HostOp.Answer : HostOp → Type
  | openDatabase _ => Except String Unit
  | poolIsDefined .. => Except String Bool
  | definePool .. => Except String Unit
  | acquire .. => Except String AcquireOutcome
  | release .. => Except String Unit
  | settle .. => Except String SettlementResult
  | persistRunOutcome .. => Except String Unit
  | persistLocalTelemetry _ => Except String Unit
  | hooks => Except String Unit
  | buildRuntime => Except String Unit
  | runLoop .. => Except String RunOutcome

abbrev HostProgram := Program HostOp HostOp.Answer Empty

abbrev HostEvent := Event HostOp HostOp.Answer

abbrev HostHistory := History HostOp HostOp.Answer

abbrev HostEnvironment := Environment HostOp HostOp.Answer

namespace HostProgram

def openDatabase (caller : HostCall) : HostProgram (Except String Unit) :=
  Program.perform (HostOp.openDatabase caller)

def poolIsDefined (poolId : String) (resourceType : ResourceType) :
    HostProgram (Except String Bool) :=
  Program.perform (HostOp.poolIsDefined poolId resourceType)

def definePool (poolId : String) (resourceType : ResourceType) (capacity : ℕ) (renewable : Bool) :
    HostProgram (Except String Unit) :=
  Program.perform (HostOp.definePool poolId resourceType capacity renewable)

def acquire (owner : ReservationOwnerIdentity) (requests : List ResourceRequest) :
    HostProgram (Except String AcquireOutcome) :=
  Program.perform (HostOp.acquire owner requests)

def release (caller : HostCall) (id actor : String) : HostProgram (Except String Unit) :=
  Program.perform (HostOp.release caller id actor)

def settle (caller : HostCall) (id : String) (observation : SettlementObservation)
    (actor : String) : HostProgram (Except String SettlementResult) :=
  Program.perform (HostOp.settle caller id observation actor)

def persistRunOutcome (effectiveModel : String) (outcome : RunOutcome) :
    HostProgram (Except String Unit) :=
  Program.perform (HostOp.persistRunOutcome effectiveModel outcome)

def persistLocalTelemetry (outcome : RunOutcome) : HostProgram (Except String Unit) :=
  Program.perform (HostOp.persistLocalTelemetry outcome)

def hooks : HostProgram (Except String Unit) :=
  Program.perform HostOp.hooks

def buildRuntime : HostProgram (Except String Unit) :=
  Program.perform HostOp.buildRuntime

def runLoop (stable : StablePrefix) (task : String) (config : LoopConfig) (attemptScope : String) :
    HostProgram (Except String RunOutcome) :=
  Program.perform (HostOp.runLoop stable task config attemptScope)

end HostProgram

/-- `LocalResourceProfileConfig`, what reservations are made from. -/
structure LocalResourceProfile where
  acceleratorMemoryMb : Option ℕ
  systemMemoryMb : Option ℕ
  concurrentInferenceSlots : Option ℕ
  modelLoadingSlots : Option ℕ
  exclusiveRuntime : Bool

/-- What one execution takes of the hardware. -/
def executionResourceRequests (poolPrefix : String) (profile : LocalResourceProfile) :
    List ResourceRequest :=
  ⟨poolPrefix ++ ":inference-slots", .inferenceSlots, 1⟩ ::
    ((profile.acceleratorMemoryMb.toList.map fun amount ↦
        ⟨poolPrefix ++ ":accelerator-memory", .acceleratorMemory, amount⟩) ++
      (profile.systemMemoryMb.toList.map fun amount ↦
        ⟨poolPrefix ++ ":system-memory", .systemMemory, amount⟩) ++
      if profile.exclusiveRuntime then
        [⟨poolPrefix ++ ":exclusive-runtime", .exclusiveRuntime, 1⟩]
      else [])

def definePoolFor (poolId : String) (resourceType : ResourceType) :
    Option ℕ → HostProgram (Except String Unit)
  | none => return .ok ()
  | some capacity => HostProgram.definePool poolId resourceType capacity false

def definePoolsFromResourceProfile (poolPrefix : String) (profile : LocalResourceProfile) :
    HostProgram (Except String Unit) := do
  match ← definePoolFor (poolPrefix ++ ":inference-slots") .inferenceSlots
      profile.concurrentInferenceSlots with
  | .error detail => return .error detail
  | .ok () =>
    definePoolFor (poolPrefix ++ ":model-loading-slots") .modelLoadingSlots profile.modelLoadingSlots

inductive ReservationResolution
  | commitObserved
  | holdUnknown
  | releaseUnused

def resolutionForStopReason : StopReason → ReservationResolution
  | .completed _ | .iterationCeiling | .tokenOrContextCeiling | .budgetStop | .fatalToolRefusal
  | .invalidStructuredOutput => .commitObserved
  | .cancelled => .releaseUnused
  | .providerFailure .nonRetryable => .releaseUnused
  | .timeout | .providerFailure .retryable | .providerFailure .ambiguous => .holdUnknown

/-! ### The host -/

structure LocalReservation where
  reservationId : String
  requests : List ResourceRequest

/-- The slots of the host, and how many executions have begun to reserve. -/
structure HostSlots where
  reservationId : Option String := none
  localReservation : Option LocalReservation := none
  attemptSequence : ℕ := 0

structure SqliteRawAgentHost where
  executionId : String
  projectId : String
  workerId : String
  stage : String
  runtimeId : String
  modelIdentity : Option String
  localExecution : Option LocalResourceProfile
  /-- A string, and a list of requests, as `Debug` prints them. -/
  debugStr : String → String
  debugRequests : List ResourceRequest → String

/-- What a call of the host gives, with the slots after it. -/
abbrev HostStep := HostProgram (Except String Unit × HostSlots)

namespace SqliteRawAgentHost

variable (host : SqliteRawAgentHost)

def owner (ownerKind ownerInstanceId : String) : ReservationOwnerIdentity where
  ownerInstanceId := ownerInstanceId
  installationId := none
  nonceOrGeneration := ownerInstanceId
  ownerKind := ownerKind
  projectId := host.projectId
  executionId := host.executionId
  componentId := host.stage

def poolPrefix : String :=
  "local:" ++ host.runtimeId ++ ":" ++ host.modelIdentity.getD "unknown-model"

def takeLocal (requests : List ResourceRequest) (slots : HostSlots) :
    Except String AcquireOutcome → Except String Unit × HostSlots
  | .error detail => (.error detail, slots)
  | .ok (.granted id _ _) => (.ok (), { slots with localReservation := some ⟨id, requests⟩ })
  | .ok (.refused unavailable) =>
    (.error ("no local hardware reservation available for execution " ++
      host.debugStr host.executionId ++ ": " ++ host.debugRequests unavailable), slots)

end SqliteRawAgentHost

namespace HostProgram

variable (host : SqliteRawAgentHost)

def acquireLocalReservation (attempt : ℕ) (slots : HostSlots) : HostStep :=
  match host.localExecution with
  | none => return (.ok (), slots)
  | some profile => do
    match ← openDatabase .acquireLocalReservation with
    | .error detail => return (.error detail, slots)
    | .ok () =>
      match ← definePoolsFromResourceProfile host.poolPrefix profile with
      | .error detail => return (.error detail, slots)
      | .ok () =>
        let requests := executionResourceRequests host.poolPrefix profile
        let granted ← acquire (host.owner "local-agent" ("local-agent:" ++ host.executionId ++ ":" ++
          host.stage ++ ":" ++ toString attempt)) requests
        return host.takeLocal requests slots granted

/-- The handle leaves its slot before the database is opened. -/
def releaseLocalReservation (slots : HostSlots) : HostStep :=
  match slots.localReservation with
  | none => return (.ok (), slots)
  | some reservation => do
    let slots := { slots with localReservation := none }
    match ← openDatabase .releaseLocalReservation with
    | .error detail => return (.error detail, slots)
    | .ok () => return (← release .releaseLocalReservation reservation.reservationId
        ("local-agent:" ++ host.executionId), slots)

def budgetFor : Option ℕ → Except String (ℕ × ℕ)
  | none => .ok (2 ^ 63 - 1, 1)
  | some value =>
    if 2 ^ 64 ≤ value * 1000 then .error "cost ceiling exceeds nanoUSD range"
    else .ok (max (value * 1000) 1, max (value * 1000) 1)

def defineBudgetPool (poolId : String) (capacity : ℕ) : HostProgram (Except String Unit) := do
  match ← poolIsDefined poolId .nanousdBudget with
  | .error detail => return .error detail
  | .ok true => return .ok ()
  | .ok false => definePool poolId .nanousdBudget capacity false

/-- The budget is reserved. Without local hardware it is given back. -/
def completeReservation (attempt : ℕ) (id : String) (slots : HostSlots) : HostStep := do
  let (acquired, slots) ← acquireLocalReservation host attempt
    { slots with reservationId := some id }
  match acquired with
  | .ok () => return (.ok (), slots)
  | .error detail =>
    match ← release .reserveExecutionBudget id ("raw-agent:" ++ host.executionId) with
    | .error released => return (.error (detail ++
        "; also failed to release budget reservation: " ++ released), slots)
    | .ok () => return (.error detail, { slots with reservationId := none })

def budgetAnswered (attempt : ℕ) (slots : HostSlots) : Except String AcquireOutcome → HostStep
  | .error detail => return (.error detail, slots)
  | .ok (.refused _) => return (.error ("no budget reservation available for execution " ++
      host.debugStr host.executionId), slots)
  | .ok (.granted id _ _) => completeReservation host attempt id slots

def reserveExecutionBudget (maxCostMicrousd : Option ℕ) (slots : HostSlots) : HostStep :=
  match budgetFor maxCostMicrousd with
  | .error detail => return (.error detail, slots)
  | .ok (capacity, amount) => do
    let attempt := slots.attemptSequence
    let slots := { slots with attemptSequence := attempt + 1 }
    let poolId := "raw-agent-budget:" ++ host.executionId ++ ":" ++ host.stage ++ ":" ++
      toString attempt
    match ← openDatabase .reserveExecutionBudget with
    | .error detail => return (.error detail, slots)
    | .ok () =>
      match ← defineBudgetPool poolId capacity with
      | .error detail => return (.error detail, slots)
      | .ok () =>
        let granted ← acquire (host.owner "raw-agent" ("raw-agent:" ++ host.executionId ++ ":" ++
          host.stage ++ ":" ++ toString attempt)) [⟨poolId, .nanousdBudget, amount⟩]
        budgetAnswered host attempt slots granted

def releaseBudget (id : Option String) (slots : HostSlots) : HostStep :=
  match id with
  | none => return (.ok (), slots)
  | some id => do
    match ← openDatabase .abandonExecution with
    | .error detail => return (.error detail, slots)
    | .ok () => return (← release .abandonExecution id ("raw-agent:" ++ host.executionId), slots)

/-- Both handles leave their slots. -/
def abandonExecution (slots : HostSlots) : HostStep := do
  let (released, slots') ← releaseLocalReservation host { slots with reservationId := none }
  match released with
  | .error detail => return (.error detail, slots')
  | .ok () => releaseBudget host slots.reservationId slots'

def resolveBudget (id : String) (outcome : RunOutcome) : HostProgram (Except String Unit) :=
  let actor := "raw-agent:" ++ host.executionId
  match outcome.stopReason with
  | .cancelled => release .finish id actor
  | .timeout | .providerFailure _ => do
    return (← settle .finish id (.unknown .holdReservation) actor).map fun _ ↦ ()
  | .completed _ | .iterationCeiling | .tokenOrContextCeiling | .budgetStop | .fatalToolRefusal
  | .invalidStructuredOutput => do
    return (← settle .finish id (.unknown .settleReservedAmount) actor).map fun _ ↦ ()

def resolveReservation (reservation : LocalReservation) (outcome : RunOutcome) :
    HostProgram (Except String Unit) :=
  let actor := "local-agent:" ++ host.executionId
  match resolutionForStopReason outcome.stopReason with
  | .commitObserved => do
    return (← settle .resolveReservation reservation.reservationId (.known reservation.requests)
      actor).map fun _ ↦ ()
  | .holdUnknown => do
    return (← settle .resolveReservation reservation.reservationId (.unknown .holdReservation)
      actor).map fun _ ↦ ()
  | .releaseUnused => release .resolveReservation reservation.reservationId actor

def persist (outcome : RunOutcome) (effectiveModel : String) : HostProgram (Except String Unit) := do
  match ← persistRunOutcome effectiveModel outcome with
  | .error detail => return .error detail
  | .ok () =>
    if host.localExecution.isSome then persistLocalTelemetry outcome
    else return .ok ()

/-- The budget is resolved, and its slot cleared. The local reservation is taken out of its slot and
resolved. -/
def finishLocal (outcome : RunOutcome) (effectiveModel : String) (slots : HostSlots) : HostStep := do
  match slots.localReservation with
  | none => return (← persist host outcome effectiveModel, slots)
  | some reservation =>
    let slots := { slots with localReservation := none }
    match ← resolveReservation host reservation outcome with
    | .error detail => return (.error detail, slots)
    | .ok () => return (← persist host outcome effectiveModel, slots)

def finish (outcome : RunOutcome) (effectiveModel : String) (slots : HostSlots) : HostStep := do
  match ← openDatabase .finish with
  | .error detail => return (.error detail, slots)
  | .ok () =>
    match slots.reservationId with
    | none => finishLocal host outcome effectiveModel slots
    | some id =>
      match ← resolveBudget host id outcome with
      | .error detail => return (.error detail, slots)
      | .ok () => finishLocal host outcome effectiveModel { slots with reservationId := none }

end HostProgram

end FamiliarAi
