import Mathlib.Data.Nat.Notation

/-!
# Reservation vocabulary of the core crate

The error type of the workspace and the types in which capacity is requested: resource types with
their durable spelling, requests, owner identities and liveness evidence. A resource type is stored
as text and parsed back when a row is read; a `custom` type spelled like a built-in one is therefore
read back as the built-in one, and only the spelling survives the round trip.
-/

namespace FamiliarAi

/-- The error type of the workspace, as far as the modelled operations raise it. -/
inductive FamiliarError
  /-- A refused input or configuration. -/
  | config (message : String)
  /-- A failure of the durable store. -/
  | database (message : String)
  deriving DecidableEq

def FamiliarError.display : FamiliarError → String
  | config message => "configuration error: " ++ message
  | database message => "database error: " ++ message

/-- A finite capacity denomination. -/
inductive ResourceType
  | nanousdBudget
  | uncachedTokens
  | totalTokens
  | acceleratorMemory
  | systemMemory
  | inferenceSlots
  | modelLoadingSlots
  | exclusiveRuntime
  | custom (value : String)
  deriving DecidableEq

namespace ResourceType

/-- The durable spelling. -/
def asStr : ResourceType → String
  | nanousdBudget => "nanousd-budget"
  | uncachedTokens => "uncached-tokens"
  | totalTokens => "total-tokens"
  | acceleratorMemory => "accelerator-memory"
  | systemMemory => "system-memory"
  | inferenceSlots => "inference-slots"
  | modelLoadingSlots => "model-loading-slots"
  | exclusiveRuntime => "exclusive-runtime"
  | custom value => value

/-- Read a durable spelling back; what is not built in is `custom`. -/
def parse (value : String) : ResourceType :=
  match value with
  | "nanousd-budget" => nanousdBudget
  | "uncached-tokens" => uncachedTokens
  | "total-tokens" => totalTokens
  | "accelerator-memory" => acceleratorMemory
  | "system-memory" => systemMemory
  | "inference-slots" => inferenceSlots
  | "model-loading-slots" => modelLoadingSlots
  | "exclusive-runtime" => exclusiveRuntime
  | other => custom other

/-- The spelling survives being read back, also where the type does not. -/
@[simp] theorem asStr_parse (value : String) : (parse value).asStr = value := by
  unfold parse
  split <;> rfl

example : parse (custom "inference-slots").asStr = inferenceSlots := rfl

end ResourceType

/-- Who owns a reservation, and on whose behalf. -/
structure ReservationOwnerIdentity where
  /-- The exact owner instance; no two reservations share one. -/
  ownerInstanceId : String
  installationId : Option String
  nonceOrGeneration : String
  ownerKind : String
  projectId : String
  executionId : String
  componentId : String
  deriving DecidableEq

/-- Every field but the installation must be filled in. -/
def ReservationOwnerIdentity.validate (o : ReservationOwnerIdentity) : Except FamiliarError Unit :=
  if o.ownerInstanceId.isEmpty || o.nonceOrGeneration.isEmpty || o.ownerKind.isEmpty ||
      o.projectId.isEmpty || o.executionId.isEmpty || o.componentId.isEmpty then
    .error (.config "reservation owner identity and attribution must be non-empty")
  else
    .ok ()

structure ResourceRequest where
  poolId : String
  resourceType : ResourceType
  amount : ℕ
  deriving DecidableEq

/-- Whether a request may be cut down to what is available. -/
inductive GrantMode
  | allOrNothing
  | partialGrant
  deriving DecidableEq

/-- What to do with a reservation whose consumption was not observed. -/
inductive UnknownConsumptionPolicy
  | holdReservation
  | settleReservedAmount
  deriving DecidableEq

/-- What was observed about the owner of a reservation. -/
inductive OwnerLiveness
  | live
  | provablyDead
  | ambiguous
  deriving DecidableEq

/-- The spelling of an observation in the evidence table and in events. -/
def OwnerLiveness.asStr : OwnerLiveness → String
  | live => "live"
  | provablyDead => "provably-dead"
  | ambiguous => "ambiguous"

/-- An observation about one exact owner instance. -/
structure OwnerLivenessEvidence where
  ownerInstanceId : String
  nonceOrGeneration : String
  resolution : OwnerLiveness
  provenance : String
  observedAt : String

end FamiliarAi
