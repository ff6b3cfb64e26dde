import FamiliarAi.Delivery.Forge

/-!
# Delivery policies

What a repository configures of its delivery, and what delivery asks of the configuration before it runs
a command.
-/

namespace FamiliarAi

/-- Code outside the model: what hides secrets, what quotes a text for a message, and what reads the
time of an RFC 3339 text. -/
structure DeliveryHost where
  redactSensitive : String → String
  debug : String → String
  parseRfc3339 : String → Option ℤ

/-- The text of an argument vector in a message. -/
def DeliveryHost.debugArgv (host : DeliveryHost) (argv : List String) : String :=
  "[" ++ ", ".intercalate (argv.map host.debug) ++ "]"

/-- How far delivery goes without a human. -/
inductive DeliveryMode
  | disabled
  | reviewedPrManual
  | pocSelfApproval
  | reviewGatedAutomatic
  deriving DecidableEq

/-- Who commits are authored by and change requests are published as. -/
structure DeliveryIdentityConfig where
  authorName : String
  authorEmail : String
  forgeAccount : String
  /-- By name. -/
  providerEnv : List (String × String)
  accountProbeArgv : List String

structure PocSelfApprovalWarrant where
  actor : String
  maxPrds : ℕ
  expiresAt : String
  assuranceLabel : String

structure ReviewGateConfig where
  implementer : String
  reviewer : String
  approver : String

/-- The delivery policy of a repository. -/
structure DeliveryConfig where
  mode : DeliveryMode
  maxDeliveriesPerSession : ℕ
  commandTimeoutMs : ℕ
  remote : String
  base : String
  providerArgv : List String
  stagingEnvironment : String
  deployArgv : List String
  smokeArgv : List String
  rollbackArgv : List String
  commentBlockers : Bool
  requiredChecks : List String
  migrationGateArgv : List String
  credentialReferences : List String
  pocWarrant : Option PocSelfApprovalWarrant
  reviewGate : Option ReviewGateConfig
  /-- By role. -/
  targets : List (String × String)
  identity : Option DeliveryIdentityConfig
  forge : Forge

/-! ### Checks of a policy -/

namespace Delivery

/-- `str::trim` leaves nothing. -/
def blankText (s : String) : Bool :=
  (Text.trim s.toList).isEmpty

def asciiLower (s : String) : String :=
  String.ofList (s.toList.map Char.toLower)

def asciiUpper (s : String) : String :=
  String.ofList (s.toList.map Char.toUpper)

def textContains (text needle : String) : Bool :=
  decide (needle.toList <:+: text.toList)

def validateIdentifier (value field : String) : Except String Unit :=
  if value.toList = [] ∨
      value.toList.any (fun c ↦ !(c.isAlphanum || c == '-' || c == '_' || c == '.')) = true then
    .error ("invalid " ++ field ++ " '" ++ value ++ "'")
  else .ok ()

def isSecretShaped (name : String) : Bool :=
  let upper := asciiUpper name
  ["TOKEN", "SECRET", "PASSWORD", "PASSPHRASE", "CREDENTIAL"].any (textContains upper) ||
    decide ("_KEY".toList <:+ upper.toList) || upper == "KEY"

/-- What a command changes of the identity beyond its own run. -/
def globalIdentityMutation (argv : List String) : Option String :=
  let lowered := argv.map asciiLower
  if "auth" ∈ lowered ∧ ("switch" ∈ lowered ∨ "login" ∈ lowered ∨ "logout" ∈ lowered) then
    some "switches the adapter's active account"
  else if "config" ∈ lowered ∧ ("--global" ∈ lowered ∨ "--system" ∈ lowered) then
    some "writes global or system git configuration"
  else none

end Delivery

open Delivery

namespace DeliveryIdentityConfig

/-- The check of one name of the environment. -/
def validateName (host : DeliveryHost) (name : String) : Except String Unit := do
  if blankText name then throw "delivery identity provider_env names must be non-empty"
  if isSecretShaped name then
    throw ("delivery identity provider_env may not carry " ++ host.debug name ++
      ": identity is a descriptor, and credentials must not appear in configuration or process " ++
      "arguments")

def validate (host : DeliveryHost) (identity : DeliveryIdentityConfig) : Except String Unit := do
  if blankText identity.authorName || blankText identity.authorEmail then
    throw "delivery identity requires a non-empty author_name and author_email"
  if blankText identity.forgeAccount then
    throw "delivery identity requires a non-empty forge_account"
  if identity.accountProbeArgv.isEmpty then
    throw ("delivery identity requires account_probe_argv so the published account can be " ++
      "verified before publication")
  if let some reason := globalIdentityMutation identity.accountProbeArgv then
    throw ("delivery identity account_probe_argv mutates machine-global identity (" ++ reason ++
      "); the probe must only report, never change, the active account")
  identity.providerEnv.forM fun entry ↦ validateName host entry.1

end DeliveryIdentityConfig

namespace DeliveryConfig

def automaticallyAuthorized (policy : DeliveryConfig) : Bool :=
  policy.mode == .pocSelfApproval || policy.mode == .reviewGatedAutomatic

/-- The check of one configured command. -/
def validateCommand (host : DeliveryHost) (command : List String) : Except String Unit :=
  match globalIdentityMutation command with
  | some reason =>
    .error ("delivery argv " ++ host.debugArgv command ++ " mutates machine-global identity (" ++
      reason ++ "); identity must be selected per invocation")
  | none => .ok ()

def validatePoc (host : DeliveryHost) (policy : DeliveryConfig) : Except String Unit := do
  match policy.pocWarrant with
  | none => throw "PoC self-approval requires an explicit warrant"
  | some warrant =>
    if !decide (Text.StartsWith warrant.actor "human:") || warrant.maxPrds == 0 ||
        blankText warrant.expiresAt then
      throw "PoC self-approval warrant requires a human: actor, finite max_prds, and expires_at"
    if warrant.assuranceLabel != "LOW_ASSURANCE_POC_SELF_APPROVAL" then
      throw "PoC self-approval must use the visible LOW_ASSURANCE_POC_SELF_APPROVAL label"
    if (host.parseRfc3339 warrant.expiresAt).isNone then
      throw "PoC self-approval warrant expires_at must be RFC3339"
    if warrant.maxPrds < policy.maxDeliveriesPerSession then
      throw "PoC delivery session cannot exceed the warrant max_prds"
    if asciiLower policy.stagingEnvironment == "production" ||
        asciiLower policy.stagingEnvironment == "prod" then
      throw "PoC self-approval prohibits production delivery"

def validateReviewGate (policy : DeliveryConfig) : Except String Unit := do
  match policy.reviewGate with
  | none =>
    throw ("review-gated automatic delivery requires implementer, reviewer, and approver " ++
      "identities")
  | some gate =>
    if blankText gate.implementer || blankText gate.reviewer || blankText gate.approver ||
        gate.implementer == gate.reviewer || gate.implementer == gate.approver ||
        gate.reviewer == gate.approver then
      throw ("review-gated delivery requires three distinct non-empty implementer, reviewer, and " ++
        "approver identities")

def validate (host : DeliveryHost) (policy : DeliveryConfig) : Except String Unit := do
  if policy.mode == .disabled then return ()
  policy.targets.forM fun entry ↦ do
    validateIdentifier entry.1 "delivery role"
    validateIdentifier entry.2 "deploy target"
  if policy.maxDeliveriesPerSession == 0 then
    throw "delivery requires a finite max_deliveries_per_session"
  if policy.commandTimeoutMs == 0 then throw "delivery requires a finite command_timeout_ms"
  if blankText policy.remote || blankText policy.base then
    throw "delivery remote and base must be non-empty"
  if policy.forge != .none && policy.providerArgv.isEmpty then
    throw "delivery requires a configured provider_argv adapter"
  if policy.automaticallyAuthorized then
    if blankText policy.stagingEnvironment then
      throw "automatic delivery staging_environment must be configured"
    if policy.deployArgv.isEmpty || policy.smokeArgv.isEmpty || policy.rollbackArgv.isEmpty then
      throw "automatic delivery requires deploy, smoke, and rollback argv"
  if policy.credentialReferences.any blankText then
    throw "delivery credential references must be non-empty names"
  if let some identity := policy.identity then identity.validate host
  [policy.providerArgv, policy.deployArgv, policy.smokeArgv, policy.rollbackArgv,
    policy.migrationGateArgv].forM (validateCommand host)
  match policy.mode with
  | .pocSelfApproval => policy.validatePoc host
  | .reviewGatedAutomatic => policy.validateReviewGate
  | .disabled | .reviewedPrManual => pure ()

def rejectProductionCommands (policy : DeliveryConfig) : Except String Unit :=
  if (policy.deployArgv ++ policy.smokeArgv ++ policy.rollbackArgv).any fun arg ↦
      asciiLower arg == "prod" || textContains (asciiLower arg) "production" then
    .error "production delivery is prohibited"
  else .ok ()

end DeliveryConfig

end FamiliarAi
