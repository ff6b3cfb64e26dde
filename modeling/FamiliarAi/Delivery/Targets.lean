import FamiliarAi.Delivery.Deliver
import Mathlib.Data.List.AList
import Mathlib.Data.List.MinMax
import Mathlib.Data.String.Basic

/-!
# Delivery to a target

A role of a repository is bound to a deploy target, with a recipe of steps. Delivery runs them one
after the other. Each is an effect under a key, recorded before it runs and when it has ended: a later
call leaves out the effects that have succeeded and stops at one that has failed.

The smoke is recorded twice, first with what it has printed and then with the role, by which a gate
finds it. A command may fail, a statement may be refused, and the process may stop at any command
and before or after any statement.
-/

namespace FamiliarAi

open Interaction Delivery

inductive EndpointProviderKind
  | inference
  | deployTarget
  | billing
  deriving DecidableEq

structure DeployRecipeConfig where
  syncArgv : List String
  restartArgv : List String
  smokeArgv : List String

structure ProviderConfig where
  kind : EndpointProviderKind
  host : String
  /-- The executable of a cloud. Without one the target is reached over SSH. -/
  via : Option String
  recipe : Option DeployRecipeConfig

/-! ### Effects -/

inductive EffectStatus
  | intent
  | succeeded
  | failed
  deriving DecidableEq

def EffectStatus.ofSuccess (success : Bool) : EffectStatus :=
  if success then .succeeded else .failed

/-- A row of `delivery_external_effects`, without its key. -/
structure DeliveryEffectRow where
  repositoryKey : String
  effectKind : String
  status : EffectStatus := .intent
  externalReference : Option String := none
  detail : Option String := none
  target : Option String := none
  revision : Option String := none
  output : Option String := none
  updatedAt : String

/-- The rows of the table by their idempotency keys. -/
abbrev DeliveryEffects := AList fun _ : String ↦ DeliveryEffectRow

/-- What is written about the effect with a key. -/
inductive EffectStatement
  | beginEffect (key repositoryKey effectKind : String)
  | finishEffect (key : String) (succeeded : Bool) (externalReference detail : Option String)
  | finishEvidence (key : String) (succeeded : Bool) (target revision output : String)
      (detail : Option String)

namespace EffectStatement

def key : EffectStatement → String
  | beginEffect key .. | finishEffect key .. | finishEvidence key .. => key

def write (now : String) : EffectStatement → Option DeliveryEffectRow → Option DeliveryEffectRow
  | beginEffect _ repositoryKey effectKind, none =>
    some { repositoryKey := repositoryKey, effectKind := effectKind, updatedAt := now }
  | beginEffect .., some row => some row
  | _, none => none
  | finishEffect _ succeeded externalReference detail, some row =>
    some { row with
      status := .ofSuccess succeeded
      externalReference := externalReference <|> row.externalReference
      detail := detail
      updatedAt := now }
  | finishEvidence _ succeeded target revision output detail, some row =>
    some { row with
      status := .ofSuccess succeeded
      target := some target
      revision := some revision
      output := some output
      detail := detail
      updatedAt := now }

def apply (now : String) (statement : EffectStatement) (effects : DeliveryEffects) :
    DeliveryEffects :=
  match statement.write now (effects.lookup statement.key) with
  | some row => effects.insert statement.key row
  | none => effects

end EffectStatement

structure InternalEvidence where
  passed : Bool
  target : Option String
  revision : Option String
  output : String

def smokeRole (gate : String) : Option String :=
  ((Text.stripPrefix? "deploy:".toList gate.toList).bind
    (Text.stripSuffix? "-smoke-passing".toList)).map String.ofList

def verificationCheck (gate : String) : Option String :=
  (Text.stripPrefix? "verification:".toList gate.toList).map String.ofList

def DeliveryEffectRow.IsSmokeOf (repositoryKey role : String) (row : DeliveryEffectRow) : Prop :=
  row.repositoryKey = repositoryKey ∧ row.effectKind = "smoke" ∧ row.externalReference = some role

instance (repositoryKey role : String) :
    DecidablePred (DeliveryEffectRow.IsSmokeOf repositoryKey role) := fun _ ↦
  inferInstanceAs (Decidable (_ ∧ _ ∧ _))

/-- The last smoke of the role. Of several with one time, which it is is not said. -/
def smokeEvidence (repositoryKey role : String) (rows : List DeliveryEffectRow) :
    Option InternalEvidence :=
  ((rows.filter fun row ↦ row.IsSmokeOf repositoryKey role).argmax (·.updatedAt)).map fun row ↦
    { passed := row.status = .succeeded
      target := row.target
      revision := row.revision
      output := row.output.getD "" }

/-- `resolve_internal_gate`, where `verification` reads the evidence of a check. -/
def resolveInternalGate (verification : String → Except String (Option InternalEvidence))
    (rows : List DeliveryEffectRow) (repositoryKey gate : String) :
    Except String (Option InternalEvidence) :=
  match smokeRole gate with
  | some role => .ok (smokeEvidence repositoryKey role rows)
  | none =>
    match verificationCheck gate with
    | some check => verification check
    | none => .ok none

/-- What becomes of a statement. The process may stop before it or after it. -/
inductive StatementOutcome
  | done
  | refused (error : String)
  | stopped (applied : Bool)

inductive TargetOp
  | called
  | now
  /-- The rows of the table that are not the delivery's. -/
  | otherEffects
  | verificationEvidence (repositoryKey check : String)
  | statement (statement : EffectStatement)
  | read (key : String)
  | command (kind directory : String) (argv : List String)

abbrev TargetOp.Answer : TargetOp → Type
  | called => Unit
  | now => ℤ
  | otherEffects => Except String (List DeliveryEffectRow)
  | verificationEvidence .. => Except String (Option InternalEvidence)
  | statement _ => String × StatementOutcome
  | read _ => Except String Unit
  | command .. => CommandAnswer

/-- A part of a call. When the process stops, it leaves the table behind. -/
abbrev TargetProgram := Program TargetOp TargetOp.Answer DeliveryEffects

abbrev TargetEnvironment := Environment TargetOp TargetOp.Answer

abbrev TargetHistory := History TargetOp TargetOp.Answer

/-! ### Delivery -/

/-- What is delivered, and for which role. -/
structure TargetRequest where
  role : String
  repositoryKey : String
  sessionId : String
  prdId : String
  revision : String

def TargetRequest.key (request : TargetRequest) (target kind : String) : String :=
  request.sessionId ++ ":" ++ request.prdId ++ ":" ++ request.role ++ ":" ++ target ++ ":" ++
    request.revision ++ ":" ++ kind

/-- A call: the configuration, the policy, the gates of the PRD and the worktree. -/
structure TargetCall where
  providers : List (String × ProviderConfig)
  policy : DeliveryConfig
  externalGates : List String
  directory : String

structure TargetDeliveryResult where
  role : String
  target : String
  revision : String
  smokePassed : Bool

structure RecipeStep where
  kind : String
  argv : List String
  retainOutput : Bool
  remedy : String

def shellQuote (value : String) : String :=
  let quoted := value.toList.flatMap fun c ↦ if [c] = "'".toList then "'\\''".toList else [c]
  "'" ++ String.ofList quoted ++ "'"

def sshArgv (host : String) (remote : List String) : List String :=
  ["ssh", "-o", "BatchMode=yes", "-o", "ConnectTimeout=10", host,
    " ".intercalate (remote.map shellQuote)]

def cloudAuthRemedy (via : String) : String :=
  match via with
  | "az" => "run `az login`, then start a new delivery session"
  | "aws" => "configure an AWS profile or run `aws sso login`, then start a new delivery session"
  | "gcloud" => "run `gcloud auth application-default login`, then start a new delivery session"
  | "doctl" => "run `doctl auth init`, then start a new delivery session"
  | _ => "authenticate the cloud CLI, then start a new delivery session"

def sshRemedy : String :=
  "restore SSH agent authentication/reachability, verify ~/.ssh/config, " ++
    "then start a new delivery session"

def recipeSteps (provider : ProviderConfig) (recipe : DeployRecipeConfig) : List RecipeStep :=
  match provider.via with
  | some via =>
    [⟨"cloud_preflight", recipe.restartArgv, false, cloudAuthRemedy via⟩,
      ⟨"deploy", recipe.syncArgv, false, cloudAuthRemedy via⟩,
      ⟨"smoke", recipe.smokeArgv, true, cloudAuthRemedy via⟩]
  | none =>
    [⟨"ssh_preflight", ["ssh", "-o", "BatchMode=yes", "-o", "ConnectTimeout=10", provider.host,
        "true"], false, sshRemedy⟩,
      ⟨"sync", sshArgv provider.host recipe.syncArgv, false, sshRemedy⟩,
      ⟨"restart", sshArgv provider.host recipe.restartArgv, false, sshRemedy⟩,
      ⟨"smoke", sshArgv provider.host recipe.smokeArgv, true, sshRemedy⟩]

namespace TargetProgram

/-- What a part of a call gives, with the table after it. -/
abbrev Step (α : Type) := Except String α × DeliveryEffects

def execute (statement : EffectStatement) (effects : DeliveryEffects) :
    TargetProgram (Step Unit) := do
  match ← (Program.perform (TargetOp.statement statement) : TargetProgram _) with
  | (now, .done) => return (.ok (), statement.apply now effects)
  | (_, .refused error) => return (.error error, effects)
  | (now, .stopped true) => Program.exit (statement.apply now effects)
  | (_, .stopped false) => Program.exit effects

/-- Record that an effect is about to run, unless it is recorded, and read its row. -/
def beginEffect (key repositoryKey effectKind : String) (effects : DeliveryEffects) :
    TargetProgram (Step DeliveryEffectRow) := do
  match ← execute (.beginEffect key repositoryKey effectKind) effects with
  | (.error error, effects) => return (.error error, effects)
  | (.ok (), effects) =>
    match ← (Program.perform (TargetOp.read key) : TargetProgram _) with
    | .error error => return (.error error, effects)
    | .ok () =>
      match effects.lookup key with
      | none => return (.error "database error: delivery effect disappeared", effects)
      | some row => return (.ok row, effects)

def recordOutput (host : DeliveryHost) (request : TargetRequest) (target : String)
    (step : RecipeStep) (output : CommandOutput) (effects : DeliveryEffects) :
    TargetProgram (Step Unit) := do
  let key := request.key target step.kind
  let message := host.redactSensitive (step.kind ++ " failed; " ++ step.remedy ++ ": " ++
    String.ofList (Text.trim output.stderr.toList))
  let detail := if output.success then none else some message
  let retained : Step Unit ← if step.retainOutput then
      execute (.finishEvidence key output.success target request.revision
        (output.stdout ++ output.stderr) detail) effects
    else pure (.ok (), effects)
  match retained with
  | (.error error, effects) => return (.error error, effects)
  | (.ok (), effects) =>
    match ← execute (.finishEffect key output.success (some request.role) detail) effects with
    | (.error error, effects) => return (.error error, effects)
    | (.ok (), effects) => return (if output.success then .ok () else .error message, effects)

def runEffect (host : DeliveryHost) (request : TargetRequest) (target directory : String)
    (step : RecipeStep) (effects : DeliveryEffects) : TargetProgram (Step Unit) := do
  let key := request.key target step.kind
  match ← beginEffect key request.repositoryKey step.kind effects with
  | (.error error, effects) => return (.error error, effects)
  | (.ok existing, effects) =>
    match existing.status with
    | .succeeded => return (.ok (), effects)
    | .failed =>
      return (.error (existing.detail.getD
        "delivery previously stopped; operator intervention required"), effects)
    | .intent =>
      match ← (Program.perform (TargetOp.command step.kind directory step.argv) :
          TargetProgram _) with
      | .stopped => Program.exit effects
      | .exited output => recordOutput host request target step output effects
      | .failed error =>
        let detail := host.redactSensitive
          (step.kind ++ " could not run; " ++ step.remedy ++ ": " ++ error)
        match ← execute (.finishEffect key false (some request.role) (some detail)) effects with
        | (.error error, effects) => return (.error error, effects)
        | (.ok (), effects) => return (.error detail, effects)

def runEffects (host : DeliveryHost) (request : TargetRequest) (target directory : String) :
    List RecipeStep → DeliveryEffects → TargetProgram (Step Unit)
  | [], effects => return (.ok (), effects)
  | step :: steps, effects => do
    match ← runEffect host request target directory step effects with
    | (.error error, effects) => return (.error error, effects)
    | (.ok (), effects) => runEffects host request target directory steps effects

def boundTarget (call : TargetCall) (role : String) : Except String (String × ProviderConfig) :=
  match call.policy.targets.lookup role with
  | none => .error ("delivery role '" ++ role ++ "' has no bound deploy target")
  | some target =>
    match call.providers.lookup target with
    | none =>
      .error ("delivery role '" ++ role ++ "' references unknown provider '" ++ target ++ "'")
    | some provider =>
      if provider.kind ≠ .deployTarget then
        .error ("provider '" ++ target ++ "' is not a deploy-target")
      else if asciiLower role = "production" ∨ asciiLower role = "prod" then
        if call.policy.mode ≠ .reviewedPrManual then
          .error ("production target requires manual authority; it is unreachable from PoC or " ++
            "automatic mode")
        else .ok (target, provider)
      else if call.policy.mode = .reviewedPrManual then
        .error ("default reviewed-PR mode stops before target delivery; " ++
          "explicit PoC or automatic authority is required")
      else .ok (target, provider)

/-- A warrant for self-approval must not have expired. -/
def checkWarrant (host : DeliveryHost) (call : TargetCall) : TargetProgram (Except String Unit) :=
  if call.policy.mode ≠ .pocSelfApproval then return .ok ()
  else
    match call.policy.pocWarrant with
    | none => return .error "PoC self-approval warrant is missing"
    | some warrant =>
      match host.parseRfc3339 warrant.expiresAt with
      | none => return .error "PoC self-approval warrant expiry is invalid"
      | some expiry => do
        let now ← (Program.perform TargetOp.now : TargetProgram ℤ)
        return if expiry ≤ now then .error "PoC self-approval warrant has expired" else .ok ()

def gateEvidence (repositoryKey gate : String) (effects : DeliveryEffects) :
    TargetProgram (Except String (Option InternalEvidence)) :=
  match smokeRole gate with
  | some role => do
    match ← (Program.perform TargetOp.otherEffects : TargetProgram _) with
    | .error error => return .error error
    | .ok others =>
      return .ok (smokeEvidence repositoryKey role (effects.entries.map (·.2) ++ others))
  | none =>
    match verificationCheck gate with
    | some check => Program.perform (TargetOp.verificationEvidence repositoryKey check)
    | none => return .ok none

def checkGates (repositoryKey : String) (effects : DeliveryEffects) :
    List String → TargetProgram (Except String Unit)
  | [] => return .ok ()
  | gate :: gates => do
    match ← gateEvidence repositoryKey gate effects with
    | .error error => return .error error
    | .ok evidence =>
      if evidence.any (·.passed) then checkGates repositoryKey effects gates
      else return .error ("internal external_gate '" ++ gate ++ "' is unresolved or failing")

def deliverRecipe (host : DeliveryHost) (request : TargetRequest) (call : TargetCall)
    (target : String) (provider : ProviderConfig) (effects : DeliveryEffects) :
    TargetProgram (Step TargetDeliveryResult) := do
  match provider.recipe with
  | none => return (.error "deploy-target recipe is missing", effects)
  | some recipe =>
    match ← runEffects host request target call.directory (recipeSteps provider recipe) effects with
    | (.error error, effects) => return (.error error, effects)
    | (.ok (), effects) => return (.ok ⟨request.role, target, request.revision, true⟩, effects)

def deliverToWith (host : DeliveryHost) (request : TargetRequest) (call : TargetCall)
    (effects : DeliveryEffects) : TargetProgram (Step TargetDeliveryResult) := do
  (Program.perform TargetOp.called : TargetProgram Unit)
  match boundTarget call request.role with
  | .error error => return (.error error, effects)
  | .ok (target, provider) =>
    match ← checkWarrant host call with
    | .error error => return (.error error, effects)
    | .ok () =>
      match ← checkGates request.repositoryKey effects call.externalGates with
      | .error error => return (.error error, effects)
      | .ok () => deliverRecipe host request call target provider effects

end TargetProgram

/-- A run of calls: the table, what they returned, the last one first, and what was performed. A call
at which the process stopped has returned nothing. -/
structure TargetRun where
  effects : DeliveryEffects := ∅
  returned : List (Except String TargetDeliveryResult) := []
  history : TargetHistory := []

def TargetRun.call (host : DeliveryHost) (request : TargetRequest) (env : TargetEnvironment)
    (run : TargetRun) (call : TargetCall) : TargetRun :=
  match (TargetProgram.deliverToWith host request call run.effects).run env run.history with
  | (.ok (result, effects), history) => ⟨effects, result :: run.returned, history⟩
  | (.error effects, history) => { run with effects := effects, history := history }

def targetRun (host : DeliveryHost) (request : TargetRequest) (env : TargetEnvironment)
    (calls : List TargetCall) : TargetRun :=
  calls.foldl (TargetRun.call host request env) {}

end FamiliarAi
