import FamiliarAi.Agent.Host

/-!
# Executions of the raw agent

`RawAgent::execute` reserves, runs the loop under the tightest of the ceilings, lets the host finish
and says how the execution went. Whatever keeps it from finishing, the guard has the host abandon the
execution. A host serves any number of executions, one after the other.
-/

namespace FamiliarAi

open Interaction

/-- The ceilings of a warrant that the loop enforces, and the cost that is reserved for. -/
structure ExecutionBudget where
  maxCostMicrousd : Option ℕ
  maxTokens : Option ℕ
  maxDurationMs : Option ℕ

structure ExecutionRequest where
  prompt : String
  promptCacheKey : Option String
  model : Option String
  timeoutMs : Option ℕ
  budget : ExecutionBudget

/-- What the raw agent fills in of a result. -/
structure ExecutionResult where
  agentVersion : Option String := none
  model : Option String := none
  inputTokens : Option ℕ := none
  outputTokens : Option ℕ := none
  cachedTokens : Option ℕ := none
  cacheWriteTokens : Option ℕ := none
  reasoningOutputTokens : Option ℕ := none
  exitCode : Option ℤ := none

/-- The errors that the raw agent returns. -/
inductive AgentExecutionError
  | launch (executable source : String) (result : ExecutionResult)
  | output (source : String) (result : ExecutionResult)
  | malformedOutput (detail : String) (result : ExecutionResult)
  | timeout (result : ExecutionResult)
  | budgetStopped (result : ExecutionResult)

/-- How an execution ends without a result. -/
inductive ExecutionExit
  | panicked (message : String)
  | failed (error : AgentExecutionError)

/-- An unknown amount stays unknown only while both are. -/
def addOpt : Option ℕ → Option ℕ → Except String (Option ℕ)
  | none, none => .ok none
  | a, b =>
    if 2 ^ 64 ≤ a.getD 0 + b.getD 0 then .error "attempt to add with overflow"
    else .ok (some (a.getD 0 + b.getD 0))

def UsageCategories.merge (usage other : UsageCategories) : Except String UsageCategories := do
  return {
    uncachedInputTokens := ← addOpt usage.uncachedInputTokens other.uncachedInputTokens
    cacheReadTokens := ← addOpt usage.cacheReadTokens other.cacheReadTokens
    cacheWriteTokens := ← addOpt usage.cacheWriteTokens other.cacheWriteTokens
    outputTokens := ← addOpt usage.outputTokens other.outputTokens
    reasoningOutputTokens := ← addOpt usage.reasoningOutputTokens other.reasoningOutputTokens }

/-! ### The agent -/

structure RawAgentSpec where
  workerSpecIdentity : String
  workerEmpiricalVersion : String
  model : String
  promptTemplateVersion : String
  ceilings : LoopCeilings
  offeredCapabilities : List CapabilityId

def tightest (ceilings : List (Option ℕ)) : Option ℕ :=
  (ceilings.filterMap id).min?

/-- A stop as `Debug` prints it. -/
def StopReason.debug : StopReason → String
  | completed structuredOutput =>
    "Completed \x7b structured_output: " ++ toString structuredOutput ++ " \x7d"
  | iterationCeiling => "IterationCeiling"
  | tokenOrContextCeiling => "TokenOrContextCeiling"
  | budgetStop => "BudgetStop"
  | timeout => "Timeout"
  | cancelled => "Cancelled"
  | providerFailure .retryable => "ProviderFailure \x7b taxonomy: Retryable \x7d"
  | providerFailure .nonRetryable => "ProviderFailure \x7b taxonomy: NonRetryable \x7d"
  | providerFailure .ambiguous => "ProviderFailure \x7b taxonomy: Ambiguous \x7d"
  | fatalToolRefusal => "FatalToolRefusal"
  | invalidStructuredOutput => "InvalidStructuredOutput"

namespace RawAgentSpec

variable (spec : RawAgentSpec)

def executionResult (outcome : RunOutcome) (effectiveModel : String) :
    Except String ExecutionResult := do
  let usage ← outcome.attempts.foldlM
    (fun (usage : UsageCategories) attempt ↦ usage.merge attempt.usage) {}
  return {
    agentVersion := some spec.workerEmpiricalVersion
    model := some effectiveModel
    inputTokens := usage.uncachedInputTokens
    outputTokens := usage.outputTokens
    cachedTokens := usage.cacheReadTokens
    cacheWriteTokens := usage.cacheWriteTokens
    reasoningOutputTokens := usage.reasoningOutputTokens }

/-- The authority of the host: the attempt is the execution that has just reserved. -/
def authority (host : SqliteRawAgentHost) (slots : HostSlots) : AuthorityContext where
  projectId := host.projectId
  executionId := host.executionId
  attemptId := toString slots.attemptSequence
  workerId := host.workerId

def effectiveModel (request : ExecutionRequest) : String :=
  request.model.getD spec.model

def loopConfig (request : ExecutionRequest) (authority : AuthorityContext) : LoopConfig where
  workerSpecIdentity := spec.workerSpecIdentity
  workerEmpiricalVersion := spec.workerEmpiricalVersion
  model := spec.effectiveModel request
  promptTemplateVersion := spec.promptTemplateVersion
  ceilings :=
    { spec.ceilings with
      maxWallClockMs :=
        tightest [spec.ceilings.maxWallClockMs, request.timeoutMs, request.budget.maxDurationMs]
      maxOutputTokens := tightest [spec.ceilings.maxOutputTokens, request.budget.maxTokens] }
  offeredCapabilities := spec.offeredCapabilities
  structuredOutput := none
  authority := authority

/-- How a finished execution went. -/
def reportOf (result : ExecutionResult) : StopReason → Except AgentExecutionError ExecutionResult
  | .completed _ => .ok { result with exitCode := some 0 }
  | .timeout => .error (.timeout result)
  | .budgetStop => .error (.budgetStopped result)
  | other => .error (.malformedOutput
      ("raw agent loop stopped without completing: " ++ other.debug) result)

/-- The result is computed, and may overflow. -/
def report (outcome : RunOutcome) (effectiveModel : String) :
    Except ExecutionExit ExecutionResult :=
  match spec.executionResult outcome effectiveModel with
  | .error message => .error (.panicked message)
  | .ok result =>
    match reportOf result outcome.stopReason with
    | .error error => .error (.failed error)
    | .ok result => .ok result

/-- What is returned when the host could not finish. -/
def unfinished (outcome : RunOutcome) (effectiveModel detail : String) : ExecutionExit :=
  match spec.executionResult outcome effectiveModel with
  | .error message => .panicked message
  | .ok result => .failed (.output detail result)

end RawAgentSpec

/-- What an execution gives, with the slots after it. -/
abbrev ExecutionStep := HostProgram (Except ExecutionExit ExecutionResult × HostSlots)

namespace HostProgram

variable (host : SqliteRawAgentHost) (spec : RawAgentSpec) (request : ExecutionRequest)

/-- The guard is dropped armed. What the host says to it is only logged. -/
def dropGuard (exit : ExecutionExit) (slots : HostSlots) : ExecutionStep := do
  let (_, slots) ← abandonExecution host slots
  return (.error exit, slots)

/-- The loop ended with an outcome. -/
def finishExecution (outcome : RunOutcome) (slots : HostSlots) : ExecutionStep := do
  let (finished, slots) ← finish host outcome (spec.effectiveModel request) slots
  match finished with
  | .error detail => dropGuard host (spec.unfinished outcome (spec.effectiveModel request) detail) slots
  | .ok () => return (spec.report outcome (spec.effectiveModel request), slots)

def guarded (slots : HostSlots) : ExecutionStep := do
  match ← hooks with
  | .error message => dropGuard host (.panicked message) slots
  | .ok () =>
    match ← buildRuntime with
    | .error source => dropGuard host (.failed (.launch "raw-agent-loop" source {})) slots
    | .ok () =>
      let authority := RawAgentSpec.authority host slots
      let ended ← runLoop ⟨"", request.promptCacheKey.getD "none"⟩ request.prompt
        (spec.loopConfig request authority)
        (authority.executionId ++ ":" ++ authority.workerId ++ ":" ++ authority.attemptId)
      match ended with
      | .error message => dropGuard host (.panicked message) slots
      | .ok outcome => finishExecution host spec request outcome slots

/-- `RawAgent::execute`. -/
def execute (slots : HostSlots) : ExecutionStep := do
  let (reserved, slots) ← reserveExecutionBudget host request.budget.maxCostMicrousd slots
  match reserved with
  | .error _ =>
    return (.error (.failed (.budgetStopped
      { agentVersion := some spec.workerEmpiricalVersion })), slots)
  | .ok () => guarded host spec request slots

def executions (requests : List (RawAgentSpec × ExecutionRequest)) : HostProgram HostSlots :=
  requests.foldlM (fun slots request ↦ do return (← execute host request.1 request.2 slots).2) {}

end HostProgram

def hostHistory (host : SqliteRawAgentHost) (requests : List (RawAgentSpec × ExecutionRequest))
    (env : HostEnvironment) : HostHistory :=
  ((HostProgram.executions host requests).run env []).2

end FamiliarAi
