import FamiliarAi.Agent.Capabilities
import FamiliarAi.Interaction.Basic

/-!
# The loop of the raw agent

Compose, submit, read the turn, validate, authorise and execute the calls it made under the journal,
insert their results, and go round: until the turn makes no calls, a ceiling is reached or something
fails. The loop talks to an adapter, an authoriser, a journal, an executor and a cancellation token,
and all of them are its environment. Ceilings are checked before every submission.

A panic leaves the loop without an outcome. So does an adapter that never answers, when no wall-clock
ceiling cuts it off. An addition that overflows panics.
-/

namespace FamiliarAi

open Interaction

structure AuthorityContext where
  projectId : String
  executionId : String
  attemptId : String
  workerId : String

inductive AuthorizationRefusal
  | outOfAuthorityScope (capability : CapabilityId)
  | outOfProjectExecutionBinding
  | outOfWriteScope (path : String)
  | commandDenied (command : String)
  | networkDenied
  deriving DecidableEq

inductive RefusalContinuation
  | informModelAndContinue
  | stopClosed
  deriving DecidableEq

inductive AuthorizationDecision
  | authorized
  | refused (reason : AuthorizationRefusal) (continuation : RefusalContinuation)
  deriving DecidableEq

structure JournalIntent where
  callId : String
  capability : CapabilityId
  argumentHash : String
  sideEffectClass : SideEffectClass

inductive JournalResult
  | succeeded (resultHash : String)
  | failed (detail : String)

structure ExecutionOutcome where
  resultText : String
  resultHash : String

inductive ExecutionError
  | timeout
  | failed (detail : String)

inductive CallDisposition
  | validationRefused (refusal : ValidationRefusal)
  | authorizationRefused (reason : AuthorizationRefusal) (continuation : RefusalContinuation)
  | executed (resultHash : String) (editForm : Option String)
  | executionFailed (detail : String)
  /-- Answered from the journal without an execution. -/
  | resumedFromJournal (result : JournalResult)

structure CallRecord where
  callId : String
  capabilityName : String
  disposition : CallDisposition

inductive ProviderFailureTaxonomy
  | retryable
  | nonRetryable
  | ambiguous

inductive StopReason
  | completed (structuredOutput : Bool)
  | iterationCeiling
  | tokenOrContextCeiling
  | budgetStop
  | timeout
  | cancelled
  | providerFailure (taxonomy : ProviderFailureTaxonomy)
  | fatalToolRefusal
  | invalidStructuredOutput

structure ResumePoint where
  conversationMessages : ℕ
  journalHighWaterMark : ℕ

structure LoopEvidence where
  promptTemplateVersion : String
  workerSpecIdentity : String
  workerEmpiricalVersion : String
  offeredTools : List (CapabilityId × String)
  calls : List CallRecord
  stopReason : StopReason
  resumePoint : ResumePoint
  iterations : ℕ

structure AttemptUsage where
  attemptId : AttemptId
  usage : UsageCategories
  /-- It is not known whether the attempt was completed. -/
  ambiguous : Bool
  providerRequestId : Option String

/-- The attempt of a submission whose completion is not known. -/
def AttemptUsage.unknown (attemptId : AttemptId) : AttemptUsage :=
  ⟨attemptId, {}, true, none⟩

structure RunOutcome where
  stopReason : StopReason
  attempts : List AttemptUsage
  evidence : LoopEvidence
  finalText : Option String

/-- The part of the prompt that stays the same, with its version. -/
structure StablePrefix where
  bytes : String
  version : String

structure LoopCeilings where
  maxIterations : ℕ
  maxOutputTokens : Option ℕ
  maxWallClockMs : Option ℕ

structure LoopConfig where
  workerSpecIdentity : String
  workerEmpiricalVersion : String
  model : String
  promptTemplateVersion : String
  ceilings : LoopCeilings
  offeredCapabilities : List CapabilityId
  structuredOutput : Option StructuredOutputRequest
  authority : AuthorityContext

/-! ### The parties -/

structure AdapterReply where
  events : List StreamEvent
  /-- The milliseconds until it answers, if it ever does. -/
  elapsedMs : Option ℕ
  result : Except AdapterError SubmitOutcome

/-- The result of a submission under a wall-clock ceiling, or nothing when it is cut off. -/
def AdapterReply.answer (ceiling : Option ℕ) (submission : AdapterReply) :
    Option (Except AdapterError SubmitOutcome) :=
  match submission.elapsedMs, ceiling with
  | none, _ => none
  | some _, none => some submission.result
  | some elapsed, some ms => if elapsed ≤ ms then some submission.result else none

inductive LoopOp
  | isCancelled
  | mintAttemptId
  | submit (request : SubmitRequest)
  | authorize (call : ValidatedCall) (context : AuthorityContext)
  | resultFor (callId : String)
  | recordIntent (intent : JournalIntent)
  | execute (call : ValidatedCall) (context : AuthorityContext)
  | recordResult (callId : String) (result : JournalResult)
  | journalLength

/-- The answers. A journal that cannot be read panics with a message. -/
abbrev LoopOp.Answer : LoopOp → Type
  | isCancelled => Bool
  | mintAttemptId => AttemptId
  | submit _ => AdapterReply
  | authorize .. => AuthorizationDecision
  | resultFor _ => Except String (Option JournalResult)
  | recordIntent _ => Except String Unit
  | execute .. => Except ExecutionError ExecutionOutcome
  | recordResult .. => Except String Unit
  | journalLength => ℕ

/-- Why there is no outcome. -/
inductive LoopExit
  | panicked (message : String)
  | unanswered

abbrev LoopProgram := Program LoopOp LoopOp.Answer LoopExit

abbrev LoopHistory := History LoopOp LoopOp.Answer

abbrev LoopEnvironment := Environment LoopOp LoopOp.Answer

abbrev RunLoopEvent := Event LoopOp LoopOp.Answer

namespace LoopProgram

def isCancelled : LoopProgram Bool :=
  Program.perform LoopOp.isCancelled

def mintAttemptId : LoopProgram AttemptId :=
  Program.perform LoopOp.mintAttemptId

def submit (request : SubmitRequest) : LoopProgram AdapterReply :=
  Program.perform (LoopOp.submit request)

def authorize (call : ValidatedCall) (context : AuthorityContext) :
    LoopProgram AuthorizationDecision :=
  Program.perform (LoopOp.authorize call context)

def resultFor (callId : String) : LoopProgram (Except String (Option JournalResult)) :=
  Program.perform (LoopOp.resultFor callId)

def recordIntent (intent : JournalIntent) : LoopProgram (Except String Unit) :=
  Program.perform (LoopOp.recordIntent intent)

def execute (call : ValidatedCall) (context : AuthorityContext) :
    LoopProgram (Except ExecutionError ExecutionOutcome) :=
  Program.perform (LoopOp.execute call context)

def recordResult (callId : String) (result : JournalResult) : LoopProgram (Except String Unit) :=
  Program.perform (LoopOp.recordResult callId result)

def journalLength : LoopProgram ℕ :=
  Program.perform LoopOp.journalLength

def panic (message : String) {α : Type} : LoopProgram α :=
  Program.exit (.panicked message)

end LoopProgram

structure PendingToolCall where
  capabilityName : String := ""
  argumentsBuf : String := ""

/-- What a turn has said and asked for. The calls that are not complete are kept by their ids. -/
structure TurnCollector where
  text : Option String := none
  pendingCalls : List (String × PendingToolCall) := []
  completedCalls : List ToolCallRequest := []

namespace TurnCollector

variable (P : Platform)

def pending? (collector : TurnCollector) (callId : String) : Option PendingToolCall :=
  (collector.pendingCalls.find? (·.1 = callId)).map (·.2)

def onEvent (collector : TurnCollector) : StreamEvent → TurnCollector
  | .textDelta delta => { collector with text := some (collector.text.getD "" ++ delta) }
  | .toolCallDelta callId capabilityId argumentsFragment =>
    let entry := (collector.pending? callId).getD {}
    let entry : PendingToolCall :=
      { capabilityName := if entry.capabilityName = "" then capabilityId else entry.capabilityName
        argumentsBuf := entry.argumentsBuf ++ argumentsFragment }
    { collector with
      pendingCalls := (callId, entry) :: collector.pendingCalls.filter (·.1 ≠ callId) }
  | .toolCallComplete callId =>
    match collector.pending? callId with
    | none => collector
    | some pending =>
      let call : ToolCallRequest := match P.parseJson pending.argumentsBuf with
        | some arguments => ⟨callId, pending.capabilityName, arguments, false⟩
        | none => ⟨callId, pending.capabilityName, .null, true⟩
      { collector with
        pendingCalls := collector.pendingCalls.filter (·.1 ≠ callId)
        completedCalls := collector.completedCalls ++ [call] }
  | .usageDelta _ | .stop _ => collector

def collect (events : List StreamEvent) : TurnCollector :=
  events.foldl (onEvent P) {}

end TurnCollector

def toolResultMessage (callId capabilityName content : String) (isError : Bool) : Message :=
  ⟨.tool, .toolResult ⟨callId, capabilityName, content, isError⟩⟩

def AuthorizationRefusal.debug (P : Platform) : AuthorizationRefusal → String
  | outOfAuthorityScope capability =>
    "OutOfAuthorityScope \x7b capability: " ++ capability.debug ++ " \x7d"
  | outOfProjectExecutionBinding => "OutOfProjectExecutionBinding"
  | outOfWriteScope path => "OutOfWriteScope \x7b path: " ++ P.debugStr path ++ " \x7d"
  | commandDenied command => "CommandDenied \x7b command: " ++ P.debugStr command ++ " \x7d"
  | networkDenied => "NetworkDenied"

/-- How an edit is written, for the evidence. -/
def editFormFor (call : ValidatedCall) : Option String :=
  if call.capability = .applyEdit then
    some (((call.arguments.get? "change_kind").bind JsonValue.asStr?).getD "whole-file")
  else none

def ValidatedCall.intent (call : ValidatedCall) (capability : ToolCapability) : JournalIntent :=
  ⟨call.callId, call.capability, call.argumentHash, capability.sideEffectClass⟩

/-- What is said of a call that the journal knows. -/
def JournalResult.resumed : JournalResult → String × Bool
  | succeeded _ => ("resumed: already executed", false)
  | failed detail => ("resumed: previously failed (" ++ detail ++ ")", true)

def ExecutionError.detail : ExecutionError → String
  | timeout => "tool execution timed out"
  | failed detail => detail

/-- What becomes of a call: its disposition, the message that tells its result, and whether the loop
must stop. -/
structure Processed where
  disposition : CallDisposition
  message : Message
  fatal : Bool := false

namespace LoopProgram

variable (P : Platform)

/-- The part of `process_tool_call` after the authorisation. -/
def executeCall (call : ValidatedCall) (capability : ToolCapability)
    (authority : AuthorityContext) : LoopProgram Processed := do
  let say := toolResultMessage call.callId call.capability.asStr
  match ← resultFor call.callId with
  | .error message => panic message
  | .ok (some prior) =>
    return ⟨.resumedFromJournal prior, say prior.resumed.1 prior.resumed.2, false⟩
  | .ok none =>
    match ← recordIntent (call.intent capability) with
    | .error _ =>
      panic "tool journal write-ahead must succeed before any execution"
    | .ok () =>
      match ← execute call authority with
      | .ok outcome =>
        let _ ← recordResult call.callId (.succeeded outcome.resultHash)
        return ⟨.executed outcome.resultHash (editFormFor call), say outcome.resultText false, false⟩
      | .error error =>
        let _ ← recordResult call.callId (.failed error.detail)
        return ⟨.executionFailed error.detail, say error.detail true, false⟩

def processToolCall (offered : List ToolCapability) (authority : AuthorityContext)
    (rawCall : ToolCallRequest) : LoopProgram Processed :=
  match P.validateToolCall rawCall offered with
  | .error refusal =>
    return ⟨.validationRefused refusal, toolResultMessage rawCall.callId rawCall.capabilityName
      ("refused: invalid tool call (" ++ P.debugRefusal refusal ++ ")") true, false⟩
  | .ok validated => do
    match ← authorize validated authority with
    | .refused reason continuation =>
      return ⟨.authorizationRefused reason continuation,
        toolResultMessage validated.callId validated.capability.asStr
          ("refused: not authorized (" ++ reason.debug P ++ ")") true,
        continuation = .stopClosed⟩
    | .authorized =>
      match capabilityById offered validated.capability with
      | none => panic "validated call always names an offered capability"
      | some capability => executeCall validated capability authority

end LoopProgram

/-! ### The loop -/

/-- What the loop keeps from one turn to the next. -/
structure RunLoopState where
  history : List Message := []
  attempts : List AttemptUsage := []
  calls : List CallRecord := []
  finalText : Option String := none
  iterations : ℕ := 0
  totalOutputTokens : ℕ := 0

namespace RunLoopState

def charge (state : RunLoopState) (attemptId : AttemptId) (outcome : SubmitOutcome) : RunLoopState :=
  { state with
    totalOutputTokens := state.totalOutputTokens + outcome.usage.outputTokens.getD 0
    attempts := state.attempts ++ [⟨attemptId, outcome.usage, false, outcome.providerRequestId⟩] }

/-- The attempt of a submission that was lost sight of. -/
def lose (state : RunLoopState) (attemptId : AttemptId) : RunLoopState :=
  { state with attempts := state.attempts ++ [.unknown attemptId] }

/-- What the turn said, if anything. -/
def hear (state : RunLoopState) : Option String → RunLoopState
  | none => state
  | some text => { state with
      finalText := some text
      history := state.history ++ [⟨.assistant, .text text⟩] }

end RunLoopState

inductive TurnEnd
  | stop (reason : StopReason)
  | again

def offeredOf (config : LoopConfig) : List ToolCapability :=
  canonicalCapabilities.filter (·.id ∈ config.offeredCapabilities)

def offeredToolDefinitions (P : Platform) (offered : List ToolCapability) : List ToolDefinition :=
  offered.map fun c ↦ ⟨c.id.asStr, c.schemaVersion,
    "\x7b\"required\":" ++ P.debugStrs c.argsSchema.required ++ ",\"optional\":" ++
      P.debugStrs c.argsSchema.optional ++ "\x7d"⟩

def cacheControlFor (stable : StablePrefix) : CacheControl :=
  if stable.bytes = "" then .none else .ephemeral

def composeMessages (stable : StablePrefix) (task : String) (history : List Message) :
    List Message :=
  .system stable.bytes :: .user task :: history

/-- The call as the transcript records it. -/
def ToolCallRequest.payload (P : Platform) (call : ToolCallRequest) : ToolCallPayload :=
  ⟨call.callId, call.capabilityName, P.printJson call.arguments⟩

def endOfTurn (config : LoopConfig) (finalText : Option String) : AdapterStopReason → TurnEnd
  | .endTurn | .contentFilter | .stopSequence =>
    if config.structuredOutput.isSome ∧ finalText.isNone then .stop .invalidStructuredOutput
    else .stop (.completed config.structuredOutput.isSome)
  | .maxTokens => .stop .tokenOrContextCeiling
  | .toolUse => .stop .invalidStructuredOutput
  | .pauseTurn => .again
  | .refusal _ => .stop (.providerFailure .nonRetryable)

namespace LoopProgram

variable (P : Platform) (stable : StablePrefix) (task : String) (config : LoopConfig)

/-- What the loop makes of a submission. Without a ceiling it waits forever. -/
def awaitSubmission (submission : AdapterReply) :
    LoopProgram (Option (Except AdapterError SubmitOutcome)) :=
  if config.ceilings.maxWallClockMs.isNone ∧ submission.elapsedMs.isNone then
    Program.exit .unanswered
  else return submission.answer config.ceilings.maxWallClockMs

def requestFor (attemptId : AttemptId) (history : List Message) : SubmitRequest where
  attemptId := attemptId
  messages := composeMessages stable task history
  model := config.model
  tools := offeredToolDefinitions P (offeredOf config)
  structuredOutput := config.structuredOutput
  cacheControl := cacheControlFor stable
  promptCacheKey := some stable.version

def callStep (acc : RunLoopState × Bool) (rawCall : ToolCallRequest) :
    LoopProgram (RunLoopState × Bool) := do
  let processed ← processToolCall P (offeredOf config) config.authority rawCall
  return ({ acc.1 with
      history := acc.1.history ++ [processed.message]
      calls := acc.1.calls ++ [⟨rawCall.callId, rawCall.capabilityName, processed.disposition⟩] },
    acc.2 || processed.fatal)

def callsOfTurn (state : RunLoopState) (calls : List ToolCallRequest) :
    LoopProgram (TurnEnd × RunLoopState) := do
  let recorded : Message := ⟨.assistant, .toolCalls (calls.map (·.payload P))⟩
  let (state, fatal) ← calls.foldlM (callStep P config)
    ({ state with history := state.history ++ [recorded] }, false)
  return (if fatal then .stop .fatalToolRefusal else .again, state)

def answeredTurn (state : RunLoopState) (attemptId : AttemptId) (events : List StreamEvent)
    (outcome : SubmitOutcome) : LoopProgram (TurnEnd × RunLoopState) := do
  if 2 ^ 64 ≤ state.totalOutputTokens + outcome.usage.outputTokens.getD 0 then
    panic "attempt to add with overflow"
  let collector := TurnCollector.collect P events
  let state := (state.charge attemptId outcome).hear collector.text
  if collector.completedCalls.isEmpty then
    return (endOfTurn config state.finalText outcome.stopReason, state)
  else callsOfTurn P config state collector.completedCalls

/-- What comes of a submission, given its result if there is one in time. -/
def settleTurn (state : RunLoopState) (attemptId : AttemptId) (events : List StreamEvent) :
    Option (Except AdapterError SubmitOutcome) → LoopProgram (TurnEnd × RunLoopState)
  | none => return (.stop .timeout, state.lose attemptId)
  | some (.error (.ambiguous _)) =>
    return (.stop (.providerFailure .ambiguous), state.lose attemptId)
  | some (.error (.retryable _)) => return (.stop (.providerFailure .retryable), state)
  | some (.error (.nonRetryable _)) => return (.stop (.providerFailure .nonRetryable), state)
  | some (.ok outcome) => answeredTurn P config state attemptId events outcome

def submitTurn (state : RunLoopState) : LoopProgram (TurnEnd × RunLoopState) := do
  let attemptId ← mintAttemptId
  let submission ← submit (requestFor P stable task config attemptId state.history)
  let answer ← awaitSubmission config submission
  settleTurn P config state attemptId submission.events answer

def beginTurn (state : RunLoopState) : LoopProgram Bool := do
  if ← isCancelled then return false
  if state.iterations + 1 = 2 ^ 32 then panic "attempt to add with overflow"
  return true

def turns : ℕ → RunLoopState → LoopProgram (StopReason × RunLoopState)
  | 0, state => do
    if ← beginTurn state then return (.iterationCeiling, state)
    else return (.cancelled, state)
  | left + 1, state => do
    if ← beginTurn state then
      let state := { state with iterations := state.iterations + 1 }
      if config.ceilings.maxOutputTokens.any (· ≤ state.totalOutputTokens) then
        return (.tokenOrContextCeiling, state)
      match ← submitTurn P stable task config state with
      | (.stop reason, state) => return (reason, state)
      | (.again, state) => turns left state
    else return (.cancelled, state)

def runLoop : LoopProgram RunOutcome := do
  let (stopReason, state) ← turns P stable task config config.ceilings.maxIterations {}
  let length ← journalLength
  return {
    stopReason := stopReason
    attempts := state.attempts
    evidence :=
      { promptTemplateVersion := config.promptTemplateVersion
        workerSpecIdentity := config.workerSpecIdentity
        workerEmpiricalVersion := config.workerEmpiricalVersion
        offeredTools := (offeredOf config).map fun c ↦ (c.id, c.schemaVersion)
        calls := state.calls
        stopReason := stopReason
        resumePoint := ⟨state.history.length, length⟩
        iterations := state.iterations }
    finalText := state.finalText }

end LoopProgram

end FamiliarAi
