import Mathlib.Algebra.Order.Ring.Nat

/-!
# The inference adapter contract

What a loop submits through whatever provider: a conversation, the tools on offer, and how the
submission ends. Every submission is an attempt of its own, with an id of its own.
-/

namespace FamiliarAi

structure AttemptId where
  value : String

inductive MessageRole
  | system
  | user
  | assistant
  | tool
  deriving DecidableEq

structure ToolResultPayload where
  callId : String
  /-- The capability that the call asked for. -/
  capabilityName : String
  content : String
  isError : Bool
  deriving DecidableEq

/-- A tool call of the assistant, as the transcript records it. -/
structure ToolCallPayload where
  callId : String
  capabilityName : String
  arguments : String
  deriving DecidableEq

inductive MessageContent
  | text (text : String)
  /-- The turn of the assistant that made the calls. -/
  | toolCalls (calls : List ToolCallPayload)
  | toolResult (result : ToolResultPayload)
  deriving DecidableEq

structure Message where
  role : MessageRole
  content : MessageContent
  deriving DecidableEq

namespace Message

def system (text : String) : Message :=
  ⟨.system, .text text⟩

def user (text : String) : Message :=
  ⟨.user, .text text⟩

end Message

structure ToolDefinition where
  capabilityId : String
  schemaVersion : String
  jsonSchema : String

inductive CacheControl
  | none
  | ephemeral
  | persistent

structure StructuredOutputRequest where
  schemaName : String
  jsonSchema : String

structure SubmitRequest where
  attemptId : AttemptId
  messages : List Message
  model : String
  tools : List ToolDefinition
  structuredOutput : Option StructuredOutputRequest
  cacheControl : CacheControl
  promptCacheKey : Option String

/-- The token categories. One that the provider does not report is unknown. -/
structure UsageCategories where
  uncachedInputTokens : Option ℕ := none
  cacheReadTokens : Option ℕ := none
  cacheWriteTokens : Option ℕ := none
  outputTokens : Option ℕ := none
  reasoningOutputTokens : Option ℕ := none

def UsageCategories.isEntirelyUnknown (usage : UsageCategories) : Bool :=
  usage.uncachedInputTokens.isNone && usage.cacheReadTokens.isNone &&
    usage.cacheWriteTokens.isNone && usage.outputTokens.isNone &&
    usage.reasoningOutputTokens.isNone

inductive AdapterStopReason
  | endTurn
  | toolUse
  | maxTokens
  | stopSequence
  | contentFilter
  /-- The provider asks for another submission. -/
  | pauseTurn
  | refusal (category : Option String)

structure SubmitOutcome where
  stopReason : AdapterStopReason
  usage : UsageCategories
  providerRequestId : Option String

inductive RetryableKind
  | rateLimited (retryAfterMs : Option ℕ)
  | overloaded
  | transientTransport

inductive NonRetryableKind
  | auth
  | invalidRequest
  | refusedContent

inductive AdapterError
  | retryable (kind : RetryableKind)
  | nonRetryable (kind : NonRetryableKind)
  /-- The provider may have accepted and billed the request. -/
  | ambiguous (reason : String)

inductive StreamEvent
  | textDelta (delta : String)
  | toolCallDelta (callId capabilityId argumentsFragment : String)
  | toolCallComplete (callId : String)
  | usageDelta (usage : UsageCategories)
  | stop (reason : AdapterStopReason)

end FamiliarAi
