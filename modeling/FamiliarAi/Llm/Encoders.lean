import FamiliarAi.Json.Value
import FamiliarAi.Llm.Attempt

/-!
# Encoding a conversation

Three providers, three formats: the chat messages of the xAI and of the local runtime, and the input
items of the OpenAI Responses API. Each encoder puts recorded calls on the wire as they are, and each of
the two hosted ones has a fallback for a result whose call is not recorded.

What was encoded is read back as entries: what the assistant said, its calls, and their results.
-/

namespace FamiliarAi

open JsonValue

def MessageContent.isToolResult : MessageContent → Bool
  | .toolResult _ => true
  | _ => false

def MessageContent.isToolCalls : MessageContent → Bool
  | .toolCalls _ => true
  | _ => false

def MessageContent.isText : MessageContent → Bool
  | .text _ => true
  | _ => false

/-- A call as the chat formats write it. -/
def wireCall (callId name arguments : String) : JsonValue :=
  .object [("id", .string callId), ("type", .string "function"),
    ("function", .object [("name", .string name), ("arguments", .string arguments)])]

/-- A turn that makes calls, as the chat formats write it. -/
def wireToolCalls (calls : List JsonValue) : JsonValue :=
  .object [("role", .string "assistant"), ("content", .null), ("tool_calls", .array calls)]

def ToolCallPayload.wire (call : ToolCallPayload) : JsonValue :=
  wireCall call.callId call.capabilityName call.arguments

def ToolResultPayload.marked (result : ToolResultPayload) : String :=
  if result.isError then "ERROR: " ++ result.content else result.content

namespace Xai

def wireRole : MessageRole → String
  | .system => "system"
  | .user => "user"
  | .assistant => "assistant"
  | .tool => "tool"

def wireMessage (message : Message) : JsonValue :=
  match message.content with
  | .text text => .object [("role", .string (wireRole message.role)), ("content", .string text)]
  | .toolCalls calls => wireToolCalls (calls.map (·.wire))
  | .toolResult result =>
    .object [("role", .string "tool"), ("tool_call_id", .string result.callId),
      ("content", .string result.content)]

/-- The call of a result, reconstructed from the result. -/
def reconstructed (message : Message) : Option JsonValue :=
  match message.content with
  | .toolResult result => some (wireCall result.callId result.capabilityName "\x7b\x7d")
  | _ => none

/-- Put the reconstructed calls before their results: into the message before when the assistant said
something, or into a message of their own. -/
def insertCalls (previous : Option Message) (calls : List JsonValue) (wire : List JsonValue) :
    List JsonValue :=
  if previous.any fun m ↦ m.role = .assistant && m.content.isText then
    match wire.getLast? with
    | some last => wire.dropLast ++ [last.set "tool_calls" (.array calls)]
    | none => wire
  else wire ++ [wireToolCalls calls]

/-- The loop of `wire_messages`, at a message with the one before it. -/
def wireFrom (previous : Option Message) (wire : List JsonValue) : List Message → List JsonValue
  | [] => wire
  | message :: rest =>
    if !message.content.isToolResult || previous.any (·.content.isToolCalls) then
      wireFrom (some message) (wire ++ [wireMessage message]) rest
    else
      let run := message :: rest.takeWhile (·.content.isToolResult)
      wireFrom run.getLast? (insertCalls previous (run.filterMap reconstructed) wire ++
        run.map wireMessage) (rest.dropWhile (·.content.isToolResult))
  termination_by messages => messages.length
  decreasing_by
    · simp
    · exact Nat.lt_succ_of_le (List.dropWhile_suffix _).length_le

def wireMessages (messages : List Message) : List JsonValue :=
  wireFrom none [] messages

end Xai

namespace LocalRuntime

def buildMessage (message : Message) : Option JsonValue :=
  match message.role, message.content with
  | .system, .text text => some (.object [("role", .string "system"), ("content", .string text)])
  | .user, .text text => some (.object [("role", .string "user"), ("content", .string text)])
  | .assistant, .text text =>
    some (.object [("role", .string "assistant"), ("content", .string text)])
  | _, .toolCalls calls => some (wireToolCalls (calls.map (·.wire)))
  | .tool, .toolResult result =>
    some (.object [("role", .string "tool"), ("tool_call_id", .string result.callId),
      ("content", .string result.marked)])
  | _, _ => none

def buildMessages (messages : List Message) : List JsonValue :=
  messages.filterMap buildMessage

end LocalRuntime

namespace OpenAi

structure CachedCall where
  name : String
  arguments : String

def textItem (role kind text : String) : JsonValue :=
  .object [("type", .string "message"), ("role", .string role),
    ("content", .array [.object [("type", .string kind), ("text", .string text)]])]

def callItem (callId name arguments : String) : JsonValue :=
  .object [("type", .string "function_call"), ("call_id", .string callId), ("name", .string name),
    ("arguments", .string arguments)]

def outputItem (result : ToolResultPayload) : JsonValue :=
  .object [("type", .string "function_call_output"), ("call_id", .string result.callId),
    ("output", .string result.marked)]

def missingCall (cache : String → Option CachedCall) (recorded : List String)
    (result : ToolResultPayload) : List JsonValue :=
  if result.callId ∈ recorded then []
  else match cache result.callId with
    | some cached => [callItem result.callId cached.name cached.arguments]
    | none =>
      if result.capabilityName ≠ "" then
        [callItem result.callId result.capabilityName "\x7b\x7d"]
      else []

def itemsFrom (cache : String → Option CachedCall) (recorded : List String) :
    List Message → List JsonValue
  | [] => []
  | message :: rest =>
    match message.role, message.content with
    | .system, .text text => textItem "system" "input_text" text :: itemsFrom cache recorded rest
    | .user, .text text => textItem "user" "input_text" text :: itemsFrom cache recorded rest
    | .assistant, .text text =>
      textItem "assistant" "output_text" text :: itemsFrom cache recorded rest
    | _, .toolCalls calls =>
      calls.map (fun call ↦ callItem call.callId call.capabilityName call.arguments) ++
        itemsFrom cache (calls.map (·.callId) ++ recorded) rest
    | .tool, .toolResult result =>
      missingCall cache recorded result ++ outputItem result :: itemsFrom cache recorded rest
    | _, _ => itemsFrom cache recorded rest

def buildInputItems (cache : String → Option CachedCall) (messages : List Message) :
    List JsonValue :=
  itemsFrom cache [] messages

end OpenAi

/-- What a provider finds in a request. -/
inductive WireEntry
  | said (text : String)
  | call (callId name arguments : String)
  | result (callId : String)

def readString (value : JsonValue) (key : String) : Option String :=
  (value.get? key).bind asStr?

/-- A call of the chat formats. -/
def readCall (value : JsonValue) : Option WireEntry := do
  let function ← value.get? "function"
  return .call (← readString value "id") (← readString function "name")
    (← readString function "arguments")

def chatEntries (value : JsonValue) : List WireEntry :=
  if readString value "role" = some "assistant" then
    ((readString value "content").map WireEntry.said).toList ++
      (((value.get? "tool_calls").bind asArray?).getD []).filterMap readCall
  else if readString value "role" = some "tool" then
    ((readString value "tool_call_id").map WireEntry.result).toList
  else []

def itemText (value : JsonValue) : Option String := do
  let parts ← (value.get? "content").bind asArray?
  readString (← parts.head?) "text"

/-- A call of the Responses API. -/
def readCallItem (value : JsonValue) : Option WireEntry := do
  return .call (← readString value "call_id") (← readString value "name")
    (← readString value "arguments")

def itemEntries (value : JsonValue) : List WireEntry :=
  if readString value "type" = some "function_call" then
    (readCallItem value).toList
  else if readString value "type" = some "function_call_output" then
    ((readString value "call_id").map WireEntry.result).toList
  else if readString value "role" = some "assistant" then
    ((itemText value).map WireEntry.said).toList
  else []

end FamiliarAi
