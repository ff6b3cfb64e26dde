import FamiliarAi.Json.Value
import FamiliarAi.Llm.Attempt

/-!
# Tool capabilities

The closed vocabulary of what a model may ask a loop to do, and the check of a requested call against
it. A call that does not pass the check is refused, with a reason, and is never executed.

The JSON library, the hash and the printing of values for diagnostics are those of the platform.
-/

namespace FamiliarAi

/-- What the loop uses of the libraries around it. -/
structure Platform where
  /-- `serde_json::from_str`. -/
  parseJson : String → Option JsonValue
  printJson : JsonValue → String
  sha256Hex : String → String
  /-- A string as `Debug` prints it. -/
  debugStr : String → String

inductive CapabilityId
  | readFile
  | searchList
  | runCommand
  | applyEdit
  | reportProgress
  | submitEvidence
  | requestEscalation
  deriving DecidableEq

namespace CapabilityId

def all : List CapabilityId :=
  [readFile, searchList, runCommand, applyEdit, reportProgress, submitEvidence, requestEscalation]

def asStr : CapabilityId → String
  | readFile => "read-file"
  | searchList => "search-list"
  | runCommand => "run-command"
  | applyEdit => "apply-edit"
  | reportProgress => "report-progress"
  | submitEvidence => "submit-evidence"
  | requestEscalation => "request-escalation"

def parse (value : String) : Option CapabilityId :=
  all.find? (·.asStr = value)

/-- The name as `Debug` prints it. -/
def debug : CapabilityId → String
  | readFile => "ReadFile"
  | searchList => "SearchList"
  | runCommand => "RunCommand"
  | applyEdit => "ApplyEdit"
  | reportProgress => "ReportProgress"
  | submitEvidence => "SubmitEvidence"
  | requestEscalation => "RequestEscalation"

theorem asStr_of_parse {value : String} {id : CapabilityId} (h : parse value = some id) :
    id.asStr = value := by
  simpa using List.find?_some h

end CapabilityId

inductive SideEffectClass
  | readOnly
  | idempotentWrite
  | destructive

/-- The names that an object of arguments must and may have. -/
structure ArgSchema where
  required : List String
  optional : List String

/-- A capability, with what the loop reads of it. -/
structure ToolCapability where
  id : CapabilityId
  schemaVersion : String
  argsSchema : ArgSchema
  sideEffectClass : SideEffectClass
  maxPayloadBytes : ℕ

def canonicalCapabilities : List ToolCapability :=
  [⟨.readFile, "read-file/2", ⟨["path"], ["start_line", "end_line"]⟩, .readOnly, 2 ^ 20⟩,
    ⟨.searchList, "search-list/1", ⟨["query"], ["path"]⟩, .readOnly, 2 ^ 20⟩,
    ⟨.runCommand, "run-command/1", ⟨["argv"], ["working_directory"]⟩, .destructive, 2 ^ 20⟩,
    ⟨.applyEdit, "apply-edit/1", ⟨["path", "content"], ["change_kind"]⟩, .idempotentWrite,
      4 * 2 ^ 20⟩,
    ⟨.reportProgress, "report-progress/1", ⟨["message"], []⟩, .idempotentWrite, 2 ^ 16⟩,
    ⟨.submitEvidence, "submit-evidence/1", ⟨["summary"], ["artifact_ref"]⟩, .idempotentWrite,
      2 ^ 16⟩,
    ⟨.requestEscalation, "request-escalation/1", ⟨["reason"], ["requested_capability"]⟩,
      .idempotentWrite, 2 ^ 16⟩]

def capabilityById (offered : List ToolCapability) (id : CapabilityId) : Option ToolCapability :=
  offered.find? (·.id = id)

/-- A call as the model asked for it. -/
structure ToolCallRequest where
  callId : String
  capabilityName : String
  arguments : JsonValue
  /-- The stream of arguments did not parse. -/
  malformedJson : Bool

inductive ValidationRefusal
  | unknownCapability (requested : String)
  | malformedArguments (detail : String)
  | oversizedPayload (bytes limit : ℕ)

structure ValidatedCall where
  callId : String
  capability : CapabilityId
  arguments : JsonValue
  argumentHash : String

namespace Platform

variable (P : Platform)

/-- A list of strings as `Debug` prints it. -/
def debugStrs (items : List String) : String :=
  "[" ++ ", ".intercalate (items.map P.debugStr) ++ "]"

def debugRefusal : ValidationRefusal → String
  | .unknownCapability requested =>
    "UnknownCapability \x7b requested: " ++ P.debugStr requested ++ " \x7d"
  | .malformedArguments detail => "MalformedArguments \x7b detail: " ++ P.debugStr detail ++ " \x7d"
  | .oversizedPayload bytes limit =>
    "OversizedPayload \x7b bytes: " ++ toString bytes ++ ", limit: " ++ toString limit ++ " \x7d"

def validateArguments (schema : ArgSchema) (value : JsonValue) : Except String Unit :=
  match value.keys? with
  | none => .error "arguments must be a JSON object"
  | some keys =>
    match schema.required.find? (· ∉ keys) with
    | some key => .error ("missing required argument " ++ P.debugStr key)
    | none =>
      match keys.find? (· ∉ schema.required ++ schema.optional) with
      | some key => .error ("unknown argument " ++ P.debugStr key)
      | none => .ok ()

/-- Every requested call is checked against the registry before anything runs. -/
def validateToolCall (call : ToolCallRequest) (offered : List ToolCapability) :
    Except ValidationRefusal ValidatedCall :=
  if call.malformedJson then
    .error (.malformedArguments "tool call arguments were not valid JSON")
  else
    match (CapabilityId.parse call.capabilityName).bind (capabilityById offered) with
    | none => .error (.unknownCapability call.capabilityName)
    | some capability =>
      let serialized := P.printJson call.arguments
      if capability.maxPayloadBytes < serialized.utf8ByteSize then
        .error (.oversizedPayload serialized.utf8ByteSize capability.maxPayloadBytes)
      else
        match P.validateArguments capability.argsSchema call.arguments with
        | .error detail => .error (.malformedArguments detail)
        | .ok () =>
          .ok ⟨call.callId, capability.id, call.arguments, P.sha256Hex serialized⟩

variable {P} {call : ToolCallRequest} {offered : List ToolCapability} {validated : ValidatedCall}

theorem validateToolCall_ok (h : P.validateToolCall call offered = .ok validated) :
    validated.callId = call.callId ∧ validated.capability.asStr = call.capabilityName ∧
      validated.argumentHash = P.sha256Hex (P.printJson call.arguments) ∧
      ∃ capability, capabilityById offered validated.capability = some capability := by
  unfold validateToolCall at h
  split at h
  · cases h
  · split at h
    · cases h
    · rename_i capability hcapability
      obtain ⟨id, hparse, hid⟩ := Option.bind_eq_some_iff.1 hcapability
      simp only at h
      split at h
      · cases h
      · split at h
        · cases h
        · obtain rfl := Except.ok.inj h
          have hsame : capability.id = id := by simpa using List.find?_some hid
          refine ⟨rfl, ?_, rfl, capability, ?_⟩
          · show capability.id.asStr = _
            rw [hsame]
            exact CapabilityId.asStr_of_parse hparse
          · show capabilityById offered capability.id = _
            rw [hsame]
            exact hid

end Platform

end FamiliarAi
