import FamiliarAi.Agent.RunLoop

/-!
# What a call may do

While a call is processed the loop asks for its authorisation, reads the journal, writes the intent,
executes and writes the result, each of these only right after the one before went well. `ToolRule`
says so of every event, and it is all that later proofs need to know of a call.
-/

namespace FamiliarAi

open Interaction Program Except

def JustAuthorized (call : ValidatedCall) (h : LoopHistory) : Prop :=
  ∃ context rest, h = ⟨.authorize call context, AuthorizationDecision.authorized⟩ :: rest

/-- The journal knew no result of the call. -/
def JustUnknown (call : ValidatedCall) (h : LoopHistory) : Prop :=
  ∃ rest, h = ⟨.resultFor call.callId, ok none⟩ :: rest ∧ JustAuthorized call rest

def JustIntended (call : ValidatedCall) (h : LoopHistory) : Prop :=
  ∃ (capability : ToolCapability) (rest : LoopHistory),
    h = ⟨.recordIntent (call.intent capability), ok ()⟩ :: rest ∧
      capability ∈ canonicalCapabilities ∧ capability.id = call.capability ∧ JustUnknown call rest

def JustExecuted (callId : String) (h : LoopHistory) : Prop :=
  ∃ call context answer rest, h = ⟨.execute call context, answer⟩ :: rest ∧ call.callId = callId ∧
    JustIntended call rest

def ToolRule (before : LoopHistory) : RunLoopEvent → Prop
  | ⟨.authorize .., _⟩ => True
  | ⟨.resultFor callId, _⟩ => ∃ call, call.callId = callId ∧ JustAuthorized call before
  | ⟨.recordIntent intent, _⟩ => ∃ call capability, intent = ValidatedCall.intent call capability ∧
      capability ∈ canonicalCapabilities ∧ capability.id = call.capability ∧ JustUnknown call before
  | ⟨.execute call _, _⟩ => JustIntended call before
  | ⟨.recordResult callId _, _⟩ => JustExecuted callId before
  | ⟨.isCancelled, _⟩ | ⟨.mintAttemptId, _⟩ | ⟨.submit _, _⟩ | ⟨.journalLength, _⟩ => False

def ToolEvent (env : LoopEnvironment) (before : LoopHistory) (e : RunLoopEvent) : Prop :=
  e.answer = env before e.op ∧ ToolRule before e

/-- The journal has just failed to read a result or to take an intent. -/
def JournalRefused (h : LoopHistory) : Prop :=
  (∃ callId message rest, h = ⟨.resultFor callId, error message⟩ :: rest) ∨
    ∃ intent message rest, h = ⟨.recordIntent intent, error message⟩ :: rest

/-- What a processed call says is about the call, and it was answered from the journal only when the
journal gave its result. -/
structure Tells (call : ToolCallRequest) (processed : Processed) (h : LoopHistory) : Prop where
  message : ∃ result : ToolResultPayload, processed.message = ⟨.tool, .toolResult result⟩ ∧
    result.callId = call.callId ∧ result.capabilityName = call.capabilityName
  resumed : ∀ prior, processed.disposition = .resumedFromJournal prior → ∃ validated rest,
    h = ⟨.resultFor validated.callId, ok (some prior)⟩ :: rest ∧
      validated.callId = call.callId ∧ JustAuthorized validated rest

section

variable {P : Platform} {env : LoopEnvironment} {h h₀ : LoopHistory} {config : LoopConfig}
  {authority : AuthorityContext} {rawCall : ToolCallRequest} {offered : List ToolCapability}
  {capability : ToolCapability}

theorem mem_of_capabilityById {id : CapabilityId}
    (hsome : capabilityById offered id = some capability) :
    capability ∈ offered ∧ capability.id = id :=
  ⟨List.mem_of_find?_eq_some hsome, by simpa using List.find?_some hsome⟩

theorem after_executeCall {call : ValidatedCall} (hgrows : Grows (ToolEvent env) h₀ h)
    (hauthorized : JustAuthorized call h) (hcapability : capability ∈ canonicalCapabilities)
    (hid : capability.id = call.capability) (hcall : call.callId = rawCall.callId)
    (hname : call.capability.asStr = rawCall.capabilityName) :
    After env (LoopProgram.executeCall call capability authority) h
      (fun processed h' ↦ Grows (ToolEvent env) h₀ h' ∧ Tells rawCall processed h')
      fun _ h' ↦ Grows (ToolEvent env) h₀ h' ∧ JournalRefused h' := by
  rw [LoopProgram.executeCall, after_bind, LoopProgram.resultFor, after_perform]
  generalize hanswer : env h (.resultFor call.callId) = answer
  have hread : Grows (ToolEvent env) h₀ (⟨.resultFor call.callId, answer⟩ :: h) :=
    hgrows.cons ⟨hanswer.symm, call, rfl, hauthorized⟩
  rcases answer with message | _ | prior
  · exact ⟨hread, .inl ⟨_, _, _, rfl⟩⟩
  · -- the journal knows no result: the intent is written first
    show After env (LoopProgram.recordIntent (call.intent capability) >>= _) _ _ _
    rw [after_bind, LoopProgram.recordIntent, after_perform]
    have hunknown : JustUnknown call (⟨.resultFor call.callId, ok none⟩ :: h) :=
      ⟨h, rfl, hauthorized⟩
    generalize hanswer : env _ (.recordIntent (call.intent capability)) = answer
    have hwrite : Grows (ToolEvent env) h₀ (⟨.recordIntent (call.intent capability), answer⟩ ::
        ⟨.resultFor call.callId, ok none⟩ :: h) :=
      hread.cons ⟨hanswer.symm, call, capability, rfl, hcapability, hid, hunknown⟩
    rcases answer with message | ⟨⟩
    · exact ⟨hwrite, .inr ⟨_, _, _, rfl⟩⟩
    · show After env (LoopProgram.execute call authority >>= _) _ _ _
      rw [after_bind, LoopProgram.execute, after_perform]
      have hintended : JustIntended call (⟨.recordIntent (call.intent capability), ok ()⟩ ::
          ⟨.resultFor call.callId, ok none⟩ :: h) :=
        ⟨capability, _, rfl, hcapability, hid, hunknown⟩
      generalize hanswer : env _ (.execute call authority) = answer
      have hexecute : Grows (ToolEvent env) h₀ (⟨.execute call authority, answer⟩ ::
          ⟨.recordIntent (call.intent capability), ok ()⟩ ::
            ⟨.resultFor call.callId, ok none⟩ :: h) := hwrite.cons ⟨hanswer.symm, hintended⟩
      rcases answer with error | outcome
      · exact ⟨hexecute.cons ⟨rfl, call, authority, _, _, rfl, rfl, hintended⟩, ⟨_, rfl, hcall, hname⟩,
          nofun⟩
      · exact ⟨hexecute.cons ⟨rfl, call, authority, _, _, rfl, rfl, hintended⟩, ⟨_, rfl, hcall, hname⟩,
          nofun⟩
  · refine ⟨hread, ⟨_, rfl, hcall, hname⟩, fun p hp ↦ ?_⟩
    obtain rfl := CallDisposition.resumedFromJournal.inj hp
    exact ⟨call, h, rfl, hcall, hauthorized⟩

/-- **What processing a call may do.** -/
theorem after_processToolCall (hgrows : Grows (ToolEvent env) h₀ h)
    (hoffered : ∀ capability ∈ offered, capability ∈ canonicalCapabilities) :
    After env (LoopProgram.processToolCall P offered authority rawCall) h
      (fun processed h' ↦ Grows (ToolEvent env) h₀ h' ∧ Tells rawCall processed h')
      fun _ h' ↦ Grows (ToolEvent env) h₀ h' ∧ JournalRefused h' := by
  rw [LoopProgram.processToolCall]
  rcases hvalidated : P.validateToolCall rawCall offered with refusal | validated
  · exact ⟨hgrows, ⟨_, rfl, rfl, rfl⟩, nofun⟩
  obtain ⟨hid, hname, -, capability, hcapability⟩ := Platform.validateToolCall_ok hvalidated
  show After env (LoopProgram.authorize validated authority >>= _) _ _ _
  rw [after_bind, LoopProgram.authorize, after_perform]
  generalize hanswer : env h (.authorize validated authority) = answer
  have hask : Grows (ToolEvent env) h₀ (⟨.authorize validated authority, answer⟩ :: h) :=
    hgrows.cons ⟨hanswer.symm, trivial⟩
  cases answer with
  | refused reason continuation =>
    exact ⟨hask, ⟨_, rfl, hid, hname⟩, nofun⟩
  | authorized =>
    obtain ⟨hmem, hsame⟩ := mem_of_capabilityById hcapability
    simp only [hcapability]
    exact after_executeCall hask ⟨authority, h, rfl⟩ (hoffered _ hmem) hsame hid hname

theorem mem_canonicalCapabilities (hmem : capability ∈ offeredOf config) :
    capability ∈ canonicalCapabilities :=
  (List.mem_filter.1 hmem).1

end

end FamiliarAi
