import Mathlib.Algebra.BigOperators.Group.List.Basic
import FamiliarAi.Agent.Ceilings
import FamiliarAi.Llm.Encoders

/-!
# What the providers are told of a conversation

Every request of the loop carries a conversation of matched exchanges. The encoders of the local runtime
and of the Responses API put it on the wire as it is, whatever the cache holds. The xAI encoder does not
see that the second result of a turn has its call recorded: what stands before it is the first result.
So it reconstructs the calls of all results but the first, without their arguments. Its requests are
right exactly when every turn made one call only (`requests_encode_iff`).
-/

namespace FamiliarAi

open Interaction Program List

variable {message : Message}

/-! ### What is recorded -/

namespace WireEntry

def isCall : WireEntry → Bool
  | call .. => true
  | _ => false

def isResult : WireEntry → Bool
  | result _ => true
  | _ => false

end WireEntry

def ToolCallPayload.entry (call : ToolCallPayload) : WireEntry :=
  .call call.callId call.capabilityName call.arguments

def Message.entries (message : Message) : List WireEntry :=
  match message.content with
  | .text text => if message.role = .assistant then [.said text] else []
  | .toolCalls calls => calls.map (·.entry)
  | .toolResult result => [.result result.callId]

def recordedEntries (messages : List Message) : List WireEntry :=
  messages.flatMap Message.entries

/-- Each result comes after its own call and before a later turn of the assistant. The calls that have
no result yet are `pending`; once the results of a turn have begun, a call begins a later turn. -/
def Placed : (pending : List String) → (answering : Bool) → List WireEntry → Prop
  | _, _, [] => True
  | pending, _, .said _ :: rest => pending = [] ∧ Placed [] false rest
  | pending, answering, .call callId _ _ :: rest =>
    (answering = true → pending = []) ∧ Placed (pending ++ [callId]) false rest
  | pending, _, .result callId :: rest =>
    ∃ others, pending = callId :: others ∧ Placed others true rest

/-- A request tells a conversation: the recorded calls and no others, in their order, and every result
where it belongs. -/
structure Encodes (messages : List Message) (wire : List WireEntry) : Prop where
  calls : wire.filter WireEntry.isCall = (recordedEntries messages).filter WireEntry.isCall
  results : wire.filter WireEntry.isResult = (recordedEntries messages).filter WireEntry.isResult
  placed : Placed [] false wire

namespace Exchange

variable {exchange : Exchange} {exchanges : List Exchange} {calls : List ToolCallPayload}
  {results : List ToolResultPayload} {answering : Bool} {rest : List WireEntry}

def entries (exchange : Exchange) : List WireEntry :=
  recordedEntries exchange.messages

theorem entries_called : (called calls results).entries =
    calls.map (·.entry) ++ results.map fun r ↦ .result r.callId := by
  show calls.map (·.entry) ++ List.flatMap Message.entries (results.map _) = _
  rw [flatMap_map, map_eq_flatMap (l := results)]
  rfl

theorem recordedEntries_flatMap :
    recordedEntries (exchanges.flatMap messages) = exchanges.flatMap entries := by
  simp only [recordedEntries, flatMap_assoc]
  rfl

theorem exists_call (hanswers : List.Forall₂ Answers calls results) {result : ToolResultPayload}
    (hresult : result ∈ results) : ∃ call ∈ calls, Answers call result := by
  induction hanswers with
  | nil => cases hresult
  | @cons call _ calls _ hanswer _ ih =>
    rcases mem_cons.1 hresult with rfl | hresult
    · exact ⟨call, mem_cons_self, hanswer⟩
    · obtain ⟨call', hcall', hanswer'⟩ := ih hresult
      exact ⟨call', mem_cons_of_mem _ hcall', hanswer'⟩

theorem placed_calls {pending : List String} (hcalls : calls ≠ [])
    (hidle : answering = true → pending = [])
    (hrest : Placed (pending ++ calls.map (·.callId)) false rest) :
    Placed pending answering (calls.map (·.entry) ++ rest) := by
  induction calls generalizing pending answering with
  | nil => exact absurd rfl hcalls
  | cons call calls ih =>
    refine ⟨hidle, ?_⟩
    rw [map_cons, append_cons] at hrest
    cases calls with
    | nil => simpa using hrest
    | cons call' calls => exact ih (by simp) (fun h ↦ by cases h) hrest

theorem placed_results (hmatched : List.Forall₂ Answers calls results) (hrest : Placed [] true rest)
    (hcalls : calls ≠ []) :
    Placed (calls.map (·.callId)) answering ((results.map fun r ↦ .result r.callId) ++ rest) := by
  induction hmatched generalizing answering with
  | nil => exact absurd rfl hcalls
  | @cons call result calls results hanswers hmatched ih =>
    refine ⟨calls.map (·.callId), by simp [hanswers.1], ?_⟩
    cases calls with
    | nil =>
      cases hmatched
      exact hrest
    | cons call' calls => exact ih (by simp)

theorem placed_entries (hmatched : ∀ e ∈ exchanges, e.Matched) :
    Placed [] answering (exchanges.flatMap entries) := by
  induction exchanges generalizing answering with
  | nil => trivial
  | cons exchange exchanges ih =>
    have hrest : ∀ answering, Placed [] answering (exchanges.flatMap entries) := fun _ ↦
      ih fun e he ↦ hmatched e (mem_cons_of_mem _ he)
    rw [flatMap_cons]
    cases exchange with
    | said text => exact ⟨rfl, hrest _⟩
    | called calls results =>
      obtain ⟨hcalls, hanswers⟩ := hmatched _ mem_cons_self
      rw [entries_called, append_assoc]
      exact placed_calls hcalls (fun _ ↦ rfl) (placed_results hanswers (hrest _) hcalls)

end Exchange

theorem readCall_wire (call : ToolCallPayload) : readCall call.wire = some call.entry := by
  simp [readCall, readString, ToolCallPayload.wire, wireCall, ToolCallPayload.entry]

theorem filterMap_readCall (calls : List ToolCallPayload) :
    (calls.map (·.wire)).filterMap readCall = calls.map (·.entry) := by
  rw [filterMap_map, ← filterMap_eq_map]
  exact filterMap_congr fun call _ ↦ readCall_wire call

theorem chatEntries_wireToolCalls (calls : List JsonValue) :
    chatEntries (wireToolCalls calls) = calls.filterMap readCall := by
  simp [chatEntries, wireToolCalls, readString, JsonValue.asStr?]

theorem chatEntries_wireMessage (message : Message) :
    chatEntries (Xai.wireMessage message) = message.entries := by
  obtain ⟨role, content⟩ := message
  cases content with
  | text text =>
    cases role <;> simp [Xai.wireMessage, chatEntries, readString, Xai.wireRole, Message.entries]
  | toolCalls calls =>
    show chatEntries (wireToolCalls _) = _
    rw [chatEntries_wireToolCalls, filterMap_readCall]
    rfl
  | toolResult result => simp [Xai.wireMessage, chatEntries, readString, Message.entries]

/-- The role fits the content. -/
def Message.IsRegular (message : Message) : Prop :=
  match message.content with
  | .text _ => message.role ≠ .tool
  | .toolCalls _ => True
  | .toolResult _ => message.role = .tool

theorem chatEntries_buildMessage (hregular : message.IsRegular) :
    (LocalRuntime.buildMessage message).toList.flatMap chatEntries = message.entries := by
  obtain ⟨role, content⟩ := message
  cases content with
  | text text =>
    cases role with
    | tool => exact absurd rfl hregular
    | system | user | assistant =>
      simp [LocalRuntime.buildMessage, chatEntries, readString, Message.entries]
  | toolCalls calls =>
    have hbuild : LocalRuntime.buildMessage ⟨role, .toolCalls calls⟩ =
        some (wireToolCalls (calls.map (·.wire))) := by
      cases role <;> rfl
    simpa [hbuild, chatEntries_wireToolCalls, Message.entries] using filterMap_readCall calls
  | toolResult result =>
    obtain rfl : role = .tool := hregular
    simp [LocalRuntime.buildMessage, chatEntries, readString, Message.entries]

theorem isRegular_of_mem {exchange : Exchange} (h : message ∈ exchange.messages) :
    message.IsRegular := by
  cases exchange with
  | said text =>
    obtain rfl := mem_singleton.1 h
    simp [Message.IsRegular]
  | called calls results =>
    rcases mem_cons.1 h with rfl | h
    · trivial
    · obtain ⟨result, -, rfl⟩ := mem_map.1 h
      rfl

theorem entries_buildMessages {messages : List Message} (h : ∀ m ∈ messages, m.IsRegular) :
    (LocalRuntime.buildMessages messages).flatMap chatEntries = recordedEntries messages := by
  induction messages with
  | nil => rfl
  | cons message messages ih =>
    have hhead := chatEntries_buildMessage (h message mem_cons_self)
    have htail := ih fun m hm ↦ h m (mem_cons_of_mem _ hm)
    rw [LocalRuntime.buildMessages] at htail ⊢
    rw [recordedEntries, flatMap_cons, ← recordedEntries, ← hhead, ← htail]
    cases hbuild : LocalRuntime.buildMessage message with
    | none => simp [hbuild]
    | some value => simp [hbuild]

namespace OpenAi

variable {cache : String → Option CachedCall} {ids : List String} {rest : List Message}

theorem itemEntries_callItem (callId name arguments : String) :
    itemEntries (callItem callId name arguments) = [.call callId name arguments] := by
  simp [itemEntries, callItem, readString, readCallItem]

theorem itemEntries_outputItem (result : ToolResultPayload) :
    itemEntries (outputItem result) = [.result result.callId] := by
  simp [itemEntries, outputItem, readString]

theorem itemEntries_textItem (kind text : String) :
    itemEntries (textItem "assistant" kind text) = [.said text] := by
  simp [itemEntries, textItem, readString, itemText]

theorem entries_itemsFrom_results {results : List ToolResultPayload}
    (h : ∀ r ∈ results, r.callId ∈ ids) :
    (itemsFrom cache ids ((results.map fun r ↦ ⟨.tool, .toolResult r⟩) ++ rest)).flatMap
        itemEntries =
      (results.map fun r ↦ .result r.callId) ++ (itemsFrom cache ids rest).flatMap itemEntries := by
  induction results with
  | nil => rfl
  | cons result results ih =>
    have hrecorded : missingCall cache ids result = [] := if_pos (h result mem_cons_self)
    have htail := ih fun r hr ↦ h r (mem_cons_of_mem _ hr)
    simp only [map_cons, cons_append, itemsFrom, hrecorded, nil_append,
      flatMap_cons, itemEntries_outputItem, htail]

theorem entries_itemsFrom {exchanges : List Exchange} (hmatched : ∀ e ∈ exchanges, e.Matched) :
    (itemsFrom cache ids (exchanges.flatMap Exchange.messages)).flatMap itemEntries =
      exchanges.flatMap Exchange.entries := by
  induction exchanges generalizing ids with
  | nil => rfl
  | cons exchange exchanges ih =>
    have htail : ∀ ids, (itemsFrom cache ids (exchanges.flatMap Exchange.messages)).flatMap
        itemEntries = exchanges.flatMap Exchange.entries :=
      fun _ ↦ ih fun e he ↦ hmatched e (mem_cons_of_mem _ he)
    rw [flatMap_cons, flatMap_cons]
    cases exchange with
    | said text =>
      show (textItem "assistant" "output_text" text ::
        itemsFrom cache ids (exchanges.flatMap Exchange.messages)).flatMap itemEntries = _
      rw [flatMap_cons, itemEntries_textItem, htail]
      rfl
    | called calls results =>
      obtain ⟨-, hanswers⟩ := hmatched _ mem_cons_self
      -- every result has its call among the calls of the turn
      have hids : ∀ r ∈ results, r.callId ∈ calls.map (·.callId) ++ ids := by
        intro r hr
        obtain ⟨call, hcall, hanswer⟩ := Exchange.exists_call hanswers hr
        exact mem_append_left _ (mem_map.2 ⟨call, hcall, hanswer.1.symm⟩)
      rw [Exchange.entries_called]
      show (calls.map _ ++ itemsFrom cache (calls.map ToolCallPayload.callId ++ ids)
        ((results.map _) ++ exchanges.flatMap Exchange.messages)).flatMap itemEntries = _
      rw [flatMap_append, entries_itemsFrom_results hids, htail, append_assoc, flatMap_map]
      simp only [itemEntries_callItem]
      rw [← map_eq_flatMap]
      rfl

end OpenAi

namespace Xai

variable {previous : Option Message} {wire : List JsonValue} {rest : List Message}
  {message : Message}

def told : Exchange → List WireEntry
  | .said text => [.said text]
  | .called calls results => calls.map (·.entry) ++ match results with
    | [] => []
    | first :: others => .result first.callId ::
        ((others.map fun r ↦ .call r.callId r.capabilityName "\x7b\x7d") ++
          others.map fun r ↦ .result r.callId)

theorem wireFrom_of_not_result (h : message.content.isToolResult = false) :
    wireFrom previous wire (message :: rest) =
      wireFrom (some message) (wire ++ [wireMessage message]) rest := by
  rw [wireFrom, if_pos (by simp [h])]

theorem span_flatMap (exchanges : List Exchange) :
    (exchanges.flatMap Exchange.messages).takeWhile (·.content.isToolResult) = [] ∧
      (exchanges.flatMap Exchange.messages).dropWhile (·.content.isToolResult) =
        exchanges.flatMap Exchange.messages := by
  cases exchanges with
  | nil => exact ⟨rfl, rfl⟩
  | cons exchange exchanges => cases exchange <;> exact ⟨rfl, rfl⟩

theorem filterMap_reconstructed (results : List ToolResultPayload) :
    ((results.map fun r ↦ (⟨.tool, .toolResult r⟩ : Message)).filterMap reconstructed).filterMap
        readCall =
      results.map fun r ↦ .call r.callId r.capabilityName "\x7b\x7d" := by
  rw [filterMap_map, filterMap_filterMap, ← filterMap_eq_map]
  refine filterMap_congr fun result _ ↦ ?_
  simp [reconstructed, readCall, readString, wireCall]

theorem entries_wireMessage_results (results : List ToolResultPayload) :
    ((results.map fun r ↦ (⟨.tool, .toolResult r⟩ : Message)).map wireMessage).flatMap chatEntries =
      results.map fun r ↦ .result r.callId := by
  rw [map_map, flatMap_map, map_eq_flatMap]
  exact congrArg (List.flatMap · results) (funext fun result ↦ chatEntries_wireMessage _)

theorem entries_wireFrom_results (hcalls : message.content.isToolCalls = true)
    {results : List ToolResultPayload} {exchanges : List Exchange}
    (ih : ∀ previous wire, (wireFrom previous wire (exchanges.flatMap Exchange.messages)).flatMap chatEntries = wire.flatMap chatEntries ++ exchanges.flatMap told)
    :
    (wireFrom (some message) wire ((results.map fun r ↦ ⟨.tool, .toolResult r⟩) ++
        exchanges.flatMap Exchange.messages)).flatMap chatEntries =
      wire.flatMap chatEntries ++ (told (.called [] results) ++ exchanges.flatMap told) := by
  rcases results with _ | ⟨first, others⟩
  · exact ih _ _
  -- the first result follows its call; what stands before the next one is a result
  rw [map_cons, cons_append, wireFrom, if_pos (by simp [hcalls])]
  rcases others with _ | ⟨second, others⟩
  · rw [map_nil, nil_append, ih, flatMap_append, flatMap_singleton,
      chatEntries_wireMessage, append_assoc]
    rfl
  obtain ⟨htake, hdrop⟩ := span_flatMap exchanges
  have hrun : ((others.map fun r ↦ (⟨.tool, .toolResult r⟩ : Message)) ++
      exchanges.flatMap Exchange.messages).takeWhile (·.content.isToolResult) =
        others.map fun r ↦ ⟨.tool, .toolResult r⟩ := by
    rw [takeWhile_append_of_pos (by simp [MessageContent.isToolResult]), htake, append_nil]
  have hafter : ((others.map fun r ↦ (⟨.tool, .toolResult r⟩ : Message)) ++
      exchanges.flatMap Exchange.messages).dropWhile (·.content.isToolResult) =
        exchanges.flatMap Exchange.messages := by
    rw [dropWhile_append_of_pos (by simp [MessageContent.isToolResult]), hdrop]
  rw [map_cons, cons_append, wireFrom, if_neg (by simp [MessageContent.isToolResult,
    MessageContent.isToolCalls])]
  simp only [hrun, hafter]
  rw [ih, insertCalls, if_neg (by simp [MessageContent.isText])]
  rw [← map_cons (f := fun r : ToolResultPayload ↦ (⟨.tool, .toolResult r⟩ : Message)),
    flatMap_append, flatMap_append, flatMap_append, flatMap_singleton,
    flatMap_singleton, chatEntries_wireMessage, chatEntries_wireToolCalls,
    filterMap_reconstructed, entries_wireMessage_results]
  simp [told, Message.entries]

theorem entries_wireFrom (exchanges : List Exchange) (previous : Option Message)
    (wire : List JsonValue) :
    (wireFrom previous wire (exchanges.flatMap Exchange.messages)).flatMap chatEntries =
      wire.flatMap chatEntries ++ exchanges.flatMap told := by
  induction exchanges generalizing previous wire with
  | nil => simp [wireFrom]
  | cons exchange exchanges ih =>
    rw [flatMap_cons, flatMap_cons]
    cases exchange with
    | said text =>
      show (wireFrom previous wire (⟨.assistant, .text text⟩ ::
        exchanges.flatMap Exchange.messages)).flatMap chatEntries = _
      rw [wireFrom_of_not_result rfl, ih, flatMap_append, flatMap_singleton,
        chatEntries_wireMessage, append_assoc]
      rfl
    | called calls results =>
      show (wireFrom previous wire (⟨.assistant, .toolCalls calls⟩ :: ((results.map _) ++
        exchanges.flatMap Exchange.messages))).flatMap chatEntries = _
      rw [wireFrom_of_not_result rfl, entries_wireFrom_results rfl ih, flatMap_append,
        flatMap_singleton, chatEntries_wireMessage, append_assoc, ← append_assoc _ (told _)]
      rfl

end Xai

/-! ### Whole requests -/

/-- Every turn of the assistant made one call at most. -/
def SingleCalls (messages : List Message) : Prop :=
  ∀ m ∈ messages, ∀ calls, m.content = .toolCalls calls → calls.length ≤ 1

/-- The three requests that are built of the messages, as they are read. -/
structure AllEncode (cache : String → Option OpenAi.CachedCall) (messages : List Message) : Prop where
  xai : Encodes messages ((Xai.wireMessages messages).flatMap chatEntries)
  localRuntime : Encodes messages ((LocalRuntime.buildMessages messages).flatMap chatEntries)
  openAi : Encodes messages ((OpenAi.buildInputItems cache messages).flatMap itemEntries)

section

variable {stable : StablePrefix} {task : String} {exchanges : List Exchange}
  {cache : String → Option OpenAi.CachedCall}

abbrev requestMessages (stable : StablePrefix) (task : String) (exchanges : List Exchange) :
    List Message :=
  composeMessages stable task (exchanges.flatMap Exchange.messages)

theorem recordedEntries_request :
    recordedEntries (requestMessages stable task exchanges) = exchanges.flatMap Exchange.entries :=
  Exchange.recordedEntries_flatMap

theorem xai_entries :
    (Xai.wireMessages (requestMessages stable task exchanges)).flatMap chatEntries =
      exchanges.flatMap Xai.told := by
  rw [Xai.wireMessages, requestMessages, composeMessages, Xai.wireFrom_of_not_result rfl,
    Xai.wireFrom_of_not_result rfl, Xai.entries_wireFrom, flatMap_append, flatMap_append,
    flatMap_singleton, flatMap_singleton, chatEntries_wireMessage,
    chatEntries_wireMessage]
  rfl

theorem localRuntime_entries :
    (LocalRuntime.buildMessages (requestMessages stable task exchanges)).flatMap chatEntries =
      exchanges.flatMap Exchange.entries := by
  rw [entries_buildMessages, recordedEntries_request]
  intro m hm
  rcases mem_cons.1 hm with rfl | hm
  · simp [Message.IsRegular, Message.system]
  rcases mem_cons.1 hm with rfl | hm
  · simp [Message.IsRegular, Message.user]
  · obtain ⟨exchange, -, hmessage⟩ := mem_flatMap.1 hm
    exact isRegular_of_mem hmessage

theorem openAi_entries (hmatched : ∀ e ∈ exchanges, e.Matched) :
    (OpenAi.buildInputItems cache (requestMessages stable task exchanges)).flatMap itemEntries =
      exchanges.flatMap Exchange.entries := by
  show (OpenAi.itemsFrom cache [] (.system stable.bytes :: .user task :: _)).flatMap itemEntries = _
  simp only [Message.system, Message.user, OpenAi.itemsFrom, flatMap_cons,
    OpenAi.entries_itemsFrom hmatched]
  simp [itemEntries, OpenAi.textItem, readString]

theorem encodes_of_eq {wire : List WireEntry} (hmatched : ∀ e ∈ exchanges, e.Matched)
    (hwire : wire = exchanges.flatMap Exchange.entries) :
    Encodes (requestMessages stable task exchanges) wire where
  calls := by rw [recordedEntries_request, hwire]
  results := by rw [recordedEntries_request, hwire]
  placed := by
    rw [hwire]
    exact Exchange.placed_entries hmatched

/-- How many calls the wire says that were not made. -/
def surplus : Exchange → ℕ
  | .said _ => 0
  | .called _ results => results.length - 1

theorem countP_told (exchange : Exchange) :
    (Xai.told exchange).countP WireEntry.isCall =
      exchange.entries.countP WireEntry.isCall + surplus exchange := by
  have hresults (l : List ToolResultPayload) :
      (l.map fun r ↦ WireEntry.result r.callId).countP WireEntry.isCall = 0 := by
    rw [countP_map, countP_eq_zero]
    intro r _
    simp [WireEntry.isCall]
  have hcalls (l : List ToolResultPayload) :
      (l.map fun r ↦ WireEntry.call r.callId r.capabilityName "\x7b\x7d").countP
        WireEntry.isCall = l.length := by
    rw [countP_map, countP_eq_length]
    intro r _
    simp [WireEntry.isCall]
  cases exchange with
  | said text => rfl
  | called calls results =>
    rw [Exchange.entries_called, countP_append, hresults]
    rcases results with _ | ⟨first, others⟩
    · simp [Xai.told, surplus]
    simp only [Xai.told, surplus, countP_append, countP_cons, hresults, hcalls]
    simp [WireEntry.isCall]

theorem surplus_eq_zero_iff (hmatched : ∀ e ∈ exchanges, e.Matched) :
    (exchanges.map surplus).sum = 0 ↔ SingleCalls (requestMessages stable task exchanges) := by
  rw [List.sum_eq_zero_iff_forall_eq_nat]
  simp only [mem_map, forall_exists_index, and_imp, forall_apply_eq_imp_iff₂]
  constructor
  · intro hzero m hm calls hcontent
    rcases mem_cons.1 hm with rfl | hm
    · cases hcontent
    rcases mem_cons.1 hm with rfl | hm
    · cases hcontent
    obtain ⟨exchange, hexchange, hmessage⟩ := mem_flatMap.1 hm
    cases exchange with
    | said text =>
      obtain rfl := mem_singleton.1 hmessage
      cases hcontent
    | called calls' results =>
      rcases mem_cons.1 hmessage with rfl | hmessage
      · obtain rfl := MessageContent.toolCalls.inj hcontent
        have hnone : results.length - 1 = 0 := hzero _ hexchange
        have hlength := (hmatched _ hexchange).2.length_eq
        omega
      · obtain ⟨result, -, rfl⟩ := mem_map.1 hmessage
        cases hcontent
  · intro hsingle exchange hexchange
    cases exchange with
    | said text => rfl
    | called calls results =>
      have hlength := (hmatched _ hexchange).2.length_eq
      have hcalls := hsingle ⟨.assistant, .toolCalls calls⟩ (mem_cons_of_mem _
        (mem_cons_of_mem _ (mem_flatMap.2 ⟨_, hexchange, mem_cons_self⟩))) calls rfl
      show results.length - 1 = 0
      omega

theorem told_eq_entries {exchange : Exchange} (h : surplus exchange = 0) :
    Xai.told exchange = exchange.entries := by
  cases exchange with
  | said text => rfl
  | called calls results =>
    rw [Exchange.entries_called]
    rcases results with _ | ⟨first, others⟩
    · rfl
    have hnone : others.length = 0 := h
    obtain rfl := eq_nil_of_length_eq_zero hnone
    rfl

/-- **The encoders on a conversation.** -/
theorem allEncode_iff (hmatched : ∀ e ∈ exchanges, e.Matched) :
    AllEncode cache (requestMessages stable task exchanges) ↔
      SingleCalls (requestMessages stable task exchanges) := by
  rw [← surplus_eq_zero_iff hmatched]
  constructor
  · intro hall
    -- the calls on the wire are counted against the recorded ones
    have hcount := congrArg List.length hall.xai.calls
    rw [← countP_eq_length_filter, ← countP_eq_length_filter, xai_entries,
      recordedEntries_request, countP_flatMap, countP_flatMap] at hcount
    have hsum : (exchanges.map (List.countP WireEntry.isCall ∘ Xai.told)).sum =
        (exchanges.map (List.countP WireEntry.isCall ∘ Exchange.entries)).sum +
          (exchanges.map surplus).sum := by
      rw [← sum_map_add]
      exact congrArg (fun f ↦ (exchanges.map f).sum) (funext countP_told)
    omega
  · intro hzero
    rw [List.sum_eq_zero_iff_forall_eq_nat] at hzero
    have htold : exchanges.flatMap Xai.told = exchanges.flatMap Exchange.entries :=
      flatMap_congr fun e he ↦ told_eq_entries (hzero _ (mem_map_of_mem he))
    exact
      { xai := encodes_of_eq hmatched (xai_entries.trans htold)
        localRuntime := encodes_of_eq hmatched localRuntime_entries
        openAi := encodes_of_eq hmatched (openAi_entries hmatched) }

end

theorem maySubmit_of_mem {P : Platform} {env : LoopEnvironment} {stable : StablePrefix}
    {task : String} {config : LoopConfig} {h : LoopHistory} {s : SubmitRequest × AdapterReply}
    (hgrows : Grows (LoopRule P env stable task config) [] h) (hs : s ∈ submissions h) :
    ∃ before, MaySubmit P stable task config before s.1 := by
  induction hgrows with
  | refl => cases hs
  | @cons h e _ he ih =>
    obtain ⟨op, answer⟩ := e
    cases op with
    | submit request =>
      rcases mem_cons.1 hs with rfl | hs
      · exact ⟨h, he.2⟩
      · exact ih hs
    | isCancelled | mintAttemptId | authorize | resultFor | recordIntent | execute | recordResult
    | journalLength => exact ih hs

/-- **The requests of the loop.** Of every request that the loop submits, all three encoders tell the
conversation exactly when every turn in it made one call at most. -/
theorem requests_encode_iff (P : Platform) (stable : StablePrefix) (task : String)
    (config : LoopConfig) (env : LoopEnvironment) (cache : String → Option OpenAi.CachedCall)
    (s : SubmitRequest × AdapterReply)
    (hs : s ∈ submissions (runLoopIn P stable task config env).2) :
    AllEncode cache s.1.messages ↔ SingleCalls s.1.messages := by
  obtain ⟨before, hsubmit⟩ := maySubmit_of_mem runLoopIn_left.grows hs
  obtain ⟨history, hmessages, exchanges, hmatched, -, rfl⟩ := hsubmit.conversed
  rw [hmessages]
  exact allEncode_iff hmatched

/-- What a platform needs to show for calls that report progress. -/
def progressPlatform : Platform :=
  ⟨fun _ ↦ some (.object [("message", .string "half")]), fun _ ↦ "arguments", id, id⟩

/-- A loop of two iterations that offers to report progress. -/
def progressLoop : LoopConfig :=
  { briefLoop with ceilings := ⟨2, none, none⟩, offeredCapabilities := [.reportProgress] }

/-- The first turn makes calls with these ids, and the second one none. -/
def callingOnce (ids : List String) : LoopEnvironment
  | h, .submit _ =>
    if (submissions h).isEmpty then
      ⟨ids.flatMap fun id ↦ [.toolCallDelta id "report-progress" "", .toolCallComplete id], some 1,
        .ok ⟨.toolUse, { outputTokens := some 1 }, none⟩⟩
    else ⟨[.textDelta "done"], some 1, .ok ⟨.endTurn, { outputTokens := some 1 }, none⟩⟩
  | h, .isCancelled => answering overloaded h .isCancelled
  | h, .mintAttemptId => answering overloaded h .mintAttemptId
  | _, .authorize .. => .authorized
  | _, .resultFor _ => .ok none
  | _, .recordIntent _ => .ok ()
  | _, .execute .. => .ok ⟨"noted", "hash"⟩
  | _, .recordResult .. => .ok ()
  | _, .journalLength => 0

/-- What the loop submits when the first turn makes these calls. -/
def submittedAfter (ids : List String) : List (SubmitRequest × AdapterReply) :=
  submissions (runLoopIn progressPlatform ⟨"", "none"⟩ "task" progressLoop (callingOnce ids)).2

theorem submittedAfter_one : submittedAfter ["a"] ≠ [] := by
  decide

theorem requests_encode_iff_one :
    AllEncode (fun _ ↦ none) ((submittedAfter ["a"]).head submittedAfter_one).1.messages ↔
      SingleCalls ((submittedAfter ["a"]).head submittedAfter_one).1.messages :=
  requests_encode_iff progressPlatform ⟨"", "none"⟩ "task" progressLoop (callingOnce ["a"]) _ _
    (head_mem _)

theorem submittedAfter_two : submittedAfter ["a", "b"] ≠ [] := by
  decide

/-- After a turn with two calls the xAI encoder makes up a third. -/
theorem requests_not_encode :
    ¬∀ P stable task config env cache, ∀ s ∈ submissions (runLoopIn P stable task config env).2,
      AllEncode cache s.1.messages := by
  intro h
  have hall := h progressPlatform ⟨"", "none"⟩ "task" progressLoop (callingOnce ["a", "b"])
    (fun _ ↦ none) _ (head_mem submittedAfter_two)
  have hmessages : ((submittedAfter ["a", "b"]).head submittedAfter_two).1.messages =
      requestMessages ⟨"", "none"⟩ "task"
        [.called [⟨"a", "report-progress", "arguments"⟩, ⟨"b", "report-progress", "arguments"⟩]
          [⟨"a", "report-progress", "noted", false⟩, ⟨"b", "report-progress", "noted", false⟩]] := by
    decide
  rw [hmessages] at hall
  have hsingle := (allEncode_iff (by simp [Exchange.Matched, Exchange.Answers])).1 hall
    ⟨.assistant, .toolCalls _⟩ (mem_cons_of_mem _ (mem_cons_of_mem _ mem_cons_self))
    _ rfl
  simp at hsingle

end FamiliarAi
