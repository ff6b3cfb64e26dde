import FamiliarAi.Agent.Ceilings

/-!
# The transcript that the loop submits

The calls of a turn arrive in fragments, and are sent back with the next submission as the transcript
records them: in the order in which they were complete, each with its result. What is sent back is the
reprint of the arguments as the loop has parsed them, under the ids that the model has chosen.
-/

namespace FamiliarAi

open Interaction Program List

/-- What was streamed of a call since it was complete last: its capability and its arguments, in
fragments. -/
def fragmentsOf (callId : String) (events : List StreamEvent) : List (String × String) :=
  events.foldl (fun fragments event ↦ match event with
    | .toolCallDelta id capabilityId fragment =>
      if id = callId then fragments ++ [(capabilityId, fragment)] else fragments
    | .toolCallComplete id => if id = callId then [] else fragments
    | _ => fragments) []

def streamedCall (callId : String) (fragments : List (String × String)) : ToolCallPayload :=
  ⟨callId, ((fragments.map (·.1)).find? (· ≠ "")).getD "", String.join (fragments.map (·.2))⟩

def completedBy (seen : List StreamEvent) : StreamEvent → Option ToolCallPayload
  | .toolCallComplete callId =>
    if fragmentsOf callId seen = [] then none
    else some (streamedCall callId (fragmentsOf callId seen))
  | _ => none

def streamedAfter : List StreamEvent → List StreamEvent → List ToolCallPayload
  | _, [] => []
  | seen, event :: rest => (completedBy seen event).toList ++ streamedAfter (seen ++ [event]) rest

def streamedIn (s : SubmitRequest × AdapterReply) : List ToolCallPayload :=
  streamedAfter [] s.2.events

/-- What becomes of streamed arguments: they are parsed and printed again, and what cannot be parsed is
null. -/
def Platform.reprint (P : Platform) (arguments : String) : String :=
  P.printJson ((P.parseJson arguments).getD .null)

def callsMade (messages : List Message) : List (List ToolCallPayload) :=
  messages.filterMap fun message ↦ match message.content with
    | .toolCalls calls => some calls
    | _ => none

/-- The transcript of these submissions. -/
structure IsTranscript (stable : StablePrefix) (task : String)
    (l : List (SubmitRequest × AdapterReply)) (messages : List Message) : Prop where
  /-- The results of the calls follow them, one for each and in their order, and there are no others. -/
  paired : ∃ exchanges : List Exchange, (∀ e ∈ exchanges, e.Matched) ∧
    messages = composeMessages stable task (exchanges.flatMap Exchange.messages)
  once : ∀ calls ∈ callsMade messages, (calls.map (·.callId)).Nodup
  verbatim : callsMade messages = (l.reverse.map streamedIn).filter (!·.isEmpty)

def SubmitsTranscripts (stable : StablePrefix) (task : String) (run : LoopRun) : Prop :=
  ∀ request submission before, ⟨.submit request, submission⟩ :: before <:+ run.2 →
    IsTranscript stable task (submissions before) request.messages

/-- In every turn that another one follows, the calls have ids of their own, and their arguments are
printed as they were streamed. -/
def StreamsPlainly (P : Platform) (run : LoopRun) : Prop :=
  ∀ s ∈ (submissions run.2).tail, ((streamedIn s).map (·.callId)).Nodup ∧
    ∀ call ∈ streamedIn s, P.reprint call.arguments = call.arguments

section

variable {P : Platform} {collector : TurnCollector} {events seen : List StreamEvent}
  {event : StreamEvent} {callId other : String} {fragments : List (String × String)}
  {l : List (String × PendingToolCall)} {s : SubmitRequest × AdapterReply}

/-! ### What the collector keeps -/

def pendingOf (fragments : List (String × String)) : Option PendingToolCall :=
  if fragments = [] then none
  else some ⟨(streamedCall "" fragments).capabilityName, (streamedCall "" fragments).arguments⟩

def Collects (seen : List StreamEvent) (collector : TurnCollector) : Prop :=
  ∀ callId, collector.pending? callId = pendingOf (fragmentsOf callId seen)

theorem find?_filter_ne (h : other ≠ callId) :
    (l.filter (·.1 ≠ callId)).find? (·.1 = other) = l.find? (·.1 = other) := by
  rw [find?_filter]
  refine congrArg (List.find? · l) (funext fun entry ↦ ?_)
  by_cases hentry : entry.1 = other
  · simp [hentry, h]
  · simp [hentry]

theorem pendingOf_snoc {capabilityId fragment : String} :
    pendingOf (fragments ++ [(capabilityId, fragment)]) = some
      ⟨if ((pendingOf fragments).getD {}).capabilityName = "" then capabilityId
        else ((pendingOf fragments).getD {}).capabilityName,
        ((pendingOf fragments).getD {}).argumentsBuf ++ fragment⟩ := by
  have hname : ((pendingOf fragments).getD {}).capabilityName =
      ((fragments.map (·.1)).find? (· ≠ "")).getD "" := by
    cases fragments <;> rfl
  have hbuf : ((pendingOf fragments).getD {}).argumentsBuf = String.join (fragments.map (·.2)) := by
    cases fragments <;> rfl
  rw [hname, hbuf, pendingOf, if_neg (by simp), streamedCall]
  refine congrArg some (congrArg₂ PendingToolCall.mk ?_ ?_)
  · rw [map_append, find?_append]
    cases hfound : (fragments.map (·.1)).find? (· ≠ "") with
    | some name =>
      have hne := find?_some hfound
      rw [decide_eq_true_eq] at hne
      exact (if_neg hne).symm
    | none =>
      by_cases hempty : capabilityId = ""
      · rw [hempty]
        rfl
      · simp [hempty]
  · simp [String.join]

theorem Collects.onEvent (h : Collects seen collector) :
    Collects (seen ++ [event]) (collector.onEvent P event) := by
  intro other
  have hother := h other
  have hsnoc : fragmentsOf other (seen ++ [event]) = match event with
      | .toolCallDelta id capabilityId fragment =>
        if id = other then fragmentsOf other seen ++ [(capabilityId, fragment)]
        else fragmentsOf other seen
      | .toolCallComplete id => if id = other then [] else fragmentsOf other seen
      | _ => fragmentsOf other seen := foldl_append
  rw [hsnoc]
  cases event with
  | textDelta | usageDelta | stop => exact hother
  | toolCallDelta callId capabilityId fragment =>
    by_cases hid : callId = other
    · subst hid
      rw [TurnCollector.pending?] at hother
      simp [TurnCollector.onEvent, TurnCollector.pending?, hother, pendingOf_snoc]
    · simp only [if_neg hid]
      rw [← hother, TurnCollector.pending?, TurnCollector.pending?]
      refine congrArg (Option.map _) ?_
      exact (find?_cons_of_neg (by simpa using hid)).trans (find?_filter_ne (Ne.symm hid))
  | toolCallComplete callId =>
    rw [TurnCollector.onEvent]
    by_cases hid : callId = other
    · subst hid
      cases hpending : collector.pending? callId with
      | none => simpa [pendingOf] using hpending
      | some pending => simp [TurnCollector.pending?, pendingOf]
    · simp only [if_neg hid, ← hother]
      cases collector.pending? callId with
      | none => rfl
      | some pending => exact congrArg (Option.map _) (find?_filter_ne (Ne.symm hid))

def parsed (P : Platform) (call : ToolCallPayload) : ToolCallRequest :=
  match P.parseJson call.arguments with
  | some arguments => ⟨call.callId, call.capabilityName, arguments, false⟩
  | none => ⟨call.callId, call.capabilityName, .null, true⟩

theorem payload_parsed (call : ToolCallPayload) :
    (parsed P call).payload P = { call with arguments := P.reprint call.arguments } := by
  rw [parsed, Platform.reprint]
  cases P.parseJson call.arguments <;> rfl

theorem Collects.completedCalls (h : Collects seen collector) :
    (collector.onEvent P event).completedCalls =
      collector.completedCalls ++ (completedBy seen event).toList.map (parsed P) := by
  cases event with
  | textDelta | toolCallDelta | usageDelta | stop => exact (append_nil _).symm
  | toolCallComplete callId =>
    have hpending := h callId
    rw [pendingOf] at hpending
    rw [TurnCollector.onEvent, completedBy, hpending]
    split_ifs
    · exact (append_nil _).symm
    · rfl

theorem Collects.foldl (h : Collects seen collector) :
    (events.foldl (TurnCollector.onEvent P) collector).completedCalls =
      collector.completedCalls ++ (streamedAfter seen events).map (parsed P) := by
  induction events generalizing seen collector with
  | nil => exact (append_nil _).symm
  | cons event rest ih =>
    rw [foldl_cons, ih h.onEvent, h.completedCalls, streamedAfter, map_append, append_assoc]

/-- **The calls of a turn** are sent back as they were streamed, but for their arguments. -/
theorem callsIn_eq (s : SubmitRequest × AdapterReply) :
    callsIn P s = (streamedIn s).map fun call ↦
      { call with arguments := P.reprint call.arguments } := by
  have hnone : Collects [] {} := fun _ ↦ rfl
  rw [callsIn, TurnCollector.collect, hnone.foldl, nil_append, map_map]
  exact map_congr_left fun call _ ↦ payload_parsed call

theorem callsMade_history {stable : StablePrefix} {task : String} (exchanges : List Exchange) :
    callsMade (composeMessages stable task (exchanges.flatMap Exchange.messages)) =
      exchanges.filterMap Exchange.calls? := by
  have heach (exchange : Exchange) : callsMade exchange.messages = exchange.calls?.toList := by
    cases exchange with
    | said text => rfl
    | called calls results =>
      have hresults : callsMade (results.map fun result ↦ ⟨.tool, .toolResult result⟩) = [] := by
        simp [callsMade]
      exact congrArg (calls :: ·) hresults
  show callsMade (exchanges.flatMap Exchange.messages) = _
  induction exchanges with
  | nil => rfl
  | cons exchange exchanges ih =>
    rw [flatMap_cons, callsMade, filterMap_append]
    refine (congrArg₂ (· ++ ·) (heach exchange) ih).trans ?_
    cases hcalls : exchange.calls? with
    | none => rw [filterMap_cons_none hcalls]; rfl
    | some calls => rw [filterMap_cons_some hcalls]; rfl

theorem submissions_tail {request : SubmitRequest} {submission : AdapterReply}
    {before h : LoopHistory} (hsuffix : ⟨.submit request, submission⟩ :: before <:+ h) :
    ∀ s ∈ submissions before, s ∈ (submissions h).tail := by
  obtain ⟨later, rfl⟩ := hsuffix
  induction later with
  | nil => exact fun s hs ↦ hs
  | cons event later ih =>
    obtain ⟨op, answer⟩ := event
    cases op with
    | submit => exact fun s hs ↦ mem_of_mem_tail (ih s hs)
    | isCancelled | mintAttemptId | authorize | resultFor | recordIntent | execute | recordResult
    | journalLength => exact ih

/-- **The transcript of the loop.** Whatever the adapter streams, and whatever becomes of the calls: a run
in which the calls of each turn that is followed by another one have ids of their own, and arguments that
are printed as they were streamed, submits nothing but transcripts. -/
theorem runLoop_submitsTranscripts (P : Platform) (stable : StablePrefix) (task : String)
    (config : LoopConfig) (env : LoopEnvironment)
    (hplain : StreamsPlainly P (runLoopIn P stable task config env)) :
    SubmitsTranscripts stable task (runLoopIn P stable task config env) := by
  intro request submission before hsuffix
  have hallowed := (@runLoopIn_left P stable task config env).grows.allowed hsuffix nil_suffix
  obtain ⟨history, hmessages, exchanges, hmatched, hcalls, rfl⟩ := hallowed.2.conversed
  have hstreamed : ∀ s ∈ submissions before, callsIn P s = streamedIn s := fun s hs ↦ by
    rw [callsIn_eq]
    refine (map_congr_left fun call hcall ↦ ?_).trans (map_id _)
    rw [(hplain s (submissions_tail hsuffix s hs)).2 call hcall]
    rfl
  have hmade : callsMade request.messages =
      ((submissions before).reverse.map streamedIn).filter (!·.isEmpty) := by
    rw [hmessages, callsMade_history, hcalls, calledIn]
    refine congrArg _ (map_congr_left fun s hs ↦ hstreamed s (mem_reverse.1 hs))
  refine ⟨⟨exchanges, hmatched, hmessages⟩, fun calls hcalls ↦ ?_, hmade⟩
  rw [hmade] at hcalls
  obtain ⟨s, hs, rfl⟩ := mem_map.1 (mem_of_mem_filter hcalls)
  exact (hplain s (submissions_tail hsuffix s (mem_reverse.1 hs))).1

end

/-- What is shown of the text of an empty object. -/
def objectPlatform : Platform :=
  ⟨fun text ↦ if text = "\x7b\x7d" then some (.object []) else none,
    fun json ↦ match json with
      | .object [] => "\x7b\x7d"
      | _ => "null", id, id⟩

/-- The provider makes these calls in the first turn, and pauses in the others. -/
def calling (ids : List String) : LoopEnvironment
  | h, op => answering (if (submissions h).isEmpty then
      ⟨ids.flatMap fun id ↦ [.toolCallDelta id "report-progress" "\x7b\x7d", .toolCallComplete id],
        some 1, .ok ⟨.toolUse, { outputTokens := some 1 }, none⟩⟩
      else pausing) h op

theorem runLoop_submitsTranscripts_one :
    SubmitsTranscripts ⟨"", "none"⟩ "task" (runLoopIn objectPlatform ⟨"", "none"⟩ "task" briefLoop
      (calling ["a"])) :=
  runLoop_submitsTranscripts objectPlatform ⟨"", "none"⟩ "task" briefLoop (calling ["a"]) (by
    unfold StreamsPlainly
    decide)

theorem exists_suffix_of_mem {h : LoopHistory} {s : SubmitRequest × AdapterReply}
    (hs : s ∈ submissions h) :
    ∃ before, (⟨.submit s.1, s.2⟩ : RunLoopEvent) :: before <:+ h := by
  induction h with
  | nil => cases hs
  | cons event h ih =>
    obtain ⟨op, answer⟩ := event
    have hrest (hs : s ∈ submissions h) :
        ∃ before, (⟨.submit s.1, s.2⟩ : RunLoopEvent) :: before <:+ ⟨op, answer⟩ :: h := by
      obtain ⟨before, hbefore⟩ := ih hs
      exact ⟨before, hbefore.trans (suffix_cons _ _)⟩
    cases op with
    | submit request =>
      rcases mem_cons.1 hs with rfl | hs
      · exact ⟨h, suffix_refl _⟩
      · exact hrest hs
    | isCancelled | mintAttemptId | authorize | resultFor | recordIntent | execute | recordResult
    | journalLength => exact hrest hs

/-- Two calls with one id are sent back with the one id. -/
theorem not_submitsTranscripts :
    ¬∀ P stable task config env, SubmitsTranscripts stable task (runLoopIn P stable task config env) := by
  intro h
  have hnodup : ∀ s ∈ submissions (runLoopIn objectPlatform ⟨"", "none"⟩ "task" briefLoop
      (calling ["a", "a"])).2, ∀ calls ∈ callsMade s.1.messages, (calls.map (·.callId)).Nodup := by
    intro s hs
    obtain ⟨before, hsuffix⟩ := exists_suffix_of_mem hs
    exact (h _ _ _ _ _ _ _ _ hsuffix).once
  exact absurd hnodup (by decide)

end FamiliarAi
