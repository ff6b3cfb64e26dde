import FamiliarAi.Agent.Transcript
import FamiliarAi.Core.Outcome
import FamiliarAi.Text.Basic
import Mathlib.Data.List.Dedup
import Mathlib.Data.List.Sort
import Mathlib.Data.List.TakeWhile

/-!
# The stream of a local runtime

A local runtime streams the fragments of a tool call under its index, and the id and the name of the call
in any of them. The reader passes them on under the id, which may come late, and completes the calls by
walking a hash map: the order of that walk is a parameter here.
-/

namespace FamiliarAi.LocalStream

open Text List

structure PendingCall where
  id : Option String := none
  name : String := ""

structure CallFragment where
  index : ℕ
  id : Option String
  name : Option String
  arguments : Option String

/-- `Value::as_u64`. -/
def asU64? : JsonValue → Option ℕ
  | .number text =>
    if text.toList.all Char.isDigit ∧ Nat.ofDigitChars 10 text.toList 0 ≤ maxU64 then
      some (Nat.ofDigitChars 10 text.toList 0)
    else none
  | _ => none

def CallFragment.ofJson (call : JsonValue) : CallFragment where
  index := ((call.get? "index").bind asU64?).getD 0
  id := (call.get? "id").bind JsonValue.asStr?
  name := ((call.get? "function").bind (·.get? "name")).bind JsonValue.asStr?
  arguments := ((call.get? "function").bind (·.get? "arguments")).bind JsonValue.asStr?

namespace PendingCall

variable (entry : PendingCall) (f : CallFragment)

/-- The first id stays, and so does the first name that is not empty. -/
def take : PendingCall where
  id := entry.id <|> f.id
  name := if entry.name = "" then f.name.getD "" else entry.name

/-- The fragment brings what the entry has not had. -/
def announced : Bool :=
  entry.id.isNone && f.id.isSome || (entry.name = "" && f.name.isSome)

def callId (index : ℕ) : String :=
  entry.id.getD s!"call_{index}"

/-- What is passed on of a fragment. -/
def deltas : List StreamEvent :=
  let callId := (entry.take f).callId f.index
  (if entry.announced f then [.toolCallDelta callId (entry.take f).name ""] else []) ++
    ((f.arguments.filter (· ≠ "")).map (.toolCallDelta callId "")).toList

end PendingCall

/-- What was read of a body. The indices are the keys of the map of pending calls. -/
structure LocalReading where
  indices : List ℕ := []
  pending : ℕ → PendingCall := fun _ ↦ {}
  finishReason : Option String := none
  usage : UsageCategories := {}
  resolvedModel : Option String := none
  sawAnyChunk : Bool := false
  events : List StreamEvent := []

def parseUsage (usage : JsonValue) : UsageCategories :=
  let amount (details : String) (key : String) : Option ℕ :=
    (((usage.get? details).bind (·.get? key))).bind asU64?
  let cachedTokens := amount "prompt_tokens_details" "cached_tokens"
  { uncachedInputTokens :=
      ((usage.get? "prompt_tokens").bind asU64?).map (· - cachedTokens.getD 0)
    cacheReadTokens := cachedTokens
    outputTokens := (usage.get? "completion_tokens").bind asU64?
    reasoningOutputTokens := amount "completion_tokens_details" "reasoning_tokens" }

section

variable (chunk : JsonValue)

def firstChoice? : Option JsonValue :=
  ((chunk.get? "choices").bind JsonValue.asArray?).bind (·.head?)

def finishReason? : Option String :=
  ((firstChoice? chunk).bind (·.get? "finish_reason")).bind JsonValue.asStr?

def textDelta? : Option String :=
  (((firstChoice? chunk).bind (·.get? "delta")).bind (·.get? "content")).bind JsonValue.asStr?

def callFragments : List CallFragment :=
  (((((firstChoice? chunk).bind (·.get? "delta")).bind (·.get? "tool_calls")).bind
    JsonValue.asArray?).getD []).map .ofJson

end

namespace LocalReading

variable (P : Platform) (r : LocalReading)

def fragment (f : CallFragment) : LocalReading :=
  { r with
    indices := r.indices.insert f.index
    pending := Function.update r.pending f.index ((r.pending f.index).take f)
    events := r.events ++ (r.pending f.index).deltas f }

/-- What the chunk says beside its calls. -/
def said (chunk : JsonValue) : LocalReading :=
  { r with
    finishReason := finishReason? chunk <|> r.finishReason
    usage := ((chunk.get? "usage").map parseUsage).getD r.usage
    resolvedModel := (chunk.get? "model").bind JsonValue.asStr? <|> r.resolvedModel
    sawAnyChunk := true
    events := r.events ++ (((textDelta? chunk).filter (· ≠ "")).map .textDelta).toList }

def chunk (chunk : JsonValue) : LocalReading :=
  (callFragments chunk).foldl fragment (r.said chunk)

end LocalReading

/-- `str::split` at the blank lines. -/
def splitBlank : List Char → List (List Char)
  | '\n' :: '\n' :: rest => [] :: splitBlank rest
  | c :: rest =>
    match splitBlank rest with
    | [] => [[c]]
    | frame :: frames => (c :: frame) :: frames
  | [] => [[]]

def frameData (frame : List Char) : String :=
  String.ofList ((lines frame).flatMap fun line ↦
    ((stripPrefix? "data:".toList line).getD []).dropWhile Text.isWhiteSpace)

def chunkOf (P : Platform) (data : String) : Option JsonValue :=
  if data = "" ∨ data = "[DONE]" then none else P.parseJson data

def LocalReading.data (P : Platform) (r : LocalReading) (data : String) : LocalReading :=
  match chunkOf P data with
  | some chunk => r.chunk chunk
  | none => { r with sawAnyChunk := r.sawAnyChunk || data = "[DONE]" }

def stopReason? : String → Option AdapterStopReason
  | "stop" => some .endTurn
  | "tool_calls" => some .toolUse
  | "length" => some .maxTokens
  | "content_filter" => some .contentFilter
  | _ => none

def reading (P : Platform) (body : String) : LocalReading :=
  ((splitBlank body.toList).map frameData).foldl (LocalReading.data P) {}

/-- The result, with the model that has answered, and the events that the observer has seen. -/
def consumeStream (P : Platform) (iterate : List ℕ → List ℕ) (body : String) :
    Except AdapterError (SubmitOutcome × Option String) × List StreamEvent :=
  let r := reading P body
  if !r.sawAnyChunk then
    (.error (.ambiguous "local runtime stream carried no parsable chunks"), r.events)
  else
    match r.finishReason with
    | none => (.error (.ambiguous "local runtime stream ended without a finish_reason"), r.events)
    | some finishReason =>
      (match stopReason? finishReason with
      | some stopReason => .ok (⟨stopReason, r.usage, none⟩, r.resolvedModel)
      | none => .error (.ambiguous
          s!"local runtime reported unrecognized finish_reason {P.debugStr finishReason}"),
        r.events ++ (iterate r.indices).map fun index ↦
          .toolCallComplete ((r.pending index).callId index))

/-! ### The calls of a response -/

def chunks (P : Platform) (body : String) : List JsonValue :=
  ((splitBlank body.toList).map frameData).filterMap (chunkOf P)

def idOf (fs : List CallFragment) : Option String :=
  fs.findSome? (·.id)

def nameOf (fs : List CallFragment) : String :=
  ((fs.filterMap (·.name)).find? (· ≠ "")).getD ""

def argumentsOf (fs : List CallFragment) : String :=
  String.join (fs.filterMap (·.arguments))

def callOf (index : ℕ) (fs : List CallFragment) (arguments : String) : ToolCallPayload :=
  ⟨(PendingCall.mk (idOf fs) (nameOf fs)).callId index, nameOf fs, arguments⟩

/-- A call for each index, in the order of the indices. -/
def callsOf (fs : List CallFragment) : List ToolCallPayload :=
  ((fs.map (·.index)).dedup.insertionSort (· ≤ ·)).map fun index ↦
    callOf index (fs.filter (·.index = index)) (argumentsOf (fs.filter (·.index = index)))

/-- The collector has each call of the response, whole and in its place. -/
def YieldsCalls (P : Platform) (iterate : List ℕ → List ℕ) (body : String) : Prop :=
  (TurnCollector.collect P (consumeStream P iterate body).2).completedCalls =
    (callsOf ((chunks P body).flatMap callFragments)).map (parsed P)

/-- The arguments that come with the first id or after it, or all if no id comes late. -/
def arrived (index : ℕ) (fs : List CallFragment) : String :=
  if (PendingCall.mk (idOf fs) (nameOf fs)).callId index = s!"call_{index}" then argumentsOf fs
  else argumentsOf (fs.dropWhile (·.id.isNone))

/-- The fragment has an id, a name or arguments. -/
def CallFragment.Speaks (f : CallFragment) : Prop :=
  f.id.isSome ∨ f.name.isSome ∨ f.arguments.any (· ≠ "")

section

variable {P : Platform} {r : LocalReading} {fs : List CallFragment} {f : CallFragment} {index : ℕ}
  {events events' later : List StreamEvent} {ids : List String} {callId : String}

/-- No call is complete yet. -/
def Incomplete (events : List StreamEvent) : Prop :=
  ∀ id, .toolCallComplete id ∉ events

theorem fragmentsOf_append (h : Incomplete later) :
    fragmentsOf callId (events ++ later) = fragmentsOf callId events ++ fragmentsOf callId later := by
  induction later using reverseRecOn with
  | nil => simp [fragmentsOf]
  | append_singleton later event ih =>
    have hrest := ih fun id hid ↦ h id (mem_append_left _ hid)
    unfold fragmentsOf at hrest ⊢
    rw [← append_assoc, foldl_append, hrest, foldl_append]
    cases event with
    | toolCallDelta id => by_cases hid : id = callId <;> simp [hid]
    | toolCallComplete id => exact absurd (mem_append_right _ (mem_singleton_self _)) (h id)
    | textDelta | usageDelta | stop => rfl

theorem incomplete_deltas (entry : PendingCall) (f : CallFragment) :
    Incomplete (entry.deltas f) := by
  intro id hid
  unfold PendingCall.deltas at hid
  rcases mem_append.1 hid with hid | hid
  · split_ifs at hid <;> simp at hid
  · simp at hid

def added (entry : PendingCall) (f : CallFragment) : List (String × String) :=
  (if entry.announced f then [((entry.take f).name, "")] else []) ++
    ((f.arguments.filter (· ≠ "")).map ("", ·)).toList

theorem fragmentsOf_deltas (entry : PendingCall) (f : CallFragment) (id : String) :
    fragmentsOf id (entry.deltas f) =
      if (entry.take f).callId f.index = id then added entry f else [] := by
  unfold PendingCall.deltas added
  cases f.arguments.filter (· ≠ "") <;> by_cases hannounced : entry.announced f <;>
    by_cases hid : (entry.take f).callId f.index = id <;> simp [fragmentsOf, hannounced, hid]

theorem added_eq_nil : added {} f = [] ↔ ¬f.Speaks := by
  obtain ⟨index, id, name, arguments⟩ := f
  cases id <;> cases name <;> cases arguments <;>
    simp [added, CallFragment.Speaks, PendingCall.announced]

theorem firstNamed_append (l l' : List String) : ((l ++ l').find? (· ≠ "")).getD "" =
    if (l.find? (· ≠ "")).getD "" = "" then (l'.find? (· ≠ "")).getD ""
    else (l.find? (· ≠ "")).getD "" := by
  rw [find?_append]
  cases hfound : l.find? (· ≠ "") with
  | none => rfl
  | some name => exact (if_neg (by simpa using find?_some hfound)).symm

theorem idOf_snoc : idOf (fs ++ [f]) = (idOf fs <|> f.id) := by
  simp [idOf, findSome?_append]

theorem nameOf_snoc :
    nameOf (fs ++ [f]) = if nameOf fs = "" then f.name.getD "" else nameOf fs := by
  rw [nameOf, filterMap_append, firstNamed_append]
  change (if nameOf fs = "" then _ else nameOf fs) = _
  refine congrArg (if nameOf fs = "" then · else nameOf fs) ?_
  cases hname : f.name with
  | none => simp [hname]
  | some name => by_cases hempty : name = "" <;> simp [hname, hempty]

theorem argumentsOf_snoc : argumentsOf (fs ++ [f]) = argumentsOf fs ++ f.arguments.getD "" := by
  cases harguments : f.arguments <;> simp [argumentsOf, String.join, harguments]

theorem take_eq : (PendingCall.mk (idOf fs) (nameOf fs)).take f =
    ⟨idOf (fs ++ [f]), nameOf (fs ++ [f])⟩ := by
  rw [idOf_snoc, nameOf_snoc]
  rfl

/-- What was passed on of a call that has these fragments, under the id that it has now. -/
structure Heard (index : ℕ) (fs : List CallFragment) (events : List StreamEvent) : Prop where
  call : streamedCall (callOf index fs "").callId (fragmentsOf (callOf index fs "").callId events) =
    callOf index fs (arrived index fs)
  silent : fragmentsOf (callOf index fs "").callId events = [] ↔ ∀ f ∈ fs, ¬f.Speaks
  fresh : idOf fs = none → ∀ id ≠ s!"call_{index}", fragmentsOf id events = []

theorem Heard.congr (h : Heard index fs events)
    (hsame : ∀ id, fragmentsOf id events' = fragmentsOf id events) : Heard index fs events' where
  call := by rw [hsame, h.call]
  silent := by rw [hsame, h.silent]
  fresh hnone id hid := by rw [hsame, h.fresh hnone id hid]

theorem streamedCall_append (callId : String) (l l' : List (String × String)) :
    streamedCall callId (l ++ l') = ⟨callId,
      if (streamedCall callId l).capabilityName = "" then (streamedCall callId l').capabilityName
        else (streamedCall callId l).capabilityName,
      (streamedCall callId l).arguments ++ (streamedCall callId l').arguments⟩ := by
  unfold streamedCall
  rw [map_append, map_append, firstNamed_append]
  simp [String.join_append]

theorem streamedCall_added (callId : String) (entry : PendingCall) : streamedCall callId (added entry f) =
    ⟨callId, if entry.announced f then (entry.take f).name else "", f.arguments.getD ""⟩ := by
  have harguments : streamedCall callId ((f.arguments.filter (· ≠ "")).map ("", ·)).toList =
      ⟨callId, "", f.arguments.getD ""⟩ := by
    cases f.arguments with
    | none => rfl
    | some arguments => by_cases hne : arguments = "" <;>
        simp [streamedCall, Option.filter_some, hne, String.join]
  rw [added, streamedCall_append, harguments]
  by_cases hannounced : entry.announced f <;> by_cases hname : (entry.take f).name = "" <;>
    simp [streamedCall, hannounced, hname, String.join]

theorem arrived_snoc (hid : (callOf index (fs ++ [f]) "").callId = (callOf index fs "").callId) :
    arrived index (fs ++ [f]) = arrived index fs ++ f.arguments.getD "" := by
  change PendingCall.callId _ _ = PendingCall.callId _ _ at hid
  rw [arrived, arrived, hid]
  split_ifs with hfirst
  · exact argumentsOf_snoc
  · have hnone : fs.dropWhile (·.id.isNone) ≠ [] := by
      intro hdrop
      refine hfirst (congrArg (Option.getD · _) (findSome?_eq_none_iff.2 fun f hf ↦ ?_))
      simpa using dropWhile_eq_nil_iff.1 hdrop f hf
    rw [dropWhile_append, if_neg (by simpa using hnone), argumentsOf_snoc]

theorem arrived_late (hnone : idOf fs = none)
    (hid : (callOf index (fs ++ [f]) "").callId ≠ (callOf index fs "").callId) :
    arrived index (fs ++ [f]) = f.arguments.getD "" ∧ f.id.isSome := by
  change PendingCall.callId _ _ ≠ PendingCall.callId _ _ at hid
  have hsome : f.id.isSome := by
    by_contra hlate
    rw [idOf_snoc, hnone, Option.not_isSome_iff_eq_none.1 hlate] at hid
    exact hid rfl
  rw [hnone] at hid
  change _ ≠ s!"call_{index}" at hid
  rw [arrived, if_neg hid]
  have hdrop : (fs ++ [f]).dropWhile (·.id.isNone) = [f] := by
    rw [dropWhile_append_of_pos fun g hg ↦ by simp [findSome?_eq_none_iff.1 hnone g hg],
      dropWhile_cons_of_neg (by simpa [Option.isSome_iff_ne_none] using hsome)]
  rw [hdrop]
  exact ⟨@argumentsOf_snoc [] f, hsome⟩

theorem Heard.snoc (h : Heard index fs events) (hindex : f.index = index) :
    Heard index (fs ++ [f]) (events ++ (PendingCall.mk (idOf fs) (nameOf fs)).deltas f) := by
  have hkey (id : String) : fragmentsOf id
      (events ++ (PendingCall.mk (idOf fs) (nameOf fs)).deltas f) = fragmentsOf id events ++
        if (callOf index (fs ++ [f]) "").callId = id then added ⟨idOf fs, nameOf fs⟩ f else [] := by
    rw [fragmentsOf_append (incomplete_deltas _ _), fragmentsOf_deltas, take_eq, hindex]
    rfl
  have hadded := @streamedCall_added f (callOf index (fs ++ [f]) "").callId ⟨idOf fs, nameOf fs⟩
  rw [take_eq] at hadded
  have hfresh : idOf (fs ++ [f]) = none → ∀ id ≠ s!"call_{index}", fragmentsOf id
      (events ++ (PendingCall.mk (idOf fs) (nameOf fs)).deltas f) = [] := fun hnone id hid ↦ by
    have hkeyed : (callOf index (fs ++ [f]) "").callId = s!"call_{index}" := by
      rw [callOf, hnone]
      rfl
    have hbefore : idOf fs = none := findSome?_eq_none_iff.2 fun g hg ↦
      findSome?_eq_none_iff.1 hnone g (mem_append_left _ hg)
    rw [hkey, hkeyed, if_neg hid.symm, append_nil]
    exact h.fresh hbefore id hid
  by_cases hid : (callOf index (fs ++ [f]) "").callId = (callOf index fs "").callId
  · refine ⟨?_, ?_, hfresh⟩
    · have hname : (if nameOf fs = "" then if (PendingCall.mk (idOf fs) (nameOf fs)).announced f then
          nameOf (fs ++ [f]) else "" else nameOf fs) = nameOf (fs ++ [f]) := by
        rw [nameOf_snoc]
        by_cases hempty : nameOf fs = ""
        · cases hnamed : f.name <;> simp [PendingCall.announced, hempty, hnamed]
        · rw [if_neg hempty, if_neg hempty]
      rw [hkey, if_pos rfl, streamedCall_append, hadded, hid, h.call]
      exact (congrArg₂ (ToolCallPayload.mk _) hname (arrived_snoc hid).symm).trans
        (congrArg (ToolCallPayload.mk · _ _) hid.symm)
    · rw [hkey, if_pos rfl, append_eq_nil_iff, hid, h.silent, forall_mem_append,
        forall_mem_singleton]
      refine and_congr_right fun hsilent ↦ ?_
      have hnone : idOf fs = none := findSome?_eq_none_iff.2 fun g hg ↦
        Option.not_isSome_iff_eq_none.1 fun hsome ↦ hsilent g hg (.inl hsome)
      have hunnamed : nameOf fs = "" := by
        have hnames : fs.filterMap (·.name) = [] := filterMap_eq_nil_iff.2 fun g hg ↦
          Option.not_isSome_iff_eq_none.1 fun hsome ↦ hsilent g hg (.inr (.inl hsome))
        rw [nameOf, hnames]
        rfl
      rw [hnone, hunnamed]
      exact added_eq_nil
  · have hnone : idOf fs = none := by
      by_contra hsome
      obtain ⟨id, hsome⟩ := Option.ne_none_iff_exists'.1 hsome
      refine hid (congrArg (Option.getD · _) ?_)
      rw [idOf_snoc, hsome]
      rfl
    obtain ⟨harrived, hsome⟩ := arrived_late hnone hid
    have hannounced : (PendingCall.mk (idOf fs) (nameOf fs)).announced f = true := by
      rw [PendingCall.announced, hnone, hsome]
      rfl
    have hempty : fragmentsOf (callOf index (fs ++ [f]) "").callId events = [] := by
      refine h.fresh hnone _ fun hfallback ↦ hid (hfallback.trans ?_)
      rw [callOf, hnone]
      rfl
    refine ⟨?_, ?_, hfresh⟩
    · rw [hkey, if_pos rfl, hempty, nil_append, hadded, if_pos hannounced, harrived]
      rfl
    · rw [hkey, if_pos rfl, hempty, nil_append, added, if_pos hannounced]
      refine iff_of_false (cons_ne_nil _ _) fun hsilent ↦ ?_
      exact hsilent f (by simp) (.inl hsome)

/-- What is kept of the fragments. -/
structure Keeps (fs : List CallFragment) (r : LocalReading) : Prop where
  incomplete : Incomplete r.events
  nodup : r.indices.Nodup
  mem_indices : ∀ index, index ∈ r.indices ↔ index ∈ fs.map (·.index)
  alone : ∀ index, (∀ f ∈ fs, f.index = index) →
    r.pending index = ⟨idOf fs, nameOf fs⟩ ∧ Heard index fs r.events

theorem keeps_nil : Keeps [] {} where
  incomplete _ := not_mem_nil
  nodup := .nil
  mem_indices _ := Iff.rfl
  alone index _ := ⟨rfl, by simp [streamedCall, callOf, arrived, fragmentsOf, argumentsOf, nameOf],
    by simp [fragmentsOf], fun _ _ _ ↦ rfl⟩

theorem Keeps.fragment (h : Keeps fs r) : Keeps (fs ++ [f]) (r.fragment f) where
  incomplete id hid := by
    rcases mem_append.1 hid with hid | hid
    · exact h.incomplete id hid
    · exact incomplete_deltas _ _ id hid
  nodup := h.nodup.insert
  mem_indices index := by
    rw [LocalReading.fragment, mem_insert_iff, h.mem_indices, map_append, mem_append,
      map_singleton, mem_singleton, or_comm]
  alone index hindex := by
    obtain ⟨hfs, hf⟩ := forall_mem_append.1 hindex
    obtain ⟨hpending, hheard⟩ := h.alone index hfs
    have hlast := forall_mem_singleton.1 hf
    unfold LocalReading.fragment
    dsimp only
    rw [hlast, Function.update_self, hpending]
    exact ⟨take_eq, hheard.snoc hlast⟩

theorem Keeps.congr {r' : LocalReading} (h : Keeps fs r) (hindices : r'.indices = r.indices)
    (hpending : r'.pending = r.pending) (hevents : r'.events = r.events ++ later)
    (htext : ∀ event ∈ later, ∃ delta, event = .textDelta delta) : Keeps fs r' := by
  have hincomplete : Incomplete later := fun id hid ↦ by
    obtain ⟨_, hdelta⟩ := htext _ hid
    cases hdelta
  have hsame (id : String) : fragmentsOf id r'.events = fragmentsOf id r.events := by
    have hnone : fragmentsOf id later = [] := by
      refine @foldlRecOn _ _ (· = []) later _ [] rfl fun _ hb event hevent ↦ ?_
      obtain ⟨_, rfl⟩ := htext event hevent
      exact hb
    rw [hevents, fragmentsOf_append hincomplete, hnone, append_nil]
  refine ⟨fun id hid ↦ ?_, hindices ▸ h.nodup, fun index ↦ hindices ▸ h.mem_indices index,
    fun index hindex ↦ ?_⟩
  · rcases mem_append.1 (hevents ▸ hid) with hid | hid
    · exact h.incomplete id hid
    · exact hincomplete id hid
  · rw [hpending]
    exact ⟨(h.alone index hindex).1, (h.alone index hindex).2.congr hsame⟩

theorem Keeps.foldl {fs' : List CallFragment} (h : Keeps fs r) :
    Keeps (fs ++ fs') (fs'.foldl .fragment r) ∧
      (fs'.foldl .fragment r).finishReason = r.finishReason ∧
        (fs'.foldl .fragment r).sawAnyChunk = r.sawAnyChunk := by
  induction fs' generalizing fs r with
  | nil => exact ⟨(append_nil fs).symm ▸ h, rfl, rfl⟩
  | cons f fs' ih =>
    rw [← singleton_append, ← append_assoc]
    exact ih h.fragment

theorem keeps_data (P : Platform) (datas : List String) :
    Keeps ((datas.filterMap (chunkOf P)).flatMap callFragments) (datas.foldl (.data P) {}) ∧
      ((datas.foldl (LocalReading.data P) {}).finishReason.isSome ↔
        ∃ chunk ∈ datas.filterMap (chunkOf P), (finishReason? chunk).isSome) ∧
      ((datas.foldl (LocalReading.data P) {}).finishReason.isSome →
        (datas.foldl (LocalReading.data P) {}).sawAnyChunk = true) := by
  induction datas using reverseRecOn with
  | nil => exact ⟨keeps_nil, by simp, by simp⟩
  | append_singleton datas data ih =>
    obtain ⟨hkeeps, hfinished, hsaw⟩ := ih
    rw [foldl_append, foldl_cons, foldl_nil, LocalReading.data, filterMap_append]
    rcases hchunk : chunkOf P data with _ | chunk
    · rw [filterMap_cons_none hchunk, filterMap_nil, append_nil]
      refine ⟨hkeeps.congr rfl rfl (append_nil _).symm (by simp), hfinished, fun hsome ↦ ?_⟩
      simp [hsaw hsome]
    rw [filterMap_cons_some hchunk, filterMap_nil, flatMap_append, flatMap_singleton]
    have hsaid : Keeps ((datas.filterMap (chunkOf P)).flatMap callFragments)
        ((datas.foldl (LocalReading.data P) {}).said chunk) :=
      hkeeps.congr rfl rfl rfl fun event hevent ↦ by
        obtain ⟨_, -, rfl⟩ := Option.map_eq_some_iff.1 (Option.mem_toList.1 hevent)
        exact ⟨_, rfl⟩
    obtain ⟨hkeeps', hreason, hsaw'⟩ := @Keeps.foldl _ _ (callFragments chunk) hsaid
    refine ⟨hkeeps', ?_, fun _ ↦ hsaw'⟩
    dsimp only
    rw [LocalReading.chunk, hreason, LocalReading.said]
    cases hfound : finishReason? chunk with
    | none => simpa [hfound] using hfinished
    | some reason => simp [hfound]

/-! ### Completions -/

theorem streamedAfter_append (seen : List StreamEvent) :
    streamedAfter seen (events ++ later) =
      streamedAfter seen events ++ streamedAfter (seen ++ events) later := by
  induction events generalizing seen with
  | nil => rw [nil_append, append_nil, streamedAfter, nil_append]
  | cons event events ih =>
    rw [cons_append, streamedAfter, ih, streamedAfter, append_assoc, append_assoc]
    rfl

theorem streamedAfter_incomplete (h : Incomplete events) (seen : List StreamEvent) :
    streamedAfter seen events = [] := by
  induction events generalizing seen with
  | nil => rfl
  | cons event events ih =>
    rw [streamedAfter, ih fun id hid ↦ h id (mem_cons_of_mem _ hid)]
    cases event with
    | toolCallComplete id => exact absurd mem_cons_self (h id)
    | textDelta | toolCallDelta | usageDelta | stop => rfl

theorem streamedAfter_completions (ids : List String) (seen : List StreamEvent) :
    ((streamedAfter seen (ids.map .toolCallComplete)).map (·.callId)).Sublist ids ∧
      ((streamedAfter seen (ids.map .toolCallComplete)).map (·.callId)).Nodup ∧
      ∀ id, fragmentsOf id seen = [] →
        id ∉ (streamedAfter seen (ids.map .toolCallComplete)).map (·.callId) := by
  induction ids generalizing seen with
  | nil => exact ⟨.slnil, .nil, fun _ _ ↦ not_mem_nil⟩
  | cons first ids ih =>
    obtain ⟨hsublist, hnodup, hgone⟩ := ih (seen ++ [.toolCallComplete first])
    have hafter (id : String) : fragmentsOf id (seen ++ [.toolCallComplete first]) =
        if first = id then [] else fragmentsOf id seen := foldl_append
    rw [map_cons, streamedAfter, completedBy]
    by_cases hempty : fragmentsOf first seen = []
    · rw [if_pos hempty]
      refine ⟨hsublist.cons _, hnodup, fun id hid ↦ hgone id ?_⟩
      rw [hafter, hid, ite_self]
    · rw [if_neg hempty]
      refine ⟨hsublist.cons_cons _, nodup_cons.2 ⟨hgone first ?_, hnodup⟩, fun id hid ↦ ?_⟩
      · rw [hafter, if_pos rfl]
      · refine not_mem_cons_of_ne_of_not_mem ?_ (hgone id (by rw [hafter, hid, ite_self]))
        rintro rfl
        exact hempty hid

theorem completedCalls_consumeStream (P : Platform) (iterate : List ℕ → List ℕ) (body : String) :
    (TurnCollector.collect P (consumeStream P iterate body).2).completedCalls =
      if (reading P body).finishReason.isSome then
        (streamedAfter (reading P body).events (((iterate (reading P body).indices).map fun index ↦
          ((reading P body).pending index).callId index).map .toolCallComplete)).map (parsed P)
      else [] := by
  obtain ⟨hkeeps, -, hsaw⟩ := keeps_data P ((splitBlank body.toList).map frameData)
  have hnone : Collects [] {} := fun _ ↦ rfl
  have hbefore := streamedAfter_incomplete hkeeps.incomplete []
  change streamedAfter [] (reading P body).events = [] at hbefore
  change (reading P body).finishReason.isSome → (reading P body).sawAnyChunk = true at hsaw
  rw [TurnCollector.collect, hnone.foldl, nil_append, consumeStream]
  rcases hreason : (reading P body).finishReason with _ | reason
  · dsimp only
    split <;> simp [hbefore]
  dsimp only
  rw [hsaw (hreason ▸ rfl), if_neg (by simp)]
  dsimp only
  rw [streamedAfter_append, hbefore, nil_append, map_map]
  rfl

theorem dedup_indices (hindex : ∀ f ∈ fs, f.index = index) (hne : fs ≠ []) :
    (fs.map (·.index)).dedup = [index] := by
  refine perm_singleton.1 ((perm_ext_iff_of_nodup (nodup_dedup _) (nodup_singleton _)).2 fun i ↦ ?_)
  rw [mem_dedup, mem_map, mem_singleton]
  constructor
  · rintro ⟨f, hf, rfl⟩
    exact hindex f hf
  · rintro rfl
    obtain ⟨f, hf⟩ := exists_mem_of_ne_nil fs hne
    exact ⟨f, hf, hindex f hf⟩

theorem callsOf_alone (hindex : ∀ f ∈ fs, f.index = index) (hne : fs ≠ []) :
    callsOf fs = [callOf index fs (argumentsOf fs)] := by
  have hall : fs.filter (·.index = index) = fs :=
    filter_eq_self.2 fun f hf ↦ decide_eq_true (hindex f hf)
  rw [callsOf, dedup_indices hindex hne, insertionSort_cons, insertionSort_nil,
    orderedInsert_nil, map_singleton, hall]

theorem Keeps.length_callsOf (h : Keeps fs r) : (callsOf fs).length = r.indices.length := by
  rw [callsOf, length_map, length_insertionSort]
  refine List.Perm.length_eq ((perm_ext_iff_of_nodup (nodup_dedup _) h.nodup).2 fun index ↦ ?_)
  rw [mem_dedup, h.mem_indices]

theorem map_parsed_callId (calls : List ToolCallPayload) :
    (calls.map (parsed P)).map (·.callId) = calls.map (·.callId) := by
  rw [map_map]
  refine map_congr_left fun call _ ↦ ?_
  rw [Function.comp_apply, parsed]
  split <;> rfl

theorem length_le_one_of_reverse (hnodup : ids.Nodup) (h : ids.reverse = ids) : ids.length ≤ 1 := by
  match ids, hnodup with
  | [], _ => exact Nat.zero_le 1
  | [_], _ => exact le_rfl
  | first :: second :: rest, hnodup =>
    have hlast : (second :: rest).getLast? = some first := by
      have hhead := congrArg head? h
      rwa [head?_reverse, getLast?_cons_cons] at hhead
    exact absurd (mem_of_getLast? hlast) (nodup_cons.1 hnodup).1

/-- **Streamed calls.** Whatever the order of the walk, the collector has each call of the response, whole
and in its place: exactly if there are no calls, or there is one call, a fragment of it has something to
say, no arguments that matter have come before its id, and the response gives a reason for its end. -/
theorem yieldsCalls_iff (P : Platform) (body : String) :
    (∀ iterate : List ℕ → List ℕ, (∀ l, (iterate l).Perm l) → YieldsCalls P iterate body) ↔
      (chunks P body).flatMap callFragments = [] ∨
        (∃ chunk ∈ chunks P body, (finishReason? chunk).isSome) ∧
          ∃ index, (∀ f ∈ (chunks P body).flatMap callFragments, f.index = index) ∧
            (∃ f ∈ (chunks P body).flatMap callFragments, f.Speaks) ∧
            parsed P (callOf index ((chunks P body).flatMap callFragments)
              (arrived index ((chunks P body).flatMap callFragments))) =
            parsed P (callOf index ((chunks P body).flatMap callFragments)
              (argumentsOf ((chunks P body).flatMap callFragments))) := by
  obtain ⟨hkeeps, hfinished, -⟩ := keeps_data P ((splitBlank body.toList).map frameData)
  unfold YieldsCalls
  simp only [completedCalls_consumeStream]
  change Keeps ((chunks P body).flatMap callFragments) (reading P body) at hkeeps
  change (reading P body).finishReason.isSome ↔ ∃ chunk ∈ chunks P body, _ at hfinished
  rw [← hfinished]
  generalize (chunks P body).flatMap callFragments = fs at hkeeps ⊢
  generalize reading P body = r at hkeeps ⊢
  rcases eq_or_ne fs [] with rfl | hne
  · refine iff_of_true (fun iterate hperm ↦ ?_) (.inl rfl)
    have hindices : r.indices = [] := eq_nil_iff_forall_not_mem.2 fun index hindex ↦
      not_mem_nil ((hkeeps.mem_indices index).1 hindex)
    rw [hindices, perm_nil.1 (hperm [])]
    exact ite_self _
  rw [or_iff_right hne]
  -- with one call only, there is only one walk
  have halone {index : ℕ} (hindex : ∀ f ∈ fs, f.index = index) {iterate : List ℕ → List ℕ}
      (hperm : ∀ l, (iterate l).Perm l) {calls : List ToolCallPayload}
      (hcalls : streamedAfter r.events (((iterate r.indices).map fun index ↦
        (r.pending index).callId index).map .toolCallComplete) = calls) :
      calls = [] ∧ (∀ f ∈ fs, ¬f.Speaks) ∨
        calls = [callOf index fs (arrived index fs)] ∧ ∃ f ∈ fs, f.Speaks := by
    obtain ⟨hpending, hheard⟩ := hkeeps.alone index hindex
    have hindices : r.indices = [index] := by
      refine perm_singleton.1 ((perm_ext_iff_of_nodup hkeeps.nodup
        (nodup_singleton _)).2 fun i ↦ ?_)
      rw [hkeeps.mem_indices, ← mem_dedup, dedup_indices hindex hne]
    rw [hindices, perm_singleton.1 (hperm [index]), map_singleton, map_singleton,
      hpending, streamedAfter, completedBy, streamedAfter, append_nil] at hcalls
    change (if fragmentsOf (callOf index fs "").callId r.events = [] then none else some
      (streamedCall (callOf index fs "").callId _)).toList = calls at hcalls
    by_cases hsilent : ∀ f ∈ fs, ¬f.Speaks
    · rw [if_pos (hheard.silent.2 hsilent)] at hcalls
      exact .inl ⟨hcalls.symm, hsilent⟩
    · rw [if_neg (mt hheard.silent.1 hsilent)] at hcalls
      exact .inr ⟨hcalls.symm.trans (congrArg (fun call ↦ [call]) hheard.call), by simpa using hsilent⟩
  constructor
  · intro h
    have hlength := hkeeps.length_callsOf
    have hpos : 0 < r.indices.length := by
      obtain ⟨f, hf⟩ := exists_mem_of_ne_nil fs hne
      exact length_pos_of_mem ((hkeeps.mem_indices f.index).2 (mem_map_of_mem hf))
    have hsome : r.finishReason.isSome := by
      by_contra hnone
      have hempty := congrArg List.length (h id fun _ ↦ .refl _)
      rw [if_neg hnone, length_nil, length_map] at hempty
      omega
    simp only [if_pos hsome] at h
    -- the calls are complete in the order of the walk, so it does not matter if it is reversed
    have hwalk (iterate : List ℕ → List ℕ) (hperm : ∀ l, (iterate l).Perm l) :
        ((callsOf fs).map (·.callId)).Nodup ∧ (callsOf fs).map (·.callId) =
          (iterate r.indices).map fun index ↦ (r.pending index).callId index := by
      obtain ⟨hsublist, hnodup, -⟩ := streamedAfter_completions ((iterate r.indices).map fun index ↦
        (r.pending index).callId index) r.events
      have hids := congrArg (List.map (·.callId)) (h iterate hperm)
      rw [map_parsed_callId, map_parsed_callId] at hids
      rw [hids] at hsublist hnodup
      refine ⟨hnodup, hsublist.eq_of_length ?_⟩
      rw [length_map, length_map, (hperm _).length_eq, hlength]
    obtain ⟨hnodup, hforth⟩ := hwalk id fun _ ↦ .refl _
    obtain ⟨-, hback⟩ := hwalk List.reverse reverse_perm
    have hone := length_le_one_of_reverse hnodup (by
      rw [hforth] at hback ⊢
      exact (map_reverse).symm.trans hback.symm)
    rw [length_map, hlength] at hone
    obtain ⟨index, hindices⟩ := length_eq_one_iff.1 (Nat.le_antisymm hone hpos)
    have hindex : ∀ f ∈ fs, f.index = index := fun f hf ↦ by
      have hmem := (hkeeps.mem_indices f.index).2 (mem_map_of_mem hf)
      rwa [hindices, mem_singleton] at hmem
    have hcalls := h id fun _ ↦ .refl _
    rw [callsOf_alone hindex hne] at hcalls
    rcases @halone index hindex id (fun _ ↦ .refl _) _ rfl with ⟨hempty, -⟩ | ⟨hcall, hspeaks⟩
    · rw [hempty] at hcalls
      cases hcalls
    · rw [hcall] at hcalls
      exact ⟨hsome, index, hindex, hspeaks, head_eq_of_cons_eq hcalls⟩
  · rintro ⟨hsome, index, hindex, hspeaks, hparsed⟩ iterate hperm
    rw [if_pos hsome, callsOf_alone hindex hne, map_singleton, ← hparsed]
    rcases halone hindex hperm rfl with ⟨-, hsilent⟩ | ⟨hcalls, -⟩
    · obtain ⟨f, hf, hspeaks⟩ := hspeaks
      exact absurd hspeaks (hsilent f hf)
    · rw [hcalls, map_singleton]

end

def tablePlatform (table : List (String × JsonValue)) : Platform :=
  ⟨fun text ↦ (table.find? (·.1 = text)).map (·.2), fun _ ↦ "", id, id⟩

def lastChunk (fragments : List JsonValue) : JsonValue :=
  .object [("choices", .array [.object [("delta", .object [("tool_calls", .array fragments)]),
    ("finish_reason", .string "tool_calls")]])]

def twoCalls : String :=
  "\x7b\"choices\":[\x7b\"delta\":\x7b\"tool_calls\":[\x7b\"index\":0,\"id\":\"a\"\x7d," ++
    "\x7b\"index\":1,\"id\":\"b\"\x7d]\x7d,\"finish_reason\":\"tool_calls\"\x7d]\x7d"

def lateId : String :=
  "\x7b\"choices\":[\x7b\"delta\":\x7b\"tool_calls\":[\x7b\"index\":0,\"function\":" ++
    "\x7b\"name\":\"f\",\"arguments\":\"1\"\x7d\x7d,\x7b\"index\":0,\"id\":\"a\"\x7d]\x7d," ++
      "\"finish_reason\":\"tool_calls\"\x7d]\x7d"

def samplePlatform : Platform :=
  tablePlatform [("1", .number "1"),
    (twoCalls, lastChunk [.object [("index", .number "0"), ("id", .string "a")],
      .object [("index", .number "1"), ("id", .string "b")]]),
    (lateId, lastChunk [.object [("index", .number "0"), ("function",
      .object [("name", .string "f"), ("arguments", .string "1")])],
        .object [("index", .number "0"), ("id", .string "a")]])]

theorem not_yieldsCalls : ¬YieldsCalls samplePlatform id ("data: " ++ twoCalls) ∧
    ¬YieldsCalls samplePlatform id ("data: " ++ lateId) := by
  constructor
  · intro h
    have hids := congrArg (List.map (·.callId)) h
    revert hids
    decide +kernel
  · intro h
    have hmalformed := congrArg (List.map (·.malformedJson)) h
    revert hmalformed
    decide +kernel

end FamiliarAi.LocalStream
