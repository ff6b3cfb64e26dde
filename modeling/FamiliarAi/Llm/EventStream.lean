import FamiliarAi.Llm.Attempt
import FamiliarAi.Text.Split

/-!
# The event stream of a response

A response arrives as a stream of bytes, in chunks that may end anywhere. The stream consists of frames,
each ended by a blank line, and a frame is read when its end has arrived. What becomes of a response is a
matter of its frames alone: it does not depend on the chunks (`streamMessages_chunks`).
-/

namespace FamiliarAi

open Text List

structure WireUsage where
  inputTokens : Option ℕ := none
  outputTokens : Option ℕ := none
  cacheCreationInputTokens : Option ℕ := none
  cacheReadInputTokens : Option ℕ := none

structure WireMessageDelta where
  stopReason : Option String
  stopDetails : Option (Option String)

/-- The events that change the outcome. Those of other kinds are kept as they are. -/
inductive SseEvent (α : Type)
  | messageStart (model : String) (usage : WireUsage)
  | messageDelta (delta : WireMessageDelta) (usage : WireUsage)
  | other (event : α)

structure StreamOutcome where
  stopReason : Option String := none
  stopDetailsCategory : Option String := none
  usage : WireUsage := {}
  resolvedModel : Option String := none
  providerRequestId : Option String := none

def mergeUsage (prev new : WireUsage) : WireUsage where
  inputTokens := new.inputTokens <|> prev.inputTokens
  outputTokens := new.outputTokens <|> prev.outputTokens
  cacheCreationInputTokens := new.cacheCreationInputTokens <|> prev.cacheCreationInputTokens
  cacheReadInputTokens := new.cacheReadInputTokens <|> prev.cacheReadInputTokens

def applyEvent {α : Type} (outcome : StreamOutcome) : SseEvent α → StreamOutcome
  | .messageStart model usage =>
    { outcome with resolvedModel := some model, usage := mergeUsage outcome.usage usage }
  | .messageDelta delta usage =>
    { outcome with
      stopReason := delta.stopReason <|> outcome.stopReason
      stopDetailsCategory := match delta.stopDetails with
        | some category => category
        | none => outcome.stopDetailsCategory
      usage := mergeUsage outcome.usage usage }
  | .other _ => outcome

/-- The blank line that ends a frame. -/
def frameMark : List UInt8 :=
  [10, 10]

/-- Where the first mark begins. -/
def frameEnd? (buf : List UInt8) : Option ℕ :=
  (List.range buf.length).find? fun n ↦ frameMark.isPrefixOf (buf.drop n)

theorem frameEnd?_eq_some {buf : List UInt8} {n : ℕ} (h : frameEnd? buf = some n) :
    n < buf.length ∧ OccursAt frameMark buf n ∧ ∀ m < n, ¬OccursAt frameMark buf m := by
  obtain ⟨hoccurs, hn, hfirst⟩ := find?_range_eq_some.1 h
  refine ⟨mem_range.1 hn, isPrefixOf_iff_prefix.1 hoccurs, fun m hm hprefix ↦ ?_⟩
  have hnot := hfirst m hm
  rw [ isPrefixOf_iff_prefix.2 hprefix] at hnot
  cases hnot

theorem frameEnd?_eq_none {buf : List UInt8} (h : frameEnd? buf = none) (n : ℕ) :
    ¬OccursAt frameMark buf n := by
  intro hoccurs
  have hlength := hoccurs.add_length_le (cons_ne_nil _ _)
  refine absurd ( isPrefixOf_iff_prefix.2 hoccurs) (find?_eq_none.1 h n (mem_range.2 ?_))
  change n + 2 ≤ _ at hlength
  omega

def decodeFrame (bytes : List UInt8) : Except AdapterError String :=
  (fromUtf8 bytes).mapError fun error ↦ .ambiguous s!"SSE frame was not valid UTF-8: {error}"

/-- The complete frames in the buffer, and what is left of it. -/
def drainSseFrames (buf : List UInt8) : Except AdapterError (List String × List UInt8) :=
  match _h : frameEnd? buf with
  | none => .ok ([], buf)
  | some n => do
    let frame ← decodeFrame (buf.take n)
    let (frames, rest) ← drainSseFrames (buf.drop (n + 2))
    return (frame :: frames, rest)
termination_by buf.length
decreasing_by
  have hn := (frameEnd?_eq_some ‹_›).1
  rw [length_drop]
  omega

section

variable {α : Type} (parse : String → Option (SseEvent α))

/-- The data of a frame, line by line, is what `parse` reads an event from. -/
def parseSseFrame (frame : String) : Option (SseEvent α) :=
  let data := ['\n'].intercalate <| ((lines frame.toList).filterMap
    (stripPrefix? "data:".toList)).map (·.dropWhile Text.isWhiteSpace)
  if data = [] ∨ data = "[DONE]".toList then none else parse (String.ofList data)

/-- What was read of a stream. -/
structure StreamReading (α : Type) where
  outcome : StreamOutcome
  events : List (SseEvent α) := []

def StreamReading.frame (r : StreamReading α) (frame : String) : StreamReading α :=
  match parseSseFrame parse frame with
  | none => r
  | some event => ⟨applyEvent r.outcome event, r.events ++ [event]⟩

def readChunks (r : StreamReading α) (byteBuf : List UInt8) :
    List (List UInt8) → Option AdapterError × StreamReading α
  | [] => (none, r)
  | chunk :: chunks =>
    match drainSseFrames (byteBuf ++ chunk) with
    | .error error => (some error, r)
    | .ok (frames, byteBuf) =>
      readChunks (frames.foldl (StreamReading.frame parse) r) byteBuf chunks

/-- The outcome of a response, and the events that were delivered on the way. -/
def streamMessages (providerRequestId : Option String) (chunks : List (List UInt8)) :
    Except AdapterError StreamOutcome × List (SseEvent α) :=
  let (failed, r) := readChunks parse { outcome := { providerRequestId } } [] chunks
  match failed, r.outcome.stopReason with
  | some error, _ => (.error error, r.events)
  | none, none =>
    (.error (.ambiguous "stream ended before a stop reason was received"), r.events)
  | none, some _ => (.ok r.outcome, r.events)

end

/-- The frames are what lies between the first mark and the next one behind it, and so on, and what is
left has no mark. -/
inductive FramedAs : List UInt8 → List (List UInt8) → List UInt8 → Prop
  | rest {bytes : List UInt8} (hnone : ∀ n, ¬OccursAt frameMark bytes n) : FramedAs bytes [] bytes
  | frame {bytes rest : List UInt8} {frames : List (List UInt8)} {n : ℕ}
    (hn : OccursAt frameMark bytes n) (hfirst : ∀ m < n, ¬OccursAt frameMark bytes m)
    (h : FramedAs (bytes.drop (n + 2)) frames rest) :
    FramedAs bytes (bytes.take n :: frames) rest

section

variable {bytes bytes' rest rest' : List UInt8} {frames frames' : List (List UInt8)}

theorem FramedAs.flatten (h : FramedAs bytes frames rest) :
    (frames.flatMap (· ++ frameMark)) ++ rest = bytes := by
  induction h with
  | rest => rfl
  | @frame bytes rest frames n hn _ _ ih =>
    obtain ⟨after, hafter⟩ := hn
    have hdrop : bytes.drop (n + 2) = after := by
      rw [← drop_drop, ← hafter]
      rfl
    rw [flatMap_cons, append_assoc, ih, hdrop, append_assoc, hafter, take_append_drop]

theorem FramedAs.unmarked (h : FramedAs bytes frames rest) (n : ℕ) : ¬OccursAt frameMark rest n := by
  induction h with
  | rest hnone => exact hnone n
  | frame _ _ _ ih => exact ih

/-- Frames without a mark, which end in no line feed either, are what is read of the stream that is
made of them. -/
theorem framedAs_flatMap
    (h : ∀ frame ∈ frames, ∀ n < frame.length, ¬OccursAt frameMark (frame ++ [10]) n) :
    FramedAs (frames.flatMap (· ++ frameMark)) frames [] := by
  induction frames with
  | nil =>
    exact .rest fun n hn ↦
      absurd (hn.add_length_le (cons_ne_nil _ _)) (by change ¬n + 2 ≤ 0; omega)
  | cons frame frames ih =>
    obtain ⟨hframe, hframes⟩ := forall_mem_cons.1 h
    have hbytes (m : ℕ) (hm : m ≤ frame.length) :
        (frame ++ frameMark ++ frames.flatMap (· ++ frameMark)).drop m =
          (frame ++ [10]).drop m ++ 10 :: frames.flatMap (· ++ frameMark) := by
      rw [← drop_append_of_le_length (by simp; omega)]
      simp [frameMark]
    have hstep := @FramedAs.frame (frame ++ frameMark ++ frames.flatMap (· ++ frameMark)) [] frames
      frame.length ?_ (fun m hm hoccurs ↦ hframe m hm ?_) ?_
    · rw [append_assoc, take_left, ← append_assoc] at hstep
      exact hstep
    · rw [OccursAt, append_assoc, drop_left]
      exact prefix_append _ _
    · rw [OccursAt, hbytes m hm.le] at hoccurs
      refine prefix_of_prefix_length_le hoccurs (prefix_append _ _) ?_
      rw [length_drop, length_append]
      change 2 ≤ _ + 1 - m
      omega
    · rw [← drop_drop, append_assoc, drop_left]
      exact ih hframes

theorem FramedAs.eq (h : FramedAs bytes frames rest) (h' : FramedAs bytes frames' rest') :
    frames = frames' ∧ rest = rest' := by
  induction h generalizing frames' rest' with
  | rest hnone =>
    cases h' with
    | rest => exact ⟨rfl, rfl⟩
    | frame hn => exact absurd hn (hnone _)
  | @frame bytes rest frames n hn hfirst _ ih =>
    cases h' with
    | rest hnone => exact absurd hn (hnone _)
    | @frame _ _ _ m hm hfirst' h' =>
      obtain rfl : n = m := Nat.le_antisymm (not_lt.1 fun hlt ↦ hfirst _ hlt hm)
        (not_lt.1 fun hlt ↦ hfirst' _ hlt hn)
      obtain ⟨rfl, rfl⟩ := ih h'
      exact ⟨rfl, rfl⟩

/-- What is left is cut together with what follows it. -/
theorem FramedAs.append (h : FramedAs bytes frames rest)
    (h' : FramedAs (rest ++ bytes') frames' rest') :
    FramedAs (bytes ++ bytes') (frames ++ frames') rest' := by
  induction h with
  | rest => exact h'
  | @frame bytes rest frames n hn hfirst _ ih =>
    have hlength : n + 2 ≤ bytes.length := hn.add_length_le (cons_ne_nil _ _)
    have hdrop {m : ℕ} (hm : m ≤ bytes.length) :
        (bytes ++ bytes').drop m = bytes.drop m ++ bytes' := drop_append_of_le_length hm
    have hstep := @FramedAs.frame (bytes ++ bytes') _ _ n
      (by rw [OccursAt, hdrop (by omega)]; exact hn.trans (prefix_append _ _))
      (fun m hm hoccurs ↦ hfirst m hm ?_) (hdrop hlength ▸ ih h')
    · rwa [take_append_of_le_length (by omega)] at hstep
    · rw [OccursAt, hdrop (by omega)] at hoccurs
      exact prefix_of_prefix_length_le hoccurs (prefix_append _ _)
        (by rw [length_drop]; change 2 ≤ _; omega)

theorem drainSseFrames_spec (buf : List UInt8) : ∃ frames rest, FramedAs buf frames rest ∧
    drainSseFrames buf = (frames.mapM decodeFrame).map (·, rest) := by
  fun_induction drainSseFrames buf with
  | case1 buf hnone => exact ⟨[], buf, .rest (frameEnd?_eq_none hnone), rfl⟩
  | case2 buf n hsome ih =>
    obtain ⟨-, hn, hfirst⟩ := frameEnd?_eq_some hsome
    obtain ⟨frames, rest, hframes, hdrain⟩ := ih
    refine ⟨_, rest, .frame hn hfirst hframes, ?_⟩
    rw [hdrain, mapM_cons]
    cases decodeFrame (buf.take n) with
    | error => rfl
    | ok frame => cases frames.mapM decodeFrame <;> rfl

end

/-! ### Chunks -/

def SseEvent.reported {α : Type} (amount : WireUsage → Option ℕ) : SseEvent α → Option ℕ
  | messageStart _ usage | messageDelta _ usage => amount usage
  | other _ => none

def lastReported {α : Type} (amount : WireUsage → Option ℕ) (events : List (SseEvent α)) : Option ℕ :=
  (events.filterMap (SseEvent.reported amount)).getLast?

section

variable {α : Type} {parse : String → Option (SseEvent α)} {r : StreamReading α}
  {providerRequestId : Option String} {byteBuf rest : List UInt8} {chunks chunks' frames : List (List UInt8)}
  {texts : List String} {amount : WireUsage → Option ℕ}

theorem foldl_frame : texts.foldl (StreamReading.frame parse) r =
    ⟨(texts.filterMap (parseSseFrame parse)).foldl applyEvent r.outcome,
      r.events ++ texts.filterMap (parseSseFrame parse)⟩ := by
  induction texts generalizing r with
  | nil => simp
  | cons text texts ih =>
    rw [foldl_cons, ih, StreamReading.frame]
    cases hevent : parseSseFrame parse text with
    | none => rw [filterMap_cons_none hevent]
    | some event => simp [filterMap_cons_some hevent]

theorem amount_foldl_applyEvent (hamount : ∀ prev new, amount (mergeUsage prev new) =
      (amount new <|> amount prev)) {events : List (SseEvent α)} {outcome : StreamOutcome} :
    amount (events.foldl applyEvent outcome).usage =
      (lastReported amount events <|> amount outcome.usage) := by
  induction events generalizing outcome with
  | nil => rfl
  | cons event events ih =>
    have hevent : amount (applyEvent outcome event).usage =
        (event.reported amount <|> amount outcome.usage) := by
      cases event with
      | other => rfl
      | messageStart _ usage | messageDelta _ usage => exact hamount _ _
    rw [foldl_cons, ih, lastReported, lastReported, hevent]
    rcases hreported : event.reported amount with _ | n
    · rw [filterMap_cons_none hreported]; rfl
    rw [filterMap_cons_some hreported, getLast?_cons]
    cases (events.filterMap (SseEvent.reported amount)).getLast? <;> rfl

theorem readChunks_spec (hbuf : ∀ n, ¬OccursAt frameMark byteBuf n)
    (h : FramedAs (byteBuf ++ chunks.flatten) frames rest) :
    (∀ error, frames.mapM decodeFrame = .error error →
      (readChunks parse r byteBuf chunks).1 = some error) ∧
    ∀ texts, frames.mapM decodeFrame = .ok texts →
      readChunks parse r byteBuf chunks = (none, texts.foldl (StreamReading.frame parse) r) := by
  induction chunks generalizing r byteBuf frames with
  | nil =>
    obtain ⟨rfl, -⟩ := h.eq (.rest (by simpa using hbuf))
    refine ⟨fun _ ↦ nofun, ?_⟩
    rintro _ ⟨⟩
    rfl
  | cons chunk chunks ih =>
    obtain ⟨first, byteBuf', hfirst, hdrain⟩ := drainSseFrames_spec (byteBuf ++ chunk)
    obtain ⟨later, rest', hlater, -⟩ := drainSseFrames_spec (byteBuf' ++ chunks.flatten)
    rw [flatten_cons, ← append_assoc] at h
    obtain ⟨rfl, rfl⟩ := h.eq (hfirst.append hlater)
    rw [readChunks, hdrain, mapM_append]
    rcases hdecoded : first.mapM decodeFrame with _ | texts
    · exact ⟨fun error herror ↦ congrArg some (Except.error.inj herror), nofun⟩
    obtain ⟨hfails, hreads⟩ := ih (r := texts.foldl (StreamReading.frame parse) r)
      hfirst.unmarked hlater
    rcases hrest : later.mapM decodeFrame with error | texts'
    · exact ⟨fun e he ↦ hfails e (he ▸ hrest), nofun⟩
    refine ⟨nofun, ?_⟩
    rintro _ ⟨⟩
    rw [foldl_append]
    exact hreads texts' hrest

theorem mapM_decodeFrame (h : ∀ frame ∈ frames, ∃ text, fromUtf8 frame = .ok text) :
    ∃ texts, frames.mapM decodeFrame = .ok texts ∧ texts.filterMap (parseSseFrame parse) =
      frames.filterMap fun frame ↦ (fromUtf8 frame).toOption.bind (parseSseFrame parse) := by
  induction frames with
  | nil => exact ⟨[], rfl, rfl⟩
  | cons frame frames ih =>
    obtain ⟨⟨text, htext⟩, hframes⟩ := forall_mem_cons.1 h
    obtain ⟨texts, htexts, hevents⟩ := ih hframes
    refine ⟨text :: texts, by rw [mapM_cons, decodeFrame, htext, htexts]; rfl, ?_⟩
    rw [filterMap_cons, filterMap_cons, htext, hevents]
    rfl

/-- **Streams round trip.** What a stream of such frames delivers, however it is cut into chunks, are
the events of the frames, each once and in their order. -/
theorem streamMessages_frames {chunks frames : List (List UInt8)}
    (parse : String → Option (SseEvent α)) (providerRequestId : Option String)
    (hframes : ∀ frame ∈ frames, (∃ text, fromUtf8 frame = .ok text) ∧
      ∀ n < frame.length, ¬OccursAt frameMark (frame ++ [10]) n)
    (h : chunks.flatten = frames.flatMap (· ++ frameMark)) :
    (streamMessages parse providerRequestId chunks).2 =
      frames.filterMap fun frame ↦ (fromUtf8 frame).toOption.bind (parseSseFrame parse) := by
  have hcut := framedAs_flatMap fun frame hmem ↦ (hframes frame hmem).2
  obtain ⟨texts, htexts, hread⟩ := @mapM_decodeFrame α parse _ fun frame hmem ↦
    (hframes frame hmem).1
  have hreads := (@readChunks_spec α parse { outcome := { providerRequestId } } [] [] chunks frames
    hcut.unmarked (h ▸ hcut)).2 texts htexts
  rw [streamMessages, hreads, foldl_frame, ← hread]
  dsimp only
  split <;> rfl

/-- One frame, in two chunks. -/
theorem streamMessages_frames_split : (streamMessages (fun text ↦ some (.other text)) none
    [[100, 97, 116, 97, 58, 49, 10], [10]]).2.length = 1 := by
  rw [@streamMessages_frames _ [[100, 97, 116, 97, 58, 49, 10], [10]] [[100, 97, 116, 97, 58, 49]]
    _ _ (forall_mem_singleton.2 ⟨⟨"data:1", by decide⟩, by decide⟩) rfl]
  decide

end

end FamiliarAi
