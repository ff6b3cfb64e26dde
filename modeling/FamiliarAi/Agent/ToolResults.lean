import FamiliarAi.Core.Outcome
import FamiliarAi.Text.Basic

/-!
# Results that are shown in part

The result of a tool call may be longer than a model should read. Of a result with too many lines it is
shown a window: the first lines, a notice and the last lines. The whole result is retained, and its lines
can be read by their numbers, which begin with one. The output of a command that is not shown in a window
is cut at a number of bytes.
-/

namespace FamiliarAi

open Text List

/-! ### Windows -/

structure ToolResultWindow where
  maxLines : ℕ
  headLines : ℕ
  tailLines : ℕ

structure BoundedToolResult where
  visible : List Char
  truncated : Bool
  elidedLines : ℕ
  pagingHandle : Option String

def joinedLines (ls : List (List Char)) : List Char :=
  ['\n'].intercalate ls

def elisionNotice (elided : ℕ) : Option String → List Char
  | some handle =>
    s!"... [{elided} lines elided; full output retrievable via read-file at {handle}] ...".toList
  | none => s!"... [{elided} lines elided] ...".toList

def boundToolResult (full : List Char) (window : ToolResultWindow) (pagingHandle : Option String) :
    BoundedToolResult :=
  let ls := lines full
  if ls.length ≤ window.maxLines then ⟨full, false, 0, none⟩
  else
    let headCount := min window.headLines ls.length
    let tailCount := min window.tailLines (ls.length - headCount)
    let elided := ls.length - headCount - tailCount
    { visible := joinedLines (ls.take headCount) ++ '\n' :: (elisionNotice elided pagingHandle ++
        '\n' :: joinedLines (ls.drop (ls.length - tailCount)))
      truncated := true
      elidedLines := elided
      pagingHandle }

/-- The lines with these numbers. The count is `usize` arithmetic. -/
def sliceLines (full : List Char) (startLine endLine : ℕ) : Option (List Char) :=
  let start := max startLine 1
  let stop := max endLine start
  (checkedAdd (stop - start) 1).map fun count ↦
    joinedLines (((lines full).drop (start - 1)).take count)

def ShowsLines (text : List Char) (ls : List (List Char)) : Prop :=
  text = joinedLines ls ∨ text = joinedLines ls ++ ['\n']

/-- Nothing is lost of a result that is shown in a window. -/
structure Lossless (full : List Char) (window : ToolResultWindow) (handle : Option String) : Prop where
  whole : (boundToolResult full window handle).truncated = false →
    (boundToolResult full window handle).visible = full
  shown : ∀ result, boundToolResult full window handle = result → result.truncated = true →
    ∃ head tail, head = min window.headLines (lines full).length ∧
      tail = min window.tailLines ((lines full).length - head) ∧
      head + result.elidedLines + tail = (lines full).length ∧
      ShowsLines result.visible ((lines full).take head ++
        elisionNotice result.elidedLines handle :: (lines full).drop (head + result.elidedLines)) ∧
      (result.elidedLines ≠ 0 → head + result.elidedLines ≤ maxU64 →
        sliceLines full (head + 1) (head + result.elidedLines) =
          some (joinedLines (((lines full).drop head).take result.elidedLines)))
  sliced : ∀ start stop, start ≤ maxU64 → stop ≤ maxU64 → (sliceLines full start stop).isSome
  /-- Ranges that follow each other make up the text. -/
  paged : ∀ cuts : List ℕ, (∀ cut ∈ cuts, cut ≤ maxU64) → IsChain (· < ·) (0 :: cuts) →
    (0 :: cuts).getLast? = some (lines full).length →
      joinedLines (((0 :: cuts).zip cuts).map fun c ↦ (sliceLines full (c.1 + 1) c.2).getD []) =
        joinedLines (lines full)

section

variable {full : List Char} {window : ToolResultWindow} {handle : Option String}
  {ls ls' : List (List Char)}

theorem joinedLines_append (h : ls ≠ []) (h' : ls' ≠ []) :
    joinedLines (ls ++ ls') = joinedLines ls ++ '\n' :: joinedLines ls' := by
  induction ls with
  | nil => exact absurd rfl h
  | cons l ls ih =>
    rcases ls with _ | ⟨second, ls⟩
    · simp [joinedLines, intercalate_cons_of_ne_nil h']
    have hrest := ih (cons_ne_nil _ _)
    simp only [joinedLines, cons_append, intercalate_cons_cons] at hrest ⊢
    simp only [hrest, append_assoc]

theorem sliceLines_eq {start stop : ℕ} (hstart : 1 ≤ start) (h : start ≤ stop)
    (hstop : stop ≤ maxU64) : sliceLines full start stop =
      some (joinedLines (((lines full).drop (start - 1)).take (stop + 1 - start))) := by
  have hcount : checkedAdd (stop - start) 1 = some (stop + 1 - start) := by
    rw [checkedAdd, if_pos (by omega)]
    exact congrArg some (by omega)
  simp only [sliceLines, max_eq_left hstart, max_eq_left h, hcount, Option.map_some]

theorem isSome_sliceLines {start stop : ℕ} (hstart : start ≤ maxU64) (hstop : stop ≤ maxU64) :
    (sliceLines full start stop).isSome := by
  have hmax : maxU64 = 2 ^ 64 - 1 := rfl
  rw [sliceLines, Option.isSome_map, checkedAdd, if_pos (by omega)]
  rfl

theorem joinedLines_pages {cuts : List ℕ} {first last : ℕ} (hcuts : IsChain (· < ·) (first :: cuts))
    (hlast : (first :: cuts).getLast? = some last) (hlength : last ≤ ls.length) :
    first + cuts.length ≤ last ∧ (∀ c ∈ (first :: cuts).zip cuts, c.1 < c.2) ∧
      joinedLines (((first :: cuts).zip cuts).map fun c ↦
        joinedLines ((ls.drop c.1).take (c.2 - c.1))) =
          joinedLines ((ls.drop first).take (last - first)) := by
  induction cuts generalizing first with
  | nil =>
    obtain rfl : first = last := by simpa using hlast
    simp [joinedLines]
  | cons second cuts ih =>
    obtain ⟨hlt, hrest⟩ := isChain_cons_cons.1 hcuts
    obtain ⟨hle, hranges, hpages⟩ := ih hrest (by simpa using hlast)
    refine ⟨by rw [length_cons]; omega, forall_mem_cons.2 ⟨hlt, hranges⟩, ?_⟩
    rw [zip_cons_cons, map_cons]
    rcases cuts with _ | ⟨third, cuts⟩
    · obtain rfl : second = last := by simpa using hlast
      simp [joinedLines]
    rw [length_cons] at hle
    have hsplit : (ls.drop first).take (last - first) =
        (ls.drop first).take (second - first) ++ (ls.drop second).take (last - second) := by
      have hsum : last - first = second - first + (last - second) := by omega
      rw [hsum, take_add, drop_drop, Nat.add_sub_cancel' hlt.le]
    have hne {a b : ℕ} (h : a < b) (hb : b ≤ last) : (ls.drop a).take (b - a) ≠ [] := by
      rw [← length_pos_iff, length_take, length_drop]
      omega
    rw [hsplit, joinedLines_append (hne hlt (by omega)) (hne (by omega) le_rfl), ← hpages]
    simp [joinedLines]

theorem joinedLines_notice (notice : List Char) (head tail : List (List Char)) (hhead : head ≠ []) :
    ShowsLines (joinedLines head ++ '\n' :: (notice ++ '\n' :: joinedLines tail))
      (head ++ notice :: tail) := by
  have hnotice : joinedLines (head ++ notice :: tail) =
      joinedLines head ++ '\n' :: joinedLines (notice :: tail) := joinedLines_append hhead (cons_ne_nil _ _)
  rw [ShowsLines, hnotice]
  cases tail with
  | nil => exact .inr (by simp [joinedLines])
  | cons l ls => exact .inl (by simp [joinedLines, intercalate_cons_cons])

/-- **Windows are lossless** where some of the first lines are kept. -/
theorem lossless_of_pos (full : List Char) (window : ToolResultWindow) (handle : Option String)
    (hhead : 0 < window.headLines) : Lossless full window handle where
  whole h := by
    unfold boundToolResult at h ⊢
    dsimp only at h ⊢
    split_ifs at h ⊢
    rfl
  shown result hresult htruncated := by
    unfold boundToolResult at hresult
    dsimp only at hresult
    split_ifs at hresult with hfits
    · cases hresult
      cases htruncated
    · obtain rfl := hresult
      dsimp only
      refine ⟨_, _, rfl, rfl, by omega, ?_, fun helided hmax ↦ ?_⟩
      · have hdrop : (lines full).length - min window.tailLines
            ((lines full).length - min window.headLines (lines full).length) =
          min window.headLines (lines full).length + ((lines full).length -
            min window.headLines (lines full).length - min window.tailLines
              ((lines full).length - min window.headLines (lines full).length)) := by omega
        rw [hdrop]
        refine joinedLines_notice _ _ _ ?_
        rw [← length_pos_iff, length_take]
        omega
      · rw [sliceLines_eq (by omega) (by omega) hmax]
        congr 3
        omega
  sliced _ _ := isSome_sliceLines
  paged cuts hmax hcuts hlast := by
    obtain ⟨-, hranges, hpages⟩ := joinedLines_pages hcuts hlast le_rfl
    rw [drop_zero, Nat.sub_zero, take_length] at hpages
    rw [← hpages]
    refine congrArg joinedLines (map_congr_left fun c hc ↦ ?_)
    have hlt := hranges c hc
    rw [sliceLines_eq (by omega) (by omega) (hmax _ (of_mem_zip hc).2)]
    simp

/-- Of three lines the first one is shown. -/
theorem lossless_three : Lossless "a\nb\nc".toList ⟨2, 1, 0⟩ none :=
  lossless_of_pos _ _ _ Nat.one_pos

/-- A window without first lines shows an empty line instead. -/
theorem not_lossless : ¬∀ full window handle, Lossless full window handle := by
  intro h
  obtain ⟨_, _, rfl, -, -, hshows, -⟩ := (h "a".toList ⟨0, 0, 0⟩ none).shown _ rfl rfl
  exact absurd hshows (by unfold ShowsLines; decide +kernel)

end

/-! ### Commands -/

structure TokenDisciplineConfig where
  enabled : Bool
  toolResultMaxLines : ℕ
  toolResultHeadLines : ℕ
  toolResultTailLines : ℕ

def toolOutputHandle (callId : String) : String :=
  s!".familiar/tool-output/{callId}.txt"

/-- `String::truncate`, which panics unless a character ends there. -/
def truncate (text : List Char) (newLen : ℕ) : Option (List Char) :=
  if newLen ≤ byteSize text then text.inits.find? (byteSize · = newLen) else some text

def combinedOutput (code : Option ℤ) (stdout stderr : List Char) : List Char :=
  let status := match code with
    | some code => s!"Some({code})"
    | none => "None"
  s!"exit_status={status}\nstdout:\n".toList ++ (stdout ++ ("\nstderr:\n".toList ++ stderr))

/-- What is returned of a command that has ended. The whole output is `retained` if that is possible.
Without a text the call panics. -/
def runCommand (discipline : TokenDisciplineConfig) (maxOutputBytes : ℕ) (callId : String)
    (code : Option ℤ) (stdout stderr : List Char) (retained : Bool) : Option (List Char) :=
  let combined := combinedOutput code stdout stderr
  let capped := if maxOutputBytes < byteSize combined then truncate combined maxOutputBytes
    else some combined
  if discipline.enabled ∧ discipline.toolResultMaxLines < (lines combined).length then
    if retained then
      some (boundToolResult combined ⟨discipline.toolResultMaxLines, discipline.toolResultHeadLines,
        discipline.toolResultTailLines⟩ (some (toolOutputHandle callId))).visible
    else capped
  else capped

/-- A text is returned, within the cap, and the beginning of the output where no window is shown. -/
def SafelyBounded (discipline : TokenDisciplineConfig) (maxOutputBytes : ℕ) (callId : String)
    (code : Option ℤ) (stdout stderr : List Char) (retained : Bool) : Prop :=
  ∃ text, runCommand discipline maxOutputBytes callId code stdout stderr retained = some text ∧
    byteSize text ≤ maxOutputBytes ∧
      (discipline.enabled = false → text <+: combinedOutput code stdout stderr)

/-- A character of the text ends at the byte, or none comes before it. -/
def IsCharBoundary (text : List Char) (n : ℕ) : Prop :=
  ∃ before, before <+: text ∧ byteSize before = n

/-- The bytes of the first lines and of the last ones, of the notice and of two line feeds. -/
def windowBytes (text : List Char) (headLines tailLines : ℕ) (handle : Option String) : ℕ :=
  let head := (lines text).take headLines
  let rest := (lines text).drop headLines
  byteSize (joinedLines head) +
    byteSize (elisionNotice (rest.length - tailLines) handle) +
      byteSize (joinedLines (rest.drop (rest.length - tailLines))) + 2

theorem byteSize_visible {full : List Char} {window : ToolResultWindow} {handle : Option String}
    (h : window.maxLines < (lines full).length) :
    byteSize (boundToolResult full window handle).visible =
      windowBytes full window.headLines window.tailLines handle := by
  have hfeed : Char.utf8Size '\n' = 1 := rfl
  have htake : (lines full).take (min window.headLines (lines full).length) =
      (lines full).take window.headLines := by
    rw [← take_take, take_length]
  have helided : (lines full).length - min window.headLines (lines full).length -
      min window.tailLines ((lines full).length - min window.headLines (lines full).length) =
        (lines full).length - window.headLines - window.tailLines := by omega
  have hdrop : (lines full).drop ((lines full).length - min window.tailLines
      ((lines full).length - min window.headLines (lines full).length)) = (lines full).drop
        (window.headLines + ((lines full).length - window.headLines - window.tailLines)) := by
    rcases le_total window.headLines (lines full).length with hle | hle
    · exact congrArg (drop · _) (by omega)
    · rw [drop_eq_nil_of_le (by omega), drop_eq_nil_of_le (by omega)]
  unfold boundToolResult windowBytes
  dsimp only
  rw [if_neg (Nat.not_le.2 h), htake, helided, hdrop, length_drop, drop_drop]
  simp only [byteSize_append, byteSize_cons, hfeed]
  omega

theorem truncate_eq_some {text cut : List Char} {n : ℕ} (h : n < byteSize text)
    (hcut : truncate text n = some cut) : cut <+: text ∧ byteSize cut = n := by
  rw [truncate, if_pos h.le] at hcut
  exact ⟨(mem_inits _ _).1 (mem_of_find?_eq_some hcut), by simpa using find?_some hcut⟩

theorem exists_truncate {text : List Char} {n : ℕ} (h : n < byteSize text)
    (hboundary : IsCharBoundary text n) : ∃ cut, truncate text n = some cut := by
  obtain ⟨before, hbefore, hsize⟩ := hboundary
  rw [truncate, if_pos h.le, ← Option.isSome_iff_exists, find?_isSome]
  exact ⟨before, (mem_inits _ _).2 hbefore, by simpa using hsize⟩

/-- The cap is kept at the end of a character. -/
theorem exists_capped_iff {text : List Char} {n : ℕ} {p : Prop} :
    (∃ cut, (if n < byteSize text then truncate text n else some text) = some cut ∧
      byteSize cut ≤ n ∧ (p → cut <+: text)) ↔ byteSize text ≤ n ∨ IsCharBoundary text n := by
  by_cases h : n < byteSize text
  · rw [if_pos h, or_iff_right (Nat.not_le.2 h)]
    constructor
    · rintro ⟨cut, hcut, -⟩
      exact ⟨cut, truncate_eq_some h hcut⟩
    · intro hboundary
      obtain ⟨cut, hcut⟩ := exists_truncate h hboundary
      obtain ⟨hbefore, hsize⟩ := truncate_eq_some h hcut
      exact ⟨cut, hcut, hsize.le, fun _ ↦ hbefore⟩
  · rw [if_neg h]
    exact iff_of_true ⟨text, rfl, Nat.not_lt.1 h, fun _ ↦ prefix_rfl⟩ (.inl (Nat.not_lt.1 h))

/-- **Bounded commands.** Where the window is shown, its bytes have to be within the cap, and
elsewhere a character has to end at the cap if the output is longer. -/
theorem runCommand_safelyBounded_iff (discipline : TokenDisciplineConfig) (maxOutputBytes : ℕ)
    (callId : String) (code : Option ℤ) (stdout stderr : List Char) (retained : Bool) :
    SafelyBounded discipline maxOutputBytes callId code stdout stderr retained ↔
      if discipline.enabled ∧ discipline.toolResultMaxLines <
          (lines (combinedOutput code stdout stderr)).length ∧ retained then
        windowBytes (combinedOutput code stdout stderr) discipline.toolResultHeadLines
          discipline.toolResultTailLines (some (toolOutputHandle callId)) ≤ maxOutputBytes
      else byteSize (combinedOutput code stdout stderr) ≤ maxOutputBytes ∨
        IsCharBoundary (combinedOutput code stdout stderr) maxOutputBytes := by
  unfold SafelyBounded runCommand
  generalize combinedOutput code stdout stderr = combined
  dsimp only
  generalize hcapped : (if maxOutputBytes < byteSize combined then truncate combined maxOutputBytes
    else some combined) = capped
  have hcapped_iff : (∃ cut, capped = some cut ∧ byteSize cut ≤ maxOutputBytes ∧
      (discipline.enabled = false → cut <+: combined)) ↔
        byteSize combined ≤ maxOutputBytes ∨ IsCharBoundary combined maxOutputBytes :=
    hcapped ▸ exists_capped_iff
  by_cases hlong : discipline.enabled ∧ discipline.toolResultMaxLines < (lines combined).length
  · obtain ⟨henabled, hlines⟩ := hlong
    rw [if_pos ⟨henabled, hlines⟩]
    rcases retained with _ | _
    · rwa [if_neg Bool.false_ne_true, if_neg fun h ↦ Bool.false_ne_true h.2.2]
    have hsize := @byteSize_visible combined ⟨discipline.toolResultMaxLines,
      discipline.toolResultHeadLines, discipline.toolResultTailLines⟩
        (some (toolOutputHandle callId)) hlines
    rw [if_pos rfl, if_pos ⟨henabled, hlines, rfl⟩, ← hsize]
    constructor
    · rintro ⟨text, htext, hfits, -⟩
      rwa [Option.some.inj htext]
    · exact fun hfits ↦ ⟨_, rfl, hfits, fun hdisabled ↦ absurd (hdisabled.symm.trans henabled) nofun⟩
  · rwa [if_neg hlong, if_neg fun h ↦ hlong ⟨h.1, h.2.1⟩]

/-- A cap inside a character, and a window of two long lines. -/
theorem not_safelyBounded :
    ¬SafelyBounded ⟨false, 10, 4, 4⟩ 29 "call-1" (some 0) "é".toList [] true ∧
      ¬SafelyBounded ⟨true, 1, 1, 1⟩ 29 "call-1" (some 0) [] [] true := by
  constructor
  · rintro ⟨text, hrun, -⟩
    have hpanic : runCommand ⟨false, 10, 4, 4⟩ 29 "call-1" (some 0) "é".toList [] true = none := by
      decide +kernel
    cases hpanic.symm.trans hrun
  · rintro ⟨text, hrun, hsize, -⟩
    have hlong : (runCommand ⟨true, 1, 1, 1⟩ 29 "call-1" (some 0) [] [] true).all
        (byteSize · ≤ 29) = false := by decide +kernel
    rw [hrun, Option.all_some, decide_eq_false_iff_not] at hlong
    exact hlong hsize

end FamiliarAi
