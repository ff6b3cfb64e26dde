import FamiliarAi.Agent.Capabilities
import FamiliarAi.Text.Basic

/-!
# Targeted edits

The three forms in which a call may say what a file is to hold: its whole text, blocks of text to be
searched for and replaced, and the hunks of a unified diff, which are read as such blocks. The
blocks are applied one after the other to a copy, each where its anchor occurs exactly once, and the
copy is used only if all of them could be applied. A block whose anchor is gone and whose
replacement occurs exactly once is taken to have been applied before.
-/

namespace FamiliarAi

open Text

inductive EditForm
  | wholeFile
  | searchReplace
  | unifiedDiff
  deriving DecidableEq

def EditForm.asStr : EditForm → String
  | wholeFile => "whole-file"
  | searchReplace => "search-replace"
  | unifiedDiff => "unified-diff"

def EditForm.parse (value : String) : Option EditForm :=
  [wholeFile, searchReplace, unifiedDiff].find? (·.asStr = value)

structure SearchReplaceBlock where
  search : String
  replace : String

inductive EditError
  | anchorDivergence (detail : String)
  | malformedEdit (detail : String)
  deriving DecidableEq

/-- What becomes of an edit that is not applied. The text of an anchor is cut for a diagnostic after
its eightieth byte, which panics inside a character. -/
inductive EditFailure
  | refused (error : EditError)
  | panicked
  deriving DecidableEq

/-- What a file is to hold, or holds already. -/
structure AppliedEdit where
  content : String
  alreadyApplied : Bool
  deriving DecidableEq

/-- Read one block of a payload. -/
def searchReplaceBlock (item : JsonValue) : Except EditError SearchReplaceBlock :=
  match (item.get? "search").bind JsonValue.asStr?, (item.get? "replace").bind JsonValue.asStr? with
  | none, _ => .error (.malformedEdit "search-replace block missing string \"search\"")
  | some _, none => .error (.malformedEdit "search-replace block missing string \"replace\"")
  | some search, some replace => .ok ⟨search, replace⟩

/-- Read a JSON array of blocks. `jsonError` is the parser's message for a text it rejects. -/
def Platform.parseSearchReplaceBlocks (P : Platform) (jsonError : String → String)
    (payload : String) : Except EditError (List SearchReplaceBlock) :=
  match P.parseJson payload with
  | none =>
    .error (.malformedEdit ("search-replace payload is not valid JSON: " ++ jsonError payload))
  | some parsed =>
    match parsed.asArray? with
    | none => .error (.malformedEdit "search-replace payload must be a JSON array of blocks")
    | some [] => .error (.malformedEdit "search-replace payload contains no blocks")
    | some items => items.mapM searchReplaceBlock

def isHunkHeader (line : List Char) : Bool :=
  ['@', '@'].isPrefixOf line

def hunkBodies : List (List Char) → List (List (List Char))
  | [] => []
  | line :: rest =>
    if isHunkHeader line then rest.takeWhile (!isHunkHeader ·) :: hunkBodies rest
    else hunkBodies rest

/-- A line of the text before the edit. -/
def anchorLine : List Char → Option (List Char)
  | '-' :: rest | ' ' :: rest => some rest
  | [] => some []
  | _ => none

/-- A line of the text after the edit. -/
def replacementLine : List Char → Option (List Char)
  | '+' :: rest | ' ' :: rest => some rest
  | [] => some []
  | _ => none

def joinLines (lines : List (List Char)) : String :=
  String.ofList (['\n'].intercalate lines)

def hunkBlock (body : List (List Char)) : Except EditError SearchReplaceBlock :=
  let anchor := body.filterMap anchorLine
  let replacement := body.filterMap replacementLine
  if anchor = [] ∧ replacement = [] then
    .error (.malformedEdit "unified-diff hunk has no context, removed, or added lines")
  else .ok ⟨joinLines anchor, joinLines replacement⟩

def parseUnifiedDiffBlocks (payload : String) : Except EditError (List SearchReplaceBlock) := do
  let blocks ← (hunkBodies (lines payload.toList)).mapM hunkBlock
  if blocks = [] then
    .error (.malformedEdit "unified-diff payload contains no @@ hunk headers")
  else .ok blocks

/-- The number of times that the pattern occurs, without overlaps, after so many characters. -/
def occurrencesAfter (pattern : List Char) : ℕ → List Char → ℕ
  | _, [] => 0
  | skip + 1, _ :: text => occurrencesAfter pattern skip text
  | 0, c :: text =>
    if pattern.isPrefixOf (c :: text) then 1 + occurrencesAfter pattern (pattern.length - 1) text
    else occurrencesAfter pattern 0 text

/-- `text.matches(pattern).count()`, for a pattern that is not empty. -/
def occurrences (pattern text : String) : ℕ :=
  occurrencesAfter pattern.toList 0 text.toList

def replaceFirst (pattern replacement : List Char) : List Char → List Char
  | [] => []
  | c :: text =>
    if pattern.isPrefixOf (c :: text) then replacement ++ (c :: text).drop pattern.length
    else c :: replaceFirst pattern replacement text

/-- The first characters that make up exactly so many bytes, if there are such. -/
def takeBytes : ℕ → List Char → Option (List Char)
  | 0, _ => some []
  | _ + 1, [] => none
  | n + 1, c :: text =>
    if c.utf8Size ≤ n + 1 then (takeBytes (n + 1 - c.utf8Size) text).map (c :: ·) else none
termination_by _ text => text.length

/-- `None` is a panic. -/
def truncateForDiagnostic (text : String) : Option String :=
  if text.utf8ByteSize ≤ 80 then some text
  else (takeBytes 80 text.toList).map fun cut ↦ String.ofList (cut ++ [Char.ofNat 0x2026])

namespace Platform

variable (P : Platform)

/-- The refusal of a block whose anchor does not occur exactly once. -/
def anchorDivergence (index : ℕ) (what search : String) : EditFailure :=
  match truncateForDiagnostic search with
  | none => .panicked
  | some text => .refused (.anchorDivergence ("edit " ++ toString index ++ ": " ++ what ++
      " (search: " ++ P.debugStr text ++ ")"))

def applyBlock (working : String) (index : ℕ) (block : SearchReplaceBlock) :
    Except EditFailure (String × Bool) :=
  if block.search = "" then
    .error (.refused (.malformedEdit
      ("edit " ++ toString index ++ ": empty search anchor is not permitted")))
  else
    match occurrences block.search working with
    | 1 =>
      let replaced := replaceFirst block.search.toList block.replace.toList working.toList
      .ok (String.ofList replaced, true)
    | 0 =>
      if block.replace = "" ∨ occurrences block.replace working ≠ 1 then
        .error (P.anchorDivergence index "anchor text not found in current content" block.search)
      else .ok (working, false)
    | n =>
      .error (P.anchorDivergence index
        ("anchor matched " ++ toString n ++ " locations, expected exactly 1") block.search)

def applyBlocks : String → Bool → ℕ → List SearchReplaceBlock → Except EditFailure AppliedEdit
  | working, wrote, _, [] => .ok ⟨working, !wrote⟩
  | working, wrote, index, block :: blocks =>
    match P.applyBlock working index block with
    | .error failure => .error failure
    | .ok (working, wroteBlock) => applyBlocks working (wrote || wroteBlock) (index + 1) blocks

def applyTargetedEdit (current : String) (blocks : List SearchReplaceBlock) :
    Except EditFailure AppliedEdit :=
  P.applyBlocks current false 0 blocks

/-- What the file is to hold. -/
def resolveEdit (jsonError : String → String) (current : Option String) (form : EditForm)
    (payload : String) : Except EditFailure AppliedEdit :=
  match form with
  | .wholeFile => .ok ⟨payload, false⟩
  | .searchReplace =>
    match P.parseSearchReplaceBlocks jsonError payload with
    | .error error => .error (.refused error)
    | .ok blocks => P.applyTargetedEdit (current.getD "") blocks
  | .unifiedDiff =>
    match parseUnifiedDiffBlocks payload with
    | .error error => .error (.refused error)
    | .ok blocks => P.applyTargetedEdit (current.getD "") blocks

end Platform

/-! ### What the blocks do -/

/-- The anchor of the block occurs once, and is replaced there. -/
structure Writes (working : String) (block : SearchReplaceBlock) (working' : String) : Prop where
  anchor : block.search ≠ ""
  once : occurrences block.search working = 1
  written : working' =
    String.ofList (replaceFirst block.search.toList block.replace.toList working.toList)

/-- The block counts as applied before: its anchor is gone, and its replacement occurs once. -/
structure Replays (working : String) (block : SearchReplaceBlock) : Prop where
  anchor : block.search ≠ ""
  gone : occurrences block.search working = 0
  replacement : block.replace ≠ ""
  once : occurrences block.replace working = 1

/-- The blocks make this of the text, one after the other. -/
inductive Edits : String → List SearchReplaceBlock → String → Prop
  | nil {working : String} : Edits working [] working
  | write {working working' result : String} {block : SearchReplaceBlock}
      {blocks : List SearchReplaceBlock} (hblock : Writes working block working')
      (hblocks : Edits working' blocks result) : Edits working (block :: blocks) result
  | replay {working result : String} {block : SearchReplaceBlock} {blocks : List SearchReplaceBlock}
      (hblock : Replays working block) (hblocks : Edits working blocks result) :
      Edits working (block :: blocks) result

/-- The block can be neither written nor skipped, and its anchor is told. -/
structure Diverges (working : String) (block : SearchReplaceBlock) : Prop where
  anchor : block.search ≠ ""
  unwritten : occurrences block.search working ≠ 1
  unskipped : ¬Replays working block

/-- The eightieth byte of the text is followed by a byte of the same character. -/
def CutInside (text : List Char) : Prop :=
  ∃ before c after, text = before ++ c :: after ∧ byteSize before < 80 ∧
    80 < byteSize before + c.utf8Size

/-- The blocks come to one that diverges, and the diagnostic cuts its anchor inside a character. -/
inductive ComesToCut : String → List SearchReplaceBlock → Prop
  | cut {working : String} {block : SearchReplaceBlock} {blocks : List SearchReplaceBlock}
      (hblock : Diverges working block) (hcut : CutInside block.search.toList) :
      ComesToCut working (block :: blocks)
  | write {working working' : String} {block : SearchReplaceBlock}
      {blocks : List SearchReplaceBlock} (hblock : Writes working block working')
      (hblocks : ComesToCut working' blocks) : ComesToCut working (block :: blocks)
  | replay {working : String} {block : SearchReplaceBlock} {blocks : List SearchReplaceBlock}
      (hblock : Replays working block) (hblocks : ComesToCut working blocks) :
      ComesToCut working (block :: blocks)

theorem takeBytes_eq_none_iff {n : ℕ} {text : List Char} :
    takeBytes n text = none ↔ byteSize text < n ∨ ∃ before c after, text = before ++ c :: after ∧
      byteSize before < n ∧ n < byteSize before + c.utf8Size := by
  induction text generalizing n with
  | nil => cases n <;> simp [takeBytes]
  | cons c text ih =>
    rcases n with _ | n
    · simp [takeBytes]
    rw [takeBytes, byteSize_cons]
    split_ifs with hfits
    · rw [Option.map_eq_none_iff, ih]
      constructor
      · rintro (hshort | ⟨before, d, after, rfl, hbefore, hcut⟩)
        · exact .inl (by omega)
        · exact .inr ⟨c :: before, d, after, rfl, by rw [byteSize_cons]; omega,
            by rw [byteSize_cons]; omega⟩
      · rintro (hshort | ⟨before, d, after, htext, hbefore, hcut⟩)
        · exact .inl (by omega)
        · rcases before with _ | ⟨e, before⟩
          · obtain ⟨rfl, rfl⟩ := List.cons.inj htext
            rw [byteSize_nil] at hcut
            omega
          obtain ⟨rfl, rfl⟩ := List.cons.inj htext
          rw [byteSize_cons] at hbefore hcut
          exact .inr ⟨before, d, after, rfl, by omega, by omega⟩
    · exact iff_of_true rfl (.inr ⟨[], c, text, rfl, Nat.succ_pos n, by simpa using hfits⟩)

theorem truncateForDiagnostic_eq_none_iff {text : String} :
    truncateForDiagnostic text = none ↔ CutInside text.toList := by
  rw [truncateForDiagnostic, ← byteSize_toList]
  split_ifs with hshort
  · refine iff_of_false nofun ?_
    rintro ⟨before, c, after, htext, -, hcut⟩
    rw [htext, byteSize_append, byteSize_cons] at hshort
    omega
  · rw [Option.map_eq_none_iff, takeBytes_eq_none_iff, or_iff_right (by omega)]
    rfl

namespace Platform

variable {P : Platform} {working working' : String} {index : ℕ} {block : SearchReplaceBlock}
  {blocks : List SearchReplaceBlock} {wrote : Bool} {applied : AppliedEdit} {failure : EditFailure}

/-- **One block**: it is written, skipped, refused without an anchor, or its anchor is told. -/
theorem applyBlock_cases (P : Platform) (working : String) (index : ℕ)
    (block : SearchReplaceBlock) :
    (∃ working', Writes working block working' ∧
      P.applyBlock working index block = .ok (working', true)) ∨
    (Replays working block ∧ P.applyBlock working index block = .ok (working, false)) ∨
    (block.search = "" ∧ ∃ error, P.applyBlock working index block = .error (.refused error)) ∨
    (Diverges working block ∧ ∃ what,
      P.applyBlock working index block = .error (P.anchorDivergence index what block.search)) := by
  rw [applyBlock]
  by_cases hsearch : block.search = ""
  · rw [if_pos hsearch]
    exact .inr (.inr (.inl ⟨hsearch, _, rfl⟩))
  rw [if_neg hsearch]
  split
  · rename_i honce
    exact .inl ⟨_, ⟨hsearch, honce, rfl⟩, rfl⟩
  · rename_i hgone
    split_ifs with hreplace
    · refine .inr (.inr (.inr ⟨⟨hsearch, by omega, fun hreplays ↦ ?_⟩, _, rfl⟩))
      exact hreplace.elim hreplays.replacement fun h ↦ h hreplays.once
    · obtain ⟨hne, honce⟩ := not_or.1 hreplace
      exact .inr (.inl ⟨⟨hsearch, hgone, hne, not_not.1 honce⟩, rfl⟩)
  · rename_i hmany hsome
    exact .inr (.inr (.inr ⟨⟨hsearch, hmany, fun hreplays ↦ hsome hreplays.gone⟩, _, rfl⟩))

theorem anchorDivergence_eq_panicked_iff {what search : String} :
    P.anchorDivergence index what search = .panicked ↔ CutInside search.toList := by
  rw [anchorDivergence, ← truncateForDiagnostic_eq_none_iff]
  cases truncateForDiagnostic search with
  | none => exact iff_of_true rfl rfl
  | some text => exact iff_of_false nofun nofun

theorem applyBlock_of_writes (h : Writes working block working') :
    P.applyBlock working index block = .ok (working', true) := by
  rw [applyBlock, if_neg h.anchor, h.once, h.written]
  rfl

theorem applyBlock_of_replays (h : Replays working block) :
    P.applyBlock working index block = .ok (working, false) := by
  rw [applyBlock, if_neg h.anchor, h.gone]
  exact if_neg (not_or.2 ⟨h.replacement, not_not.2 h.once⟩)

/-! ### Runs over the blocks -/

attribute [local grind =] applyBlocks

theorem edits_of_applyBlocks (h : P.applyBlocks working wrote index blocks = .ok applied) :
    Edits working blocks applied.content := by
  induction blocks generalizing working wrote index with
  | nil =>
    obtain rfl := Except.ok.inj h
    exact .nil
  | cons block blocks ih =>
    rw [applyBlocks] at h
    rcases applyBlock_cases P working index block with
      ⟨w, hwrites, hblock⟩ | ⟨hreplays, hblock⟩ | ⟨-, error, hblock⟩ | ⟨-, what, hblock⟩
    all_goals rw [hblock] at h
    · exact .write hwrites (ih h)
    · exact .replay hreplays (ih h)
    · cases h
    · cases h

theorem applyBlocks_of_edits {result : String} (h : Edits working blocks result) :
    ∃ already, P.applyBlocks working wrote index blocks = .ok ⟨result, already⟩ := by
  induction h generalizing wrote index with
  | nil => exact ⟨_, rfl⟩
  | write hwrites _ ih =>
    rw [applyBlocks, applyBlock_of_writes hwrites]
    exact ih
  | replay hreplays _ ih =>
    rw [applyBlocks, applyBlock_of_replays hreplays]
    exact ih

theorem applyBlocks_already_iff {content : String} :
    P.applyBlocks working wrote index blocks = .ok ⟨content, true⟩ ↔
      wrote = false ∧ content = working ∧ ∀ block ∈ blocks, Replays working block := by
  induction blocks generalizing working wrote index with
  | nil =>
    rw [applyBlocks, Except.ok.injEq, AppliedEdit.mk.injEq, Bool.not_eq_true']
    simp [and_comm, eq_comm]
  | cons block blocks ih =>
    rw [applyBlocks]
    rcases applyBlock_cases P working index block with
      ⟨w, hwrites, h⟩ | ⟨hreplays, h⟩ | ⟨hsearch, error, h⟩ | ⟨hdiverges, what, h⟩
    all_goals
      rw [h]
      dsimp only
    · rw [ih, Bool.or_true]
      refine iff_of_false (fun h ↦ by cases h.1) fun h ↦ ?_
      exact Nat.one_ne_zero (hwrites.once.symm.trans (h.2.2 block List.mem_cons_self).gone)
    · rw [ih, Bool.or_false, List.forall_mem_cons, and_iff_right hreplays]
    · exact iff_of_false (fun h ↦ by cases h) fun h ↦ (h.2.2 block List.mem_cons_self).anchor hsearch
    · exact iff_of_false (fun h ↦ by cases h) fun h ↦
        hdiverges.unskipped (h.2.2 block List.mem_cons_self)

theorem applyBlocks_eq_panicked_iff :
    P.applyBlocks working wrote index blocks = .error .panicked ↔ ComesToCut working blocks := by
  induction blocks generalizing working wrote index with
  | nil => exact iff_of_false nofun nofun
  | cons block blocks ih =>
    rw [applyBlocks]
    rcases applyBlock_cases P working index block with
      ⟨w, hwrites, hblock⟩ | ⟨hreplays, hblock⟩ | ⟨hsearch, error, hblock⟩ |
        ⟨hdiverges, what, hblock⟩
    all_goals
      rw [hblock]
      dsimp only
    · rw [ih]
      refine ⟨.write hwrites, fun h ↦ ?_⟩
      cases h with
      | cut hdiverges _ => exact absurd hwrites.once hdiverges.unwritten
      | write hwrites' hblocks => rwa [hwrites.written, ← hwrites'.written]
      | replay hreplays _ => exact absurd (hwrites.once.symm.trans hreplays.gone) Nat.one_ne_zero
    · rw [ih]
      refine ⟨.replay hreplays, fun h ↦ ?_⟩
      cases h with
      | cut hdiverges _ => exact absurd hreplays hdiverges.unskipped
      | write hwrites _ => exact absurd (hwrites.once.symm.trans hreplays.gone) Nat.one_ne_zero
      | replay _ hblocks => exact hblocks
    · refine iff_of_false nofun fun h ↦ ?_
      cases h with
      | cut hdiverges _ => exact hdiverges.anchor hsearch
      | write hwrites _ => exact hwrites.anchor hsearch
      | replay hreplays _ => exact hreplays.anchor hsearch
    · rw [Except.error.injEq, anchorDivergence_eq_panicked_iff]
      refine ⟨.cut hdiverges, fun h ↦ ?_⟩
      cases h with
      | cut _ hcut => exact hcut
      | write hwrites _ => exact absurd hwrites.once hdiverges.unwritten
      | replay hreplays _ => exact absurd hreplays hdiverges.unskipped

/-- **Replays.** An edit that succeeded counts as applied when it is made again exactly if each of
its blocks does on the text that the edit has made. -/
theorem applyTargetedEdit_idempotent_iff (P : Platform) (current : String)
    (blocks : List SearchReplaceBlock) :
    (∀ applied, P.applyTargetedEdit current blocks = .ok applied →
      P.applyTargetedEdit applied.content blocks = .ok ⟨applied.content, true⟩) ↔
      ∀ result, Edits current blocks result → ∀ block ∈ blocks, Replays result block := by
  constructor
  · intro h result hedits
    obtain ⟨already, happlied⟩ : ∃ already, P.applyBlocks current false 0 blocks = _ :=
      applyBlocks_of_edits hedits
    exact (applyBlocks_already_iff.1 (h _ happlied)).2.2
  · intro h applied happlied
    exact applyBlocks_already_iff.2 ⟨rfl, rfl, h _ (edits_of_applyBlocks happlied)⟩

/-- A replacement that contains its own anchor is written again. -/
theorem not_applyTargetedEdit_idempotent : ¬∀ (P : Platform) current blocks applied,
    P.applyTargetedEdit current blocks = .ok applied →
      P.applyTargetedEdit applied.content blocks = .ok ⟨applied.content, true⟩ := by
  intro h
  have hagain := h ⟨fun _ ↦ none, fun _ ↦ "", id, id⟩ "a" [⟨"a", "ba"⟩] ⟨"ba", false⟩ (by decide)
  revert hagain
  decide

def payloadBlocks (P : Platform) (jsonError : String → String) (form : EditForm)
    (payload : String) : List SearchReplaceBlock :=
  match form with
  | .wholeFile => []
  | .searchReplace => (P.parseSearchReplaceBlocks jsonError payload).toOption.getD []
  | .unifiedDiff => (parseUnifiedDiffBlocks payload).toOption.getD []

/-- **Panics.** An edit is resolved or refused, unless its blocks come to one that diverges and whose
anchor has a character across its eightieth byte. -/
theorem resolveEdit_panics_iff (P : Platform) (jsonError : String → String)
    (current : Option String) (form : EditForm) (payload : String) :
    P.resolveEdit jsonError current form payload ≠ .error .panicked ↔
      ¬ComesToCut (current.getD "") (P.payloadBlocks jsonError form payload) := by
  have hnone : ∀ working, ¬ComesToCut working [] := fun _ h ↦ nomatch h
  refine not_congr ?_
  rw [resolveEdit.eq_def, payloadBlocks.eq_def]
  cases form with
  | wholeFile => exact iff_of_false nofun (hnone _)
  | searchReplace =>
    cases P.parseSearchReplaceBlocks jsonError payload with
    | error error => exact iff_of_false nofun (hnone _)
    | ok blocks => exact applyBlocks_eq_panicked_iff
  | unifiedDiff =>
    cases parseUnifiedDiffBlocks payload with
    | error error => exact iff_of_false nofun (hnone _)
    | ok blocks => exact applyBlocks_eq_panicked_iff

/-- Forty-one times a letter of two bytes, after one of one byte. -/
theorem resolveEdit_panics : ¬∀ (P : Platform) jsonError current form payload,
    P.resolveEdit jsonError current form payload ≠ .error .panicked := by
  intro h
  have hcut := h ⟨fun _ ↦ none, fun _ ↦ "", id, id⟩ id none .unifiedDiff
    (String.ofList ("@@\n-a".toList ++ List.replicate 41 'é'))
  revert hcut
  decide +kernel

end Platform

end FamiliarAi
