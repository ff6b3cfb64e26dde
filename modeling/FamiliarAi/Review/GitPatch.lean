import FamiliarAi.Review.Package
import FamiliarAi.Text.Written

/-!
# Patches of files

Git writes the patch of a change as one section for each file: a line with the path before and the
path after, lines about the kind of the change, and then hunks of lines, a binary patch or nothing.
A path with unusual characters is written in quotation marks; how is left open (`PathQuoting`).

A diff that is written so is cut where its sections and their hunks begin
(`wholeHunks_writtenDiff`).
-/

namespace FamiliarAi

open Text List

/-! ### Patches -/

def sided (side : Char) (path : String) : List Char :=
  side :: '/' :: path.toList

/-- How Git writes a path, with the letter of its side in front or without. -/
structure PathQuoting where
  quote : List Char → List Char
  /-- What is written is on one line. -/
  feed : ∀ path, '\n' ∉ quote path

def PathQuoting.Leaves (q : PathQuoting) (path : String) : Prop :=
  q.quote (sided 'a' path) = sided 'a' path ∧ q.quote (sided 'b' path) = sided 'b' path

inductive FileMode
  | regular
  | executable
  | symlink
  | submodule

def FileMode.text : FileMode → List Char
  | regular => "100644".toList
  | executable => "100755".toList
  | symlink => "120000".toList
  | submodule => "160000".toList

/-- What happened to a file. Only a rename has two paths. -/
inductive FileChange
  | added (path : String) (mode : FileMode)
  | deleted (path : String) (mode : FileMode)
  | modified (path : String) (modes : Option (FileMode × FileMode))
  | renamed (old new : String) (modes : Option (FileMode × FileMode)) (similarity : ℕ)

namespace FileChange

def oldPath : FileChange → String
  | added path _ | deleted path _ | modified path _ => path
  | renamed old _ _ _ => old

def newPath : FileChange → String
  | added path _ | deleted path _ | modified path _ => path
  | renamed _ new _ _ => new

def IsAbout (change : FileChange) (path : String) : Prop :=
  path = change.oldPath ∨ path = change.newPath

end FileChange

def modeLines : Option (FileMode × FileMode) → List (List Char)
  | none => []
  | some (old, new) => ["old mode ".toList ++ old.text, "new mode ".toList ++ new.text]

def FileChange.lines (q : PathQuoting) : FileChange → List (List Char)
  | added _ mode => ["new file mode ".toList ++ mode.text]
  | deleted _ mode => ["deleted file mode ".toList ++ mode.text]
  | modified _ modes => modeLines modes
  | renamed old new modes similarity =>
    modeLines modes ++
      ["similarity index ".toList ++ (Nat.toDigits 10 similarity ++ "%".toList),
        "rename from ".toList ++ q.quote old.toList, "rename to ".toList ++ q.quote new.toList]

/-- A line that begins no section and no hunk. -/
structure IsPlainLine (line : List Char) : Prop where
  feed : '\n' ∉ line
  git : "diff --git ".toList.isPrefixOf line = false
  hunk : "@@ ".toList.isPrefixOf line = false

/-- Lines of a file, with some around them: the range, and the lines with their marks. -/
structure TextHunk where
  range : List Char
  body : List (List Char)
  range_feed : '\n' ∉ range
  body_feed : ∀ line ∈ body, '\n' ∉ line
  body_mark : ∀ line ∈ body, line.head?.any (" +-\\".toList.contains ·) = true

def TextHunk.lines (hunk : TextHunk) : List (List Char) :=
  ("@@ ".toList ++ hunk.range) :: hunk.body

inductive PatchContent
  | nothing
  | text (first : TextHunk) (rest : List TextHunk)
  | binary (lines : List (List Char)) (plain : ∀ line ∈ lines, IsPlainLine line)

structure FilePatch where
  change : FileChange
  index : Option (List Char)
  content : PatchContent
  index_feed : ∀ hashes ∈ index, '\n' ∉ hashes

namespace FilePatch

variable (q : PathQuoting) (patch : FilePatch)

/-- A path on its own line, with a tab behind it when it has blanks. -/
def label (side : Char) (path : String) : List Char :=
  q.quote (sided side path) ++ (if ' ' ∈ path.toList then ['\t'] else [])

def oldLabel : List Char :=
  match patch.change with
  | .added _ _ => "/dev/null".toList
  | change => label q 'a' change.oldPath

def newLabel : List Char :=
  match patch.change with
  | .deleted _ _ => "/dev/null".toList
  | change => label q 'b' change.newPath

/-- The line that begins the section. -/
def gitLine : List Char :=
  "diff --git ".toList ++ (q.quote (sided 'a' patch.change.oldPath) ++
    ' ' :: q.quote (sided 'b' patch.change.newPath))

/-- The lines between the first one and the hunks. -/
def headerLines : List (List Char) :=
  patch.change.lines q ++ (patch.index.toList.map ("index ".toList ++ ·) ++
    match patch.content with
    | .text _ _ => ["--- ".toList ++ patch.oldLabel q, "+++ ".toList ++ patch.newLabel q]
    | _ => [])

/-- The lines of the hunks, or of the binary patch. -/
def contentLines : List (List Char) :=
  match patch.content with
  | .nothing => []
  | .text first rest => (first :: rest).flatMap TextHunk.lines
  | .binary lines _ => "GIT binary patch".toList :: lines

def sectionLines : List (List Char) :=
  patch.gitLine q :: (patch.headerLines q ++ patch.contentLines)

/-- What is disclosed or omitted as a whole: each hunk with the header, or the section. -/
def parts : List (List Char) :=
  match patch.content with
  | .text first rest =>
    (first :: rest).map fun hunk ↦
      document (patch.gitLine q :: (patch.headerLines q ++ hunk.lines))
  | _ => [document (patch.sectionLines q)]

end FilePatch

/-- The diff as Git writes it. -/
def writtenDiff (q : PathQuoting) (patches : List FilePatch) : List Char :=
  document (patches.flatMap (·.sectionLines q))

/-! ### Lines -/

theorem isPrefixOf_line {beginning : List Char} (h : '\n' ∉ beginning) (line : List Char) :
    beginning.isPrefixOf (line ++ ['\n']) = beginning.isPrefixOf line := by
  rw [Bool.eq_iff_iff, isPrefixOf_iff_prefix, isPrefixOf_iff_prefix,
    prefix_concat_iff, or_iff_right]
  rintro rfl
  exact h (mem_append_right _ mem_cons_self)

theorem notMem_text (mode : FileMode) : '\n' ∉ mode.text := by
  cases mode <;> decide

theorem isPlainLine_append {beginning rest : List Char} (hbeginning : '\n' ∉ beginning)
    (hrest : '\n' ∉ rest) (hgit : "diff --git ".toList.isPrefixOf (beginning ++ rest) = false)
    (hhunk : "@@ ".toList.isPrefixOf (beginning ++ rest) = false) :
    IsPlainLine (beginning ++ rest) where
  feed := by
    rw [mem_append]
    exact not_or.2 ⟨hbeginning, hrest⟩
  git := hgit
  hunk := hhunk

theorem isPlainLine_modeLines (modes : Option (FileMode × FileMode)) :
    ∀ line ∈ modeLines modes, IsPlainLine line := by
  rcases modes with _ | modes
  · exact forall_mem_nil _
  refine forall_mem_cons.2 ⟨?_, forall_mem_singleton.2 ?_⟩
  · exact isPlainLine_append (by decide) (notMem_text _) rfl rfl
  · exact isPlainLine_append (by decide) (notMem_text _) rfl rfl

theorem FileChange.isPlainLine_lines (q : PathQuoting) (change : FileChange) :
    ∀ line ∈ change.lines q, IsPlainLine line := by
  cases change with
  | added path mode =>
    exact forall_mem_singleton.2 (isPlainLine_append (by decide) (notMem_text _) rfl rfl)
  | deleted path mode =>
    exact forall_mem_singleton.2 (isPlainLine_append (by decide) (notMem_text _) rfl rfl)
  | modified path modes => exact isPlainLine_modeLines modes
  | renamed old new modes similarity =>
    refine forall_mem_append.2 ⟨isPlainLine_modeLines modes, ?_⟩
    have hdigits : '\n' ∉ Nat.toDigits 10 similarity ++ "%".toList := by
      rw [mem_append]
      rintro (hdigit | hpercent)
      · have hfeed : '\n'.isDigit = true :=
          Nat.isDigit_of_mem_toDigits (by decide) (by decide) hdigit
        revert hfeed
        decide
      · revert hpercent
        decide
    refine forall_mem_cons.2 ⟨isPlainLine_append (by decide) hdigits rfl rfl, ?_⟩
    refine forall_mem_cons.2 ⟨isPlainLine_append (by decide) (q.feed _) rfl rfl, ?_⟩
    exact forall_mem_singleton.2 (isPlainLine_append (by decide) (q.feed _) rfl rfl)

theorem TextHunk.isPlainLine_body (hunk : TextHunk) : ∀ line ∈ hunk.body, IsPlainLine line := by
  intro line hline
  have hmark := hunk.body_mark line hline
  refine ⟨hunk.body_feed line hline, ?_, ?_⟩
  · rcases line with _ | ⟨c, line⟩
    · rfl
    have hne : ('d' == c) = false := by
      refine beq_eq_false_iff_ne.2 ?_
      rintro rfl
      exact absurd (show " +-\\".toList.contains 'd' = true from hmark) (by decide)
    rw [show "diff --git ".toList = 'd' :: "iff --git ".toList from rfl, List.isPrefixOf, hne]
    rfl
  · rcases line with _ | ⟨c, line⟩
    · rfl
    have hne : ('@' == c) = false := by
      refine beq_eq_false_iff_ne.2 ?_
      rintro rfl
      exact absurd (show " +-\\".toList.contains '@' = true from hmark) (by decide)
    rw [show "@@ ".toList = '@' :: "@ ".toList from rfl, List.isPrefixOf, hne]
    rfl

namespace FilePatch

variable (q : PathQuoting) (patch : FilePatch)

theorem notMem_label (side : Char) (path : String) : '\n' ∉ label q side path := by
  rw [label, mem_append, not_or]
  refine ⟨q.feed _, ?_⟩
  split <;> decide

theorem isPlainLine_headerLines : ∀ line ∈ patch.headerLines q, IsPlainLine line := by
  refine forall_mem_append.2 ⟨patch.change.isPlainLine_lines q, forall_mem_append.2 ⟨?_, ?_⟩⟩
  · refine List.forall_mem_map.2 fun hashes hhashes ↦ ?_
    exact isPlainLine_append (by decide) (patch.index_feed hashes (Option.mem_toList.1 hhashes))
      rfl rfl
  · cases patch.content with
    | nothing => exact forall_mem_nil _
    | binary lines plain => exact forall_mem_nil _
    | text first rest =>
      have hold : '\n' ∉ patch.oldLabel q := by
        unfold oldLabel
        split
        · decide
        · exact notMem_label q _ _
      have hnew : '\n' ∉ patch.newLabel q := by
        unfold newLabel
        split
        · decide
        · exact notMem_label q _ _
      exact forall_mem_cons.2 ⟨isPlainLine_append (by decide) hold rfl rfl,
        forall_mem_singleton.2 (isPlainLine_append (by decide) hnew rfl rfl)⟩

theorem notMem_gitLine : '\n' ∉ patch.gitLine q := by
  have hbegin : '\n' ∉ "diff --git ".toList := by decide
  intro h
  rcases mem_append.1 h with h | h
  · exact hbegin h
  · rcases mem_append.1 h with h | h
    · exact q.feed _ h
    · rcases mem_cons.1 h with h | h
      · revert h
        decide
      · exact q.feed _ h

theorem content_spec : ∀ line ∈ patch.contentLines,
    '\n' ∉ line ∧ "diff --git ".toList.isPrefixOf line = false := by
  unfold contentLines
  cases patch.content with
  | nothing => exact forall_mem_nil _
  | binary lines plain =>
    exact forall_mem_cons.2
      ⟨⟨by decide, rfl⟩, fun line hline ↦ ⟨(plain line hline).feed, (plain line hline).git⟩⟩
  | text first rest =>
    intro line hline
    obtain ⟨hunk, -, hline⟩ := mem_flatMap.1 hline
    rcases mem_cons.1 hline with rfl | hline
    · refine ⟨?_, rfl⟩
      rw [mem_append, not_or]
      exact ⟨by decide, hunk.range_feed⟩
    · exact ⟨(hunk.isPlainLine_body line hline).feed, (hunk.isPlainLine_body line hline).git⟩

theorem notMem_sectionLines : ∀ line ∈ patch.sectionLines q, '\n' ∉ line :=
  forall_mem_cons.2 ⟨patch.notMem_gitLine q, forall_mem_append.2
    ⟨fun line hline ↦ (patch.isPlainLine_headerLines q line hline).feed,
      fun line hline ↦ (patch.content_spec line hline).1⟩⟩

theorem sectionHunks_sectionLines :
    sectionHunks ((patch.sectionLines q).map (· ++ ['\n'])) = patch.parts q := by
  have hheader : ∀ line ∈ (patch.gitLine q :: patch.headerLines q).map (· ++ ['\n']),
      (!"@@ ".toList.isPrefixOf line) = true := by
    refine List.forall_mem_map.2 (forall_mem_cons.2 ⟨rfl, fun line hline ↦ ?_⟩)
    rw [isPrefixOf_line (by decide), (patch.isPlainLine_headerLines q line hline).hunk]
    rfl
  have hsection : (patch.sectionLines q).map (· ++ ['\n']) =
      (patch.gitLine q :: patch.headerLines q).map (· ++ ['\n']) ++
        patch.contentLines.map (· ++ ['\n']) := by
    rw [sectionLines, ← cons_append, map_append]
  have hwhole (hcontent : ∀ line ∈ patch.contentLines.map (· ++ ['\n']),
      (!"@@ ".toList.isPrefixOf line) = true) :
      sectionHunks ((patch.sectionLines q).map (· ++ ['\n'])) =
        [document (patch.sectionLines q)] := by
    have hdrop : ((patch.sectionLines q).map (· ++ ['\n'])).dropWhile
        (fun line ↦ !"@@ ".toList.isPrefixOf line) = [] := by
      rw [hsection, dropWhile_eq_nil_iff]
      exact forall_mem_append.2 ⟨hheader, hcontent⟩
    simp only [sectionHunks, hdrop, document, flatMap_def]
  unfold parts
  cases hcontent : patch.content with
  | nothing =>
    refine hwhole ?_
    rw [contentLines, hcontent]
    exact forall_mem_nil _
  | binary lines plain =>
    refine hwhole ?_
    rw [contentLines, hcontent]
    refine List.forall_mem_map.2 (forall_mem_cons.2 ⟨rfl, fun line hline ↦ ?_⟩)
    rw [isPrefixOf_line (by decide), (plain line hline).hunk]
    rfl
  | text first rest =>
    have hlines : patch.contentLines.map (· ++ ['\n']) =
        ((first :: rest).map fun hunk ↦ hunk.lines.map (· ++ ['\n'])).flatten := by
      rw [contentLines, hcontent, map_flatMap, flatMap_def]
    have hgroups := splitBy_starts "@@ ".toList.isPrefixOf
      (List.forall_mem_map.2 fun (hunk : TextHunk) (_ : hunk ∈ first :: rest) ↦
        ⟨_, _, (rfl : hunk.lines.map (· ++ ['\n']) = _), rfl,
          List.forall_mem_map.2 fun line hline ↦ by
            rw [isPrefixOf_line (by decide), (hunk.isPlainLine_body line hline).hunk]⟩)
    obtain ⟨line, lines, hfirst, hstarts⟩ : ∃ line lines,
        ((first :: rest).map fun hunk ↦ hunk.lines.map (· ++ ['\n'])).flatten = line :: lines ∧
          (!"@@ ".toList.isPrefixOf line) = false :=
      ⟨_, _, rfl, rfl⟩
    have htake : ((patch.sectionLines q).map (· ++ ['\n'])).takeWhile
        (fun line ↦ !"@@ ".toList.isPrefixOf line) =
          (patch.gitLine q :: patch.headerLines q).map (· ++ ['\n']) := by
      rw [hsection, hlines, hfirst, takeWhile_append_of_pos hheader, takeWhile_cons_of_neg
        (by rw [hstarts]; exact Bool.false_ne_true), append_nil]
    have hdrop : ((patch.sectionLines q).map (· ++ ['\n'])).dropWhile
        (fun line ↦ !"@@ ".toList.isPrefixOf line) = line :: lines := by
      rw [hsection, hlines, hfirst, dropWhile_append_of_pos hheader, dropWhile_cons_of_neg
        (by rw [hstarts]; exact Bool.false_ne_true)]
    simp only [sectionHunks, htake, hdrop]
    rw [← hfirst, hgroups, List.map_map]
    refine map_congr_left fun hunk _ ↦ ?_
    simp [document, flatMap_def]

end FilePatch

/-- **The parts of a written diff** are the hunks of its patches with their headers, and the
sections without hunks. -/
theorem wholeHunks_writtenDiff (q : PathQuoting) (patches : List FilePatch) :
    wholeHunks (encodeUtf8 (writtenDiff q patches)) = .ok (patches.flatMap (·.parts q)) := by
  have hfeed : ∀ line ∈ patches.flatMap (·.sectionLines q), '\n' ∉ line := by
    intro line hline
    obtain ⟨patch, -, hline⟩ := mem_flatMap.1 hline
    exact patch.notMem_sectionLines q line hline
  have hsections : (patches.flatMap (·.sectionLines q)).map (· ++ ['\n']) =
      (patches.map fun patch ↦ (patch.sectionLines q).map (· ++ ['\n'])).flatten := by
    rw [map_flatMap, flatMap_def]
  have hgroups := splitBy_starts "diff --git ".toList.isPrefixOf
    (List.forall_mem_map.2 fun (patch : FilePatch) (_ : patch ∈ patches) ↦
      ⟨_, _, (rfl : (patch.sectionLines q).map (· ++ ['\n']) = _), rfl,
        List.forall_mem_map.2 fun line hline ↦ by
          rw [isPrefixOf_line (by decide)]
          rcases mem_append.1 hline with hline | hline
          · exact (patch.isPlainLine_headerLines q line hline).git
          · exact (patch.content_spec line hline).2⟩)
  rw [wholeHunks, decodeUtf8?_eq_some.2 rfl]
  dsimp only
  rw [writtenDiff, splitInclusive_document hfeed, hsections, hgroups, flatMap_map]
  refine congrArg _ (flatMap_congr fun patch _ ↦ ?_)
  exact patch.sectionHunks_sectionLines q

/-! ### Every line -/

theorem isChain_snd {α : Type} {p : α → Prop} {l : List α} (h : l.IsChain fun _ x ↦ p x) :
    ∀ x ∈ l.tail, p x := by
  rcases l with _ | ⟨first, rest⟩
  · exact fun _ hx ↦ absurd hx not_mem_nil
  induction rest generalizing first with
  | nil => exact fun _ hx ↦ absurd hx not_mem_nil
  | cons second rest ih =>
    obtain ⟨hsecond, hrest⟩ := isChain_cons_cons.1 h
    exact forall_mem_cons.2 ⟨hsecond, ih second hrest⟩

theorem starts_of_splitBy {α : Type} (starts : α → Bool) (l : List α) :
    (∀ group ∈ l.splitBy (fun _ x ↦ !starts x), ∀ x ∈ group.tail, starts x = false) ∧
      ∀ group ∈ (l.splitBy fun _ x ↦ !starts x).tail, ∃ first ∈ group.head?, starts first = true := by
  constructor
  · intro group hgroup x hx
    have hchain : group.IsChain fun _ x ↦ (!starts x) = true := isChain_of_mem_splitBy hgroup
    simpa using isChain_snd hchain x hx
  · refine isChain_snd ((isChain_getLast_head_splitBy _ l).imp fun _ group hcut ↦ ?_)
    obtain ⟨-, hgroup, hstarts⟩ := hcut
    exact ⟨group.head hgroup, head_mem_head? hgroup, by simpa using hstarts⟩

def startsHunk (line : List Char) : Bool :=
  "@@ ".toList.isPrefixOf line

/-- A section of a diff, with the lines of its header and those of each hunk. -/
structure DiffSection where
  header : List (List Char)
  hunks : List (List (List Char))
  header_plain : ∀ line ∈ header, startsHunk line = false
  hunk_starts : ∀ hunk ∈ hunks, (∃ first ∈ hunk.head?, startsHunk first = true) ∧
    ∀ line ∈ hunk.tail, startsHunk line = false

namespace DiffSection

def lines (s : DiffSection) : List (List Char) :=
  s.header ++ s.hunks.flatten

/-- How the section is disclosed: hunk by hunk, each below the header, or as it is if it has none. -/
def chunks (s : DiffSection) : List (List Char) :=
  match s.hunks with
  | [] => [s.header.flatten]
  | hunks => hunks.map fun hunk ↦ (s.header ++ hunk).flatten

def ofLines (lines : List (List Char)) : DiffSection where
  header := lines.takeWhile fun line ↦ !startsHunk line
  hunks := (lines.dropWhile fun line ↦ !startsHunk line).splitBy fun _ line ↦ !startsHunk line
  header_plain line hline := by simpa using mem_takeWhile_imp hline
  hunk_starts hunk hhunk := by
    obtain ⟨hplain, hstarts⟩ := starts_of_splitBy startsHunk
      (lines.dropWhile fun line ↦ !startsHunk line)
    refine ⟨?_, hplain hunk hhunk⟩
    have hne := ne_nil_of_mem hhunk
    rcases mem_cons.1 ((cons_head_tail hne).symm ▸ hhunk) with rfl | hrest
    · have hdrop := splitBy_ne_nil.1 hne
      have hhead := ne_nil_of_mem_splitBy (head_mem hne)
      refine ⟨_, head_mem_head? hhead, ?_⟩
      rw [head_head_splitBy _ hdrop]
      simpa using head_dropWhile_not _ hdrop
    · exact hstarts hunk hrest

theorem lines_ofLines (lines : List (List Char)) : (ofLines lines).lines = lines := by
  rw [DiffSection.lines, ofLines, flatten_splitBy, takeWhile_append_dropWhile]

theorem chunks_ofLines (lines : List (List Char)) : (ofLines lines).chunks = sectionHunks lines := by
  have hlines := takeWhile_append_dropWhile (p := fun line ↦ !startsHunk line) (l := lines)
  rw [sectionHunks, chunks, ofLines]
  unfold startsHunk at hlines ⊢
  dsimp only
  rcases hdrop : lines.dropWhile fun line ↦ !"@@ ".toList.isPrefixOf line with _ | ⟨first, rest⟩
  · rw [hdrop, append_nil] at hlines
    rw [splitBy_nil, hlines]
  split
  · exact absurd ‹_› (splitBy_ne_nil.2 (cons_ne_nil _ _))
  · rfl

end DiffSection

/-- **No line is lost.** Any diff consists of sections, each but the first one of a file of its own,
and what is disclosed are their hunks: between the headers these are all lines, each once and in
their order. -/
theorem wholeHunks_lossless (text : List Char) : ∃ sections : List DiffSection,
    wholeHunks (encodeUtf8 text) = .ok (sections.flatMap DiffSection.chunks) ∧
      splitInclusive '\n' text = sections.flatMap DiffSection.lines ∧
      (∀ s ∈ sections, ∀ line ∈ s.lines.tail, "diff --git ".toList.isPrefixOf line = false) ∧
      ∀ s ∈ sections.tail, ∃ line ∈ s.lines.head?, "diff --git ".toList.isPrefixOf line = true := by
  obtain ⟨hplain, hstarts⟩ := starts_of_splitBy "diff --git ".toList.isPrefixOf
    (splitInclusive '\n' text)
  refine ⟨((splitInclusive '\n' text).splitBy fun _ line ↦
    !"diff --git ".toList.isPrefixOf line).map DiffSection.ofLines, ?_, ?_, ?_, ?_⟩
  · rw [wholeHunks, decodeUtf8?_eq_some.2 rfl, flatMap_map]
    exact congrArg _ (flatMap_congr fun lines _ ↦ (DiffSection.chunks_ofLines lines).symm)
  · rw [flatMap_map]
    simp only [DiffSection.lines_ofLines, flatMap_id', flatten_splitBy]
  · exact forall_mem_map.2 fun lines hlines ↦ by
      rw [DiffSection.lines_ofLines]
      exact hplain lines hlines
  · rw [← map_tail]
    exact forall_mem_map.2 fun lines hlines ↦ by
      rw [DiffSection.lines_ofLines]
      exact hstarts lines hlines

/-- The character is not written as it is. Whether those outside of ASCII are is configured. -/
def NeedsQuoting (ascii : Bool) (c : Char) : Prop :=
  c.toNat < 32 ∨ c.toNat = 127 ∨ c = '"' ∨ c = '\\' ∨ ascii = true ∧ 128 ≤ c.toNat

instance NeedsQuoting.decidable (ascii : Bool) : DecidablePred (NeedsQuoting ascii) :=
  fun _ ↦ inferInstanceAs (Decidable (_ ∨ _ ∨ _ ∨ _ ∨ _))

/-- The byte in three digits. -/
def octalByte (byte : UInt8) : List Char :=
  ['\\', Nat.digitChar (byte.toNat / 64), Nat.digitChar (byte.toNat / 8 % 8),
    Nat.digitChar (byte.toNat % 8)]

/-- The character between quotation marks. -/
def quoteChar (ascii : Bool) (c : Char) : List Char :=
  if 7 ≤ c.toNat ∧ c.toNat ≤ 13 then '\\' :: ("abtnvfr".toList.drop (c.toNat - 7)).take 1
  else if c = '"' ∨ c = '\\' then ['\\', c]
  else if NeedsQuoting ascii c then (String.utf8EncodeChar c).flatMap octalByte
  else [c]

theorem notMem_octalByte (byte : UInt8) : '\n' ∉ octalByte byte := by
  have hall : ∀ n < 256, '\n' ∉ octalByte (UInt8.ofNat n) := by decide +kernel
  have hbyte := hall byte.toNat byte.toNat_lt
  rwa [UInt8.ofNat_toNat] at hbyte

theorem notMem_quoteChar (ascii : Bool) (c : Char) : '\n' ∉ quoteChar ascii c := by
  unfold quoteChar
  split_ifs with hletter hmark hquoted
  · have hall : ∀ n < 14, '\n' ∉ '\\' :: ("abtnvfr".toList.drop (n - 7)).take 1 := by decide
    exact hall c.toNat (Nat.lt_succ_of_le hletter.2)
  · rcases hmark with rfl | rfl <;> decide
  · rw [mem_flatMap]
    rintro ⟨byte, -, hbyte⟩
    exact notMem_octalByte byte hbyte
  · rw [mem_singleton]
    rintro rfl
    exact hletter (by decide)

/-- The quotation marks of Git. Unless it is told otherwise, it puts them around all paths that are
not ASCII. -/
def quotePath (ascii : Bool) : PathQuoting where
  quote path :=
    if path.any fun c ↦ NeedsQuoting ascii c then
      '"' :: (path.flatMap (quoteChar ascii) ++ ['"'])
    else path
  feed path := by
    split
    · rw [mem_cons, mem_append, mem_flatMap]
      rintro (h | ⟨c, -, h⟩ | h)
      · revert h
        decide
      · exact notMem_quoteChar ascii c h
      · revert h
        decide
    · rename_i h
      exact fun hfeed ↦ h (List.any_eq_true.2 ⟨'\n', hfeed, decide_eq_true (.inl (by decide))⟩)

end FamiliarAi
