import FamiliarAi.Review.Declarations

/-!
# The evidence for new dependencies

The dependencies that a candidate adds are read from the text of its diff: the names of packages on
the added lines of lock files of Cargo that are on none of their removed lines. A change of a
manifest or a lock file that a human would have to review is allowed where there are no such names.
We say what the reader finds, and from it when a change that is allowed brings no new dependency:
only where what it brings shows in a lock file of Cargo.
-/

namespace FamiliarAi

open Text List

/-- `trim_matches` of one character. -/
def trimMatches (c : Char) (text : List Char) : List Char :=
  ((text.dropWhile (· = c)).reverse.dropWhile (· = c)).reverse

/-- The line starts the part of a diff that is about one file. -/
def IsDiffHeader (line : List Char) : Prop :=
  "diff --git ".toList <+: line

instance : DecidablePred IsDiffHeader :=
  fun _ ↦ inferInstanceAs (Decidable (_ <+: _))

/-- The file is a lock file of Cargo, by the line that starts its part. -/
def IsLockfileHeader (line : List Char) : Prop :=
  "Cargo.lock".toList <:+ line ∨ "/Cargo.lock ".toList <:+: line

instance : DecidablePred IsLockfileHeader :=
  fun _ ↦ inferInstanceAs (Decidable (_ ∨ _))

def packageName? (line : List Char) : Option String :=
  (stripPrefix? "name = ".toList (trim line)).map fun value ↦
    String.ofList (trimMatches '"' (trim value))

/-- What was read of a diff. -/
structure LockfileScan where
  inLockfile : Bool := false
  added : List String := []
  removed : List String := []

def LockfileScan.read (scan : LockfileScan) (line : List Char) : LockfileScan :=
  if IsDiffHeader line then { scan with inLockfile := decide (IsLockfileHeader line) }
  else if scan.inLockfile = false then scan
  else
    match line with
    | '+' :: rest =>
      if ['+', '+', '+'] <+: line then scan
      else { scan with added := scan.added ++ (packageName? rest).toList }
    | '-' :: rest =>
      if ['-', '-', '-'] <+: line then scan
      else { scan with removed := scan.removed ++ (packageName? rest).toList }
    | _ => scan

/-- The names that a candidate adds to the lock files of Cargo. -/
def lockfileAdditions (diff : List UInt8) : List String :=
  let scan := (lines (fromUtf8Lossy diff).toList).foldl LockfileScan.read {}
  (scan.added.filter (· ∉ scan.removed)).dedup.insertionSort fun a b ↦ a ≤ b

/-! ### What is found -/

/-- The lines end in the part of a lock file. -/
def InLockfile (text : List (List Char)) : Prop :=
  ∃ before header between, text = before ++ header :: between ∧ IsDiffHeader header ∧
    IsLockfileHeader header ∧ ∀ line ∈ between, ¬IsDiffHeader line

/-- In the part of a lock file, a line with the mark names the package. -/
def Names (mark : Char) (text : List (List Char)) (name : String) : Prop :=
  ∃ before rest after, text = before ++ (mark :: rest) :: after ∧ InLockfile before ∧
    ¬[mark, mark, mark] <+: mark :: rest ∧ packageName? rest = some name

section Scan

variable {text : List (List Char)} {line : List Char} {name : String} {mark : Char}
  {scan : LockfileScan} {rest : List Char}

theorem append_singleton_eq_iff {α : Type} {as before after : List α} {a x : α} :
    as ++ [a] = before ++ x :: after ↔
      as = before ∧ a = x ∧ after = [] ∨
        ∃ after', after = after' ++ [a] ∧ as = before ++ x :: after' := by
  constructor
  · intro h
    rcases eq_nil_or_concat after with rfl | ⟨after', b, rfl⟩
    · obtain ⟨rfl, hlast⟩ := append_inj' h rfl
      exact .inl ⟨rfl, singleton_inj.1 hlast, rfl⟩
    · rw [concat_eq_append, ← cons_append, ← append_assoc] at h
      obtain ⟨hfront, hlast⟩ := append_inj' h rfl
      rw [singleton_inj.1 hlast]
      exact .inr ⟨after', by rw [concat_eq_append], hfront⟩
  · rintro (⟨rfl, rfl, rfl⟩ | ⟨after', rfl, rfl⟩)
    · rfl
    · rw [append_assoc, cons_append]

theorem not_inLockfile_nil : ¬InLockfile [] := by
  rintro ⟨before, header, between, h, -⟩
  exact append_ne_nil_of_right_ne_nil before (cons_ne_nil _ _) h.symm

theorem inLockfile_append_iff : InLockfile (text ++ [line]) ↔
    if IsDiffHeader line then IsLockfileHeader line else InLockfile text := by
  split_ifs with hline
  · constructor
    · rintro ⟨before, header, between, h, -, hlock, hbetween⟩
      obtain ⟨-, rfl, -⟩ | ⟨between', rfl, -⟩ := append_singleton_eq_iff.1 h
      · exact hlock
      · exact absurd hline (hbetween line (mem_append_right _ mem_cons_self))
    · exact fun hlock ↦ ⟨text, line, [], rfl, hline, hlock, fun _ h ↦ absurd h not_mem_nil⟩
  · constructor
    · rintro ⟨before, header, between, h, hheader, hlock, hbetween⟩
      obtain ⟨-, rfl, -⟩ | ⟨between', rfl, rfl⟩ := append_singleton_eq_iff.1 h
      · exact absurd hheader hline
      · exact ⟨before, header, between', rfl, hheader, hlock,
          fun l hl ↦ hbetween l (mem_append_left _ hl)⟩
    · rintro ⟨before, header, between, rfl, hheader, hlock, hbetween⟩
      refine ⟨before, header, between ++ [line], by
        rw [append_assoc, cons_append], hheader, hlock, fun l hl ↦ ?_⟩
      rcases mem_append.1 hl with hl | hl
      · exact hbetween l hl
      · rw [mem_singleton.1 hl]
        exact hline

theorem not_names_nil : ¬Names mark [] name := by
  rintro ⟨before, rest, after, h, -⟩
  exact append_ne_nil_of_right_ne_nil before (cons_ne_nil _ _) h.symm

theorem names_append_iff : Names mark (text ++ [line]) name ↔
    Names mark text name ∨ InLockfile text ∧ ∃ rest, line = mark :: rest ∧
      ¬[mark, mark, mark] <+: line ∧ packageName? rest = some name := by
  constructor
  · rintro ⟨before, rest, after, h, hlock, hmark, hname⟩
    obtain ⟨rfl, rfl, -⟩ | ⟨after', -, rfl⟩ := append_singleton_eq_iff.1 h
    · exact .inr ⟨hlock, rest, rfl, hmark, hname⟩
    · exact .inl ⟨before, rest, after', rfl, hlock, hmark, hname⟩
  · rintro (⟨before, rest, after, rfl, hlock, hmark, hname⟩ | ⟨hlock, rest, rfl, hmark, hname⟩)
    · exact ⟨before, rest, after ++ [line], by rw [append_assoc, cons_append], hlock,
        hmark, hname⟩
    · exact ⟨text, rest, [], rfl, hlock, hmark, hname⟩

/-- What was read so far is what the lines say. -/
structure Read (text : List (List Char)) (scan : LockfileScan) : Prop where
  inLockfile : scan.inLockfile = true ↔ InLockfile text
  added : ∀ name, name ∈ scan.added ↔ Names '+' text name
  removed : ∀ name, name ∈ scan.removed ↔ Names '-' text name

theorem names_append_of_unmarked
    (h : ∀ rest, line = mark :: rest → [mark, mark, mark] <+: line) :
    Names mark (text ++ [line]) name ↔ Names mark text name := by
  rw [names_append_iff, or_iff_left]
  rintro ⟨-, rest, hline, hmark, -⟩
  exact hmark (h rest hline)

theorem names_append_of_not_inLockfile (h : ¬InLockfile text) :
    Names mark (text ++ [line]) name ↔ Names mark text name := by
  rw [names_append_iff, or_iff_left fun hnames ↦ h hnames.1]

theorem names_append_of_marked (hlock : InLockfile text)
    (hmark : ¬[mark, mark, mark] <+: mark :: rest) :
    Names mark (text ++ [mark :: rest]) name ↔
      Names mark text name ∨ name ∈ (packageName? rest).toList := by
  rw [names_append_iff, Option.mem_toList]
  refine or_congr_right ⟨fun ⟨_, rest', hline, _, hname⟩ ↦ ?_, fun hname ↦
    ⟨hlock, rest, rfl, hmark, hname⟩⟩
  obtain rfl := (cons.inj hline).2
  exact hname

theorem IsDiffHeader.head {c : Char} (h : IsDiffHeader (c :: rest)) : c = 'd' :=
  (cons_prefix_cons.1 h).1.symm

theorem Read.step_header (h : Read text scan) (hheader : IsDiffHeader line) :
    Read (text ++ [line]) { scan with inLockfile := decide (IsLockfileHeader line) } := by
  have hunmarked (mark : Char) (hmark : mark ≠ 'd') :
      ∀ rest, line = mark :: rest → [mark, mark, mark] <+: line := by
    rintro rest rfl
    exact absurd hheader.head hmark
  refine ⟨?_, fun name ↦ ?_, fun name ↦ ?_⟩
  · rw [inLockfile_append_iff, if_pos hheader, decide_eq_true_iff]
  · rw [names_append_of_unmarked (hunmarked '+' (by decide))]
    exact h.added name
  · rw [names_append_of_unmarked (hunmarked '-' (by decide))]
    exact h.removed name

theorem Read.step_outside (h : Read text scan) (hheader : ¬IsDiffHeader line)
    (hlock : scan.inLockfile = false) :
    Read (text ++ [line]) scan := by
  have houtside : ¬InLockfile text := fun hin ↦ by simp [h.inLockfile.2 hin] at hlock
  refine ⟨?_, fun name ↦ ?_, fun name ↦ ?_⟩
  · rw [inLockfile_append_iff, if_neg hheader]
    exact h.inLockfile
  · rw [names_append_of_not_inLockfile houtside]
    exact h.added name
  · rw [names_append_of_not_inLockfile houtside]
    exact h.removed name

theorem Read.step_inside (h : Read text scan) (hheader : ¬IsDiffHeader line)
    (hlock : scan.inLockfile = true) :
    Read (text ++ [line]) (scan.read line) := by
  have hin : InLockfile text := h.inLockfile.1 hlock
  have hstays : scan.inLockfile = true ↔ InLockfile (text ++ [line]) := by
    rw [inLockfile_append_iff, if_neg hheader]
    exact h.inLockfile
  unfold LockfileScan.read
  rw [if_neg hheader, if_neg (by rw [hlock]; decide)]
  split
  · next rest =>
    have hother : ∀ rest', '+' :: rest = '-' :: rest' → ['-', '-', '-'] <+: '+' :: rest :=
      fun _ heq ↦ absurd (cons.inj heq).1 (by decide)
    split_ifs with hmark
    · refine ⟨hstays, fun name ↦ ?_, fun name ↦ ?_⟩
      · rw [names_append_of_unmarked fun _ _ ↦ hmark]
        exact h.added name
      · rw [names_append_of_unmarked hother]
        exact h.removed name
    · refine ⟨hstays, fun name ↦ ?_, fun name ↦ ?_⟩
      · rw [names_append_of_marked hin hmark, mem_append, h.added]
      · rw [names_append_of_unmarked hother]
        exact h.removed name
  · next rest =>
    have hother : ∀ rest', '-' :: rest = '+' :: rest' → ['+', '+', '+'] <+: '-' :: rest :=
      fun _ heq ↦ absurd (cons.inj heq).1 (by decide)
    split_ifs with hmark
    · refine ⟨hstays, fun name ↦ ?_, fun name ↦ ?_⟩
      · rw [names_append_of_unmarked hother]
        exact h.added name
      · rw [names_append_of_unmarked fun _ _ ↦ hmark]
        exact h.removed name
    · refine ⟨hstays, fun name ↦ ?_, fun name ↦ ?_⟩
      · rw [names_append_of_unmarked hother]
        exact h.added name
      · rw [names_append_of_marked hin hmark, mem_append, h.removed]
  · next hplus hminus =>
    refine ⟨hstays, fun name ↦ ?_, fun name ↦ ?_⟩
    · rw [names_append_of_unmarked fun rest heq ↦ absurd heq (hplus rest)]
      exact h.added name
    · rw [names_append_of_unmarked fun rest heq ↦ absurd heq (hminus rest)]
      exact h.removed name

theorem Read.step (h : Read text scan) :
    Read (text ++ [line]) (scan.read line) := by
  by_cases hheader : IsDiffHeader line
  · have hread : scan.read line =
        { scan with inLockfile := decide (IsLockfileHeader line) } := by
      unfold LockfileScan.read
      rw [if_pos hheader]
    rw [hread]
    exact h.step_header hheader
  · cases hlock : scan.inLockfile with
    | false =>
      have hread : scan.read line = scan := by
        unfold LockfileScan.read
        rw [if_neg hheader, if_pos hlock]
      rw [hread]
      exact h.step_outside hheader hlock
    | true => exact h.step_inside hheader hlock

theorem read_foldl (text : List (List Char)) : Read text (text.foldl LockfileScan.read {}) := by
  induction text using reverseRecOn with
  | nil =>
    exact ⟨iff_of_false nofun not_inLockfile_nil,
      fun _ ↦ iff_of_false not_mem_nil not_names_nil,
      fun _ ↦ iff_of_false not_mem_nil not_names_nil⟩
  | append_singleton text line ih =>
    rw [foldl_append]
    exact ih.step

theorem mem_lockfileAdditions_iff {diff : List UInt8} :
    name ∈ lockfileAdditions diff ↔
      Names '+' (lines (fromUtf8Lossy diff).toList) name ∧
        ¬Names '-' (lines (fromUtf8Lossy diff).toList) name := by
  have hread := read_foldl (lines (fromUtf8Lossy diff).toList)
  rw [lockfileAdditions, (perm_insertionSort _ _).mem_iff, mem_dedup, mem_filter,
    decide_eq_true_iff, hread.added, hread.removed]

end Scan

/-- Collect the evidence for a change. What the system says of a path is whether it is a symbolic
link, or that there is nothing. -/
def collectScopeEvidence (symlinkMetadata : String → Except String (Option Bool))
    (files : List ChangedFile) (diff : List UInt8) : Except String ScopeEvidence := do
  let symlinks ← (files.filter (·.kind ≠ .deleted)).filterM fun file ↦
    (symlinkMetadata file.path).map (· = some true)
  return {
    symlinkPaths := (symlinks.map (·.path)).dedup.insertionSort fun a b ↦ a ≤ b
    newExternalCrates := lockfileAdditions diff }

/-- The contents of the changed files on both sides of the change, and the dependencies on third
parties that a manifest or a lock file declares. -/
structure DependencyHistory (Dependency : Type) where
  before : ChangedFile → Option String
  after : ChangedFile → Option String
  /-- What the content of the file at a path declares, as its package manager reads it. -/
  dependencies : String → String → Set Dependency

def DependencyHistory.Introduces {Dependency : Type} (history : DependencyHistory Dependency)
    (file : ChangedFile) : Prop :=
  ∃ content ∈ history.after file, ∃ d ∈ history.dependencies file.path content,
    ∀ old ∈ history.before file, d ∉ history.dependencies (file.oldPath.getD file.path) old

/-- A change of a manifest or a lock file that a human has to review, and that the contract does not
declare exactly. -/
structure UndeclaredDependency (snapshot : ScopePolicySnapshot) (evidence : ScopeEvidence)
    (file : ChangedFile) (subject : Subject) : Prop where
  considered : Considered snapshot evidence file subject
  policy : snapshot.fileClassPolicies.policy? (classify snapshot subject.path).fileClass =
    some .humanReview
  dependency : (classify snapshot subject.path).fileClass.IsDependency
  undeclared : ¬∃ entry ∈ snapshot.contract,
    entry.matchKind = .exactFile ∧ entry.Matches subject.path

section Dependencies

variable {snapshot : ScopePolicySnapshot} {evidence : ScopeEvidence} {files : List ChangedFile}
  {file : ChangedFile} {subject : Subject} {diff : List UInt8} {Dependency : Type}
  {history : DependencyHistory Dependency}
  {symlinkMetadata : String → Except String (Option Bool)}

theorem UndeclaredDependency.grants_iff (hof : subject.Of file)
    (h : UndeclaredDependency snapshot evidence file subject) :
    (evaluateSubject snapshot evidence subject).decision.Grants ↔
      evidence.newExternalCrates = [] := by
  have hfirst : ¬∃ entry, FirstCovering snapshot.contract subject.path entry ∧
      entry.matchKind = .exactFile := by
    rintro ⟨entry, ⟨before, after, hcontract, hmatches, -⟩, hexact⟩
    have hmem : entry ∈ snapshot.contract :=
      hcontract ▸ mem_append_right _ mem_cons_self
    exact h.undeclared ⟨entry, hmem, hexact, hmatches⟩
  show (verdict snapshot evidence subject).decision.Grants ↔ _
  rw [verdict_of_considered hof h.considered, grants_classVerdict_iff, Granted, h.policy]
  exact (or_iff_right hfirst).trans (and_iff_right h.dependency)

/-- **What is allowed for adding no crate** brings no dependency that was absent before, exactly if
whatever brings one also adds a package to a lock file of Cargo that no lock file loses. -/
theorem grants_not_introduces_iff
    (hcollect : collectScopeEvidence symlinkMetadata files diff = .ok evidence) :
    (∀ file ∈ files, ∀ subject ∈ file.subjects,
      UndeclaredDependency snapshot evidence file subject →
      (evaluateSubject snapshot evidence subject).decision.Grants → ¬history.Introduces file) ↔
    ∀ file ∈ files, ∀ subject ∈ file.subjects,
      UndeclaredDependency snapshot evidence file subject → history.Introduces file →
      ∃ name, Names '+' (lines (fromUtf8Lossy diff).toList) name ∧
        ¬Names '-' (lines (fromUtf8Lossy diff).toList) name := by
  have hcrates : evidence.newExternalCrates = [] ↔
      ¬∃ name, Names '+' (lines (fromUtf8Lossy diff).toList) name ∧
        ¬Names '-' (lines (fromUtf8Lossy diff).toList) name := by
    obtain ⟨symlinks, -, hreturn⟩ := Except.bind_eq_ok.1 hcollect
    obtain rfl := Except.ok.inj hreturn
    simp only [eq_nil_iff_forall_not_mem, mem_lockfileAdditions_iff, not_exists]
  refine forall₂_congr fun file _ ↦ forall₂_congr fun subject hsubject ↦ forall_congr' fun h ↦ ?_
  rw [h.grants_iff (Subject.of_mem_subjects hsubject), hcrates]
  exact ⟨fun hall hbrings ↦ by_contra fun hnone ↦ hall hnone hbrings,
    fun hall hnone hbrings ↦ hnone (hall hbrings)⟩

end Dependencies

/-- No path is a symbolic link. -/
def regularFiles : String → Except String (Option Bool) :=
  fun _ ↦ .ok (some false)

/-- What lock files of Cargo and pinned requirements declare. -/
def pinnedDependencies (path content : String) : Set String :=
  if path = "requirements.txt" then
    { name | ∃ line ∈ lines content.toList, ∃ version,
      line = name.toList ++ "==".toList ++ version }
  else { name | ∃ line ∈ lines content.toList, packageName? line = some name }

namespace LockedCrate

/-- The lock file of Cargo gets a package. -/
def files : List ChangedFile :=
  [⟨"Cargo.lock", .modified, none, []⟩]

def diff : List UInt8 :=
  encodeUtf8 "diff --git a/Cargo.lock b/Cargo.lock\n+name = \"serde\"\n".toList

theorem lockfileAdditions_diff : lockfileAdditions diff = ["serde"] := by
  decide +kernel

def evidence : ScopeEvidence :=
  ⟨[], ["serde"]⟩

def history : DependencyHistory String where
  before := fun _ ↦ some ""
  after := fun _ ↦ some "name = \"serde\"\n"
  dependencies := pinnedDependencies

end LockedCrate

open LockedCrate in
theorem grants_not_introduces_locked :
    collectScopeEvidence regularFiles files diff = .ok evidence ∧
      ∀ file ∈ files, ∀ subject ∈ file.subjects,
        UndeclaredDependency linkSnapshot evidence file subject →
          (evaluateSubject linkSnapshot evidence subject).decision.Grants →
            ¬history.Introduces file := by
  have hcollect : collectScopeEvidence regularFiles files diff = .ok evidence := by
    show Except.ok (ScopeEvidence.mk _ (lockfileAdditions diff)) = _
    rw [lockfileAdditions_diff]
    rfl
  refine ⟨hcollect, (grants_not_introduces_iff hcollect).2 fun _ _ _ _ _ _ ↦ ⟨"serde", ?_⟩⟩
  exact mem_lockfileAdditions_iff.1 (lockfileAdditions_diff ▸ mem_cons_self)

namespace PinnedRequirement

/-- The requirements of a project in Python get a package. -/
def file : ChangedFile :=
  ⟨"requirements.txt", .modified, none, []⟩

def subject : Subject :=
  ⟨"modified:-:requirements.txt", .new, "requirements.txt", none, .modified⟩

def diff : List UInt8 :=
  encodeUtf8
    "diff --git a/requirements.txt b/requirements.txt\n@@ -1 +1,2 @@\n a==1\n+b==2\n".toList

theorem lockfileAdditions_diff : lockfileAdditions diff = [] := by
  decide

def history : DependencyHistory String where
  before := fun _ ↦ some "a==1\n"
  after := fun _ ↦ some "a==1\nb==2\n"
  dependencies := pinnedDependencies

theorem introduces_file : history.Introduces file := by
  refine ⟨_, rfl, "b", ⟨"b==2".toList, by decide, "2".toList, by decide⟩, ?_⟩
  rintro old hold ⟨line, hline, version, rfl⟩
  obtain rfl := Option.mem_some_iff.1 hold
  have honly : "b".toList ++ "==".toList ++ version = "a==1".toList :=
    mem_singleton.1 hline
  cases honly

theorem undeclaredDependency_subject :
    UndeclaredDependency linkSnapshot ⟨[], []⟩ file subject where
  considered := ⟨⟨by decide, by decide, by decide, by decide, by decide, by decide⟩,
    fun ⟨_, hrule, hprohibits⟩ ↦ by
      obtain rfl := mem_singleton.1 hrule
      exact absurd hprohibits (by decide),
    fun hcopy ↦ absurd hcopy.1 (by decide)⟩
  policy := by decide
  dependency := by decide
  undeclared := fun ⟨_, hmem, _⟩ ↦ not_mem_nil hmem

end PinnedRequirement

open PinnedRequirement in
/-- Only the lock files of Cargo are read: a package that the requirements of a project in Python
get is allowed. -/
theorem not_grants_not_introduces :
    ¬∀ (Dependency : Type) (history : DependencyHistory Dependency)
      (snapshot : ScopePolicySnapshot) (evidence : ScopeEvidence)
      (symlinkMetadata : String → Except String (Option Bool)) (files : List ChangedFile)
      (diff : List UInt8), collectScopeEvidence symlinkMetadata files diff = .ok evidence →
      ∀ file ∈ files, ∀ subject ∈ file.subjects,
        UndeclaredDependency snapshot evidence file subject →
        (evaluateSubject snapshot evidence subject).decision.Grants → ¬history.Introduces file := by
  intro hall
  have hcollect : collectScopeEvidence regularFiles [file] diff = .ok ⟨[], []⟩ := by
    show Except.ok (ScopeEvidence.mk _ (lockfileAdditions diff)) = _
    rw [lockfileAdditions_diff]
    rfl
  exact hall String history linkSnapshot ⟨[], []⟩ regularFiles [file] diff hcollect file
    mem_cons_self subject (by decide +kernel) undeclaredDependency_subject
    (by decide +kernel) introduces_file

end FamiliarAi
