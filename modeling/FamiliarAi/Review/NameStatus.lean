import FamiliarAi.Review.Types
import Mathlib.Data.List.Sort

/-!
# The list of changed files

Git lists the files of a change in fields that end with a zero byte: a status, and then one path, or
two for a rename or a copy. The fields carry no marks of their own, so a record is found only by
reading all records before it.

What is read are the records that stand one behind another, with one path or two as their status
says, and nothing else is accepted (`parseFields_eq_ok`). So the list that Git writes is read back,
in the order of the paths, when its paths are UTF-8 and plain; a path that is not is refused with
the list.
-/

namespace FamiliarAi

open Text Except

variable {files : List ChangedFile}

/-- Why the evidence of a change is not read. -/
inductive EvidenceError
  | malformedGit
  deriving DecidableEq

/-- `path`: a path as Git writes it. -/
def gitPath (value : List UInt8) : Except EvidenceError String :=
  match decodeUtf8? value with
  | none => .error .malformedGit
  | some p =>
    if p = [] ∨ p.head? = some '/' ∨ '\\' ∈ p ∨
        (splitOn '/' p).any (fun x ↦ x = ['.'] ∨ x = ['.', '.']) then
      .error .malformedGit
    else .ok (String.ofList p)

def statusKind : Char → Option GitChangeKind
  | 'A' => some .added
  | 'M' => some .modified
  | 'D' => some .deleted
  | 'T' => some .typeChanged
  | 'U' => some .unmerged
  | 'R' => some .renamed
  | 'C' => some .copied
  | _ => none

def GitChangeKind.TwoPaths (kind : GitChangeKind) : Prop :=
  kind = .renamed ∨ kind = .copied

instance : DecidablePred GitChangeKind.TwoPaths :=
  fun _ ↦ inferInstanceAs (Decidable (_ ∨ _))

/-- The records that the fields begin with, to the end. -/
def parseFields : List (List UInt8) → Except EvidenceError (List ChangedFile)
  | [] => .ok []
  | status :: fields =>
    match (decodeUtf8? status).bind fun text ↦ text.head?.bind statusKind with
    | none => .error .malformedGit
    | some kind =>
      if kind.TwoPaths then
        match fields with
        | old :: current :: fields => do
          let oldPath ← gitPath old
          let path ← gitPath current
          let files ← parseFields fields
          return ⟨path, kind, some oldPath, []⟩ :: files
        | _ => .error .malformedGit
      else
        match fields with
        | current :: fields => do
          let path ← gitPath current
          let files ← parseFields fields
          return ⟨path, kind, none, []⟩ :: files
        | [] => .error .malformedGit

def nulFields (bytes : List UInt8) : List (List UInt8) :=
  (bytes.splitOn 0).filter (· ≠ [])

def sortByPath (files : List ChangedFile) : List ChangedFile :=
  files.insertionSort fun a b ↦ a.path ≤ b.path

def parseNameStatus (bytes : List UInt8) : Except EvidenceError (List ChangedFile) := do
  let files ← parseFields (nulFields bytes)
  return sortByPath files

/-! ### Records -/

/-- A path below the repository, with nothing in it that leads out of it. -/
def PlainGitPath (path : String) : Prop :=
  path.toList ≠ [] ∧ path.toList.head? ≠ some '/' ∧ '\\' ∉ path.toList ∧
    ∀ part ∈ splitOn '/' path.toList, part ≠ ['.'] ∧ part ≠ ['.', '.']

def GitChangeKind.letter : GitChangeKind → Char
  | added => 'A'
  | modified => 'M'
  | deleted => 'D'
  | typeChanged => 'T'
  | unmerged => 'U'
  | renamed => 'R'
  | copied => 'C'

/-- A record as it is read: its kind, what its status says besides, and one path or two. -/
structure StatusRecord where
  kind : GitChangeKind
  detail : List Char
  oldPath : Option String
  path : String

namespace StatusRecord

def fields (record : StatusRecord) : List (List UInt8) :=
  encodeUtf8 (record.kind.letter :: record.detail) ::
    (record.oldPath.toList ++ [record.path]).map fun path ↦ encodeUtf8 path.toList

def file (record : StatusRecord) : ChangedFile :=
  ⟨record.path, record.kind, record.oldPath, []⟩

/-- The paths are plain and as many as the kind has. -/
structure WellFormed (record : StatusRecord) : Prop where
  twoPaths : record.oldPath.isSome = true ↔ record.kind.TwoPaths
  oldPath : ∀ path ∈ record.oldPath, PlainGitPath path
  path : PlainGitPath record.path

end StatusRecord

section Fields

variable {value : List UInt8} {path : String} {kind : GitChangeKind}

theorem gitPath_eq_ok :
    gitPath value = .ok path ↔ value = encodeUtf8 path.toList ∧ PlainGitPath path := by
  rw [gitPath]
  rcases hdecode : decodeUtf8? value with _ | p
  · refine ⟨nofun, fun ⟨hvalue, _⟩ ↦ ?_⟩
    rw [decodeUtf8?_eq_some.2 hvalue] at hdecode
    cases hdecode
  obtain rfl := decodeUtf8?_eq_some.1 hdecode
  rw [Except.ite_error_eq_ok, encodeUtf8_injective.eq_iff]
  have hplain : (¬(p = [] ∨ p.head? = some '/' ∨ '\\' ∈ p ∨
      (splitOn '/' p).any (fun x ↦ x = ['.'] ∨ x = ['.', '.']) = true)) ↔
      PlainGitPath (String.ofList p) := by
    simp [PlainGitPath, String.toList_ofList]
  rw [hplain]
  constructor
  · rintro ⟨hp, hok⟩
    obtain rfl := ok.inj hok
    exact ⟨String.toList_ofList.symm, hp⟩
  · rintro ⟨rfl, hp⟩
    have hpath : String.ofList path.toList = path := String.ofList_toList
    rw [hpath]
    exact ⟨hp, rfl⟩

theorem statusKind_eq_some {code : Char} : statusKind code = some kind ↔ code = kind.letter := by
  constructor
  · intro h
    unfold statusKind at h
    split at h <;> cases h <;> rfl
  · rintro rfl
    cases kind <;> rfl

theorem letter_injective : Function.Injective GitChangeKind.letter := by
  intro kind kind' h
  have hkind := statusKind_eq_some.2 (rfl : kind.letter = kind.letter)
  rw [statusKind_eq_some.2 h] at hkind
  exact (Option.some.inj hkind).symm

theorem status_eq_some {status : List UInt8} :
    (decodeUtf8? status).bind (fun text ↦ text.head?.bind statusKind) = some kind ↔
      ∃ detail, status = encodeUtf8 (kind.letter :: detail) := by
  rw [Option.bind_eq_some_iff]
  constructor
  · rintro ⟨text, htext, hkind⟩
    obtain ⟨code, hcode, hkind⟩ := Option.bind_eq_some_iff.1 hkind
    obtain rfl := statusKind_eq_some.1 hkind
    obtain ⟨detail, rfl⟩ := List.head?_eq_some_iff.1 hcode
    exact ⟨detail, decodeUtf8?_eq_some.1 htext⟩
  · rintro ⟨detail, rfl⟩
    exact ⟨_, decodeUtf8?_eq_some.2 rfl, statusKind_eq_some.2 rfl⟩

end Fields

theorem parseFields_fields {record : StatusRecord} (h : record.WellFormed)
    (rest : List (List UInt8)) : parseFields (record.fields ++ rest) = do
      let files ← parseFields rest
      return record.file :: files := by
  obtain ⟨kind, detail, oldPath, path⟩ := record
  obtain ⟨htwo, hold, hpath⟩ := h
  have hstatus := status_eq_some.2 ⟨detail, (rfl : encodeUtf8 (kind.letter :: detail) = _)⟩
  have hread := gitPath_eq_ok.2 ⟨rfl, hpath⟩
  rw [StatusRecord.fields, List.cons_append, parseFields, hstatus]
  dsimp only
  rcases oldPath with _ | oldPath
  · rw [if_neg fun htwo' ↦ Bool.false_ne_true (htwo.2 htwo')]
    show (gitPath (encodeUtf8 path.toList) >>= _) = _
    rw [hread]
    rfl
  have hreadOld := gitPath_eq_ok.2 ⟨rfl, hold oldPath rfl⟩
  rw [if_pos (htwo.1 rfl)]
  show (gitPath (encodeUtf8 oldPath.toList) >>= fun oldPath ↦
    gitPath (encodeUtf8 path.toList) >>= _) = _
  rw [hreadOld]
  show (gitPath (encodeUtf8 path.toList) >>= _) = _
  rw [hread]
  rfl

/-- **What is read are records that stand one behind another.** -/
theorem parseFields_eq_ok {fields : List (List UInt8)} :
    parseFields fields = .ok files ↔ ∃ records : List StatusRecord,
      (∀ record ∈ records, record.WellFormed) ∧ fields = records.flatMap StatusRecord.fields ∧
        files = records.map StatusRecord.file := by
  constructor
  · intro h
    induction fields using parseFields.induct generalizing files with
    | case1 =>
      cases h
      exact ⟨[], nofun, rfl, rfl⟩
    | case2 status fields hstatus =>
      rw [parseFields, hstatus] at h
      cases h
    | case3 status kind hstatus htwo old current fields ih =>
      rw [parseFields, hstatus] at h
      dsimp only at h
      rw [if_pos htwo] at h
      obtain ⟨oldPath, hold, h⟩ := Except.bind_eq_ok.1 h
      obtain ⟨path, hpath, h⟩ := Except.bind_eq_ok.1 h
      obtain ⟨rest, hrest, h⟩ := Except.bind_eq_ok.1 h
      cases h
      obtain ⟨records, hwell, rfl, rfl⟩ := ih hrest
      obtain ⟨detail, rfl⟩ := status_eq_some.1 hstatus
      obtain ⟨rfl, hplainOld⟩ := gitPath_eq_ok.1 hold
      obtain ⟨rfl, hplain⟩ := gitPath_eq_ok.1 hpath
      refine ⟨⟨kind, detail, some oldPath, path⟩ :: records, List.forall_mem_cons.2 ⟨?_, hwell⟩,
        rfl, rfl⟩
      exact ⟨⟨fun _ ↦ htwo, fun _ ↦ rfl⟩, fun p hp ↦ Option.some.inj hp ▸ hplainOld, hplain⟩
    | case4 status fields kind hstatus htwo hshort =>
      rw [parseFields, hstatus] at h
      dsimp only at h
      rw [if_pos htwo] at h
      split at h
      · exact absurd rfl (hshort _ _ _)
      · cases h
    | case5 status kind hstatus hone current fields ih =>
      rw [parseFields, hstatus] at h
      dsimp only at h
      rw [if_neg hone] at h
      obtain ⟨path, hpath, h⟩ := Except.bind_eq_ok.1 h
      obtain ⟨rest, hrest, h⟩ := Except.bind_eq_ok.1 h
      cases h
      obtain ⟨records, hwell, rfl, rfl⟩ := ih hrest
      obtain ⟨detail, rfl⟩ := status_eq_some.1 hstatus
      obtain ⟨rfl, hplain⟩ := gitPath_eq_ok.1 hpath
      refine ⟨⟨kind, detail, none, path⟩ :: records, List.forall_mem_cons.2 ⟨?_, hwell⟩, rfl, rfl⟩
      exact ⟨⟨nofun, fun htwo ↦ absurd htwo hone⟩, nofun, hplain⟩
    | case6 status kind hstatus hone =>
      rw [parseFields, hstatus] at h
      dsimp only at h
      rw [if_neg hone] at h
      cases h
  · rintro ⟨records, hwell, rfl, rfl⟩
    induction records with
    | nil => rfl
    | cons record records ih =>
      rw [List.flatMap_cons, parseFields_fields (hwell record List.mem_cons_self),
        ih fun r hr ↦ hwell r (List.mem_cons_of_mem _ hr)]
      rfl

/-! ### What Git writes -/

/-- A path as Git knows it: any bytes but zero. -/
structure GitPath where
  bytes : List UInt8
  nonempty : bytes ≠ []
  noNul : 0 ∉ bytes

/-- A change as Git knows it. A rename and a copy have a score and the path that they come from. -/
structure GitChange where
  kind : GitChangeKind
  score : ℕ
  oldPath : Option GitPath
  path : GitPath
  twoPaths : oldPath.isSome = true ↔ kind.TwoPaths

namespace GitChange

/-- The score in three digits, for the kinds that have one. -/
def scoreText (change : GitChange) : List Char :=
  if change.kind.TwoPaths then (Nat.toDigits 10 change.score).leftpad 3 '0' else []

def fields (change : GitChange) : List (List UInt8) :=
  encodeUtf8 (change.kind.letter :: change.scoreText) ::
    (change.oldPath.toList ++ [change.path]).map GitPath.bytes

/-- The file is the change, with its paths as texts. -/
structure Is (change : GitChange) (file : ChangedFile) : Prop where
  kind : file.kind = change.kind
  oldPath : change.oldPath.map GitPath.bytes = file.oldPath.map fun path ↦ encodeUtf8 path.toList
  path : change.path.bytes = encodeUtf8 file.path.toList
  lineSummary : file.lineSummary = []

end GitChange

/-- The fields, each with the zero byte that ends it. -/
def terminate (fields : List (List UInt8)) : List UInt8 :=
  fields.flatMap (· ++ [0])

def encodeNameStatus (changes : List GitChange) : List UInt8 :=
  terminate (changes.flatMap GitChange.fields)

def ChangedFile.Plain (file : ChangedFile) : Prop :=
  PlainGitPath file.path ∧ ∀ path ∈ file.oldPath, PlainGitPath path

section Encoding

variable {changes : List GitChange} {files : List ChangedFile}

theorem nulFields_terminate {fields : List (List UInt8)}
    (h : ∀ field ∈ fields, field ≠ [] ∧ 0 ∉ field) : nulFields (terminate fields) = fields := by
  induction fields with
  | nil => rfl
  | cons field fields ih =>
    obtain ⟨⟨hne, hnul⟩, hrest⟩ := List.forall_mem_cons.1 h
    rw [terminate, List.flatMap_cons, List.append_assoc, List.singleton_append, nulFields,
      List.splitOn_append_cons_self_of_not_mem hnul, List.filter_cons, if_pos (decide_eq_true hne)]
    exact congrArg (field :: ·) (ih hrest)

theorem notMem_utf8EncodeChar {c : Char} (hzero : c.toNat ≠ 0) (hascii : c.toNat < 128) :
    0 ∉ String.utf8EncodeChar c := by
  have hval : c.toNat = c.val.toNat := rfl
  have hle : c.val.toNat ≤ 127 := Nat.le_of_lt_succ hascii
  rw [String.utf8EncodeChar]
  simp only [hle, if_true]
  rw [List.mem_singleton]
  intro h
  have hbyte := congrArg UInt8.toNat h
  simp only [UInt8.toNat_zero, UInt8.toNat_ofNat'] at hbyte
  omega

theorem notMem_status (change : GitChange) :
    0 ∉ encodeUtf8 (change.kind.letter :: change.scoreText) := by
  rw [encodeUtf8, List.mem_flatMap]
  rintro ⟨c, hc, hnul⟩
  rcases List.mem_cons.1 hc with rfl | hc
  · exact absurd hnul (notMem_utf8EncodeChar (by cases change.kind <;> decide)
      (by cases change.kind <;> decide))
  · have hdigit : c.isDigit = true := by
      rw [GitChange.scoreText] at hc
      split_ifs at hc
      · rcases List.mem_append.1 hc with hc | hc
        · rw [(List.mem_replicate.1 hc).2]
          rfl
        · exact Nat.isDigit_of_mem_toDigits (by decide) (by decide) hc
      · exact absurd hc List.not_mem_nil
    simp only [Char.isDigit, Bool.and_eq_true, decide_eq_true_eq] at hdigit
    have hlow : 48 ≤ c.toNat := UInt32.le_iff_toNat_le.1 hdigit.1
    have hhigh : c.toNat ≤ 57 := UInt32.le_iff_toNat_le.1 hdigit.2
    exact notMem_utf8EncodeChar (by omega) (by omega) hnul

theorem fields_terminated (change : GitChange) :
    ∀ field ∈ change.fields, field ≠ [] ∧ 0 ∉ field := by
  refine List.forall_mem_cons.2 ⟨⟨?_, notMem_status change⟩, fun field hfield ↦ ?_⟩
  · intro hnil
    have hlength := congrArg List.length (List.append_eq_nil_iff.1 hnil).1
    rw [String.length_utf8EncodeChar] at hlength
    exact absurd hlength (Char.utf8Size_pos _).ne'
  · obtain ⟨path, -, rfl⟩ := List.mem_map.1 hfield
    exact ⟨path.nonempty, path.noNul⟩

theorem nulFields_encodeNameStatus (changes : List GitChange) :
    nulFields (encodeNameStatus changes) = changes.flatMap GitChange.fields := by
  refine nulFields_terminate fun field hfield ↦ ?_
  obtain ⟨change, -, hfield⟩ := List.mem_flatMap.1 hfield
  exact fields_terminated change field hfield

theorem exists_record {change : GitChange} {file : ChangedFile} (h : change.Is file)
    (hplain : file.Plain) :
    ∃ record : StatusRecord, record.WellFormed ∧ change.fields = record.fields ∧
      record.file = file := by
  obtain ⟨path, kind, oldPath, lineSummary⟩ := file
  obtain ⟨rfl, hold, hpath, rfl⟩ := h
  have hsome : change.oldPath.isSome = oldPath.isSome := by
    simpa using congrArg Option.isSome hold
  refine ⟨⟨change.kind, change.scoreText, oldPath, path⟩,
    ⟨hsome ▸ change.twoPaths, hplain.2, hplain.1⟩, ?_, rfl⟩
  have holds := congrArg Option.toList hold
  rw [Option.toList_map, Option.toList_map] at holds
  rw [GitChange.fields, StatusRecord.fields, List.map_append, List.map_append, holds]
  exact congrArg (_ :: _ ++ [·]) hpath

theorem exists_records (h : List.Forall₂ GitChange.Is changes files)
    (hplain : ∀ file ∈ files, file.Plain) :
    ∃ records : List StatusRecord, (∀ record ∈ records, record.WellFormed) ∧
      changes.flatMap GitChange.fields = records.flatMap StatusRecord.fields ∧
        files = records.map StatusRecord.file := by
  induction h with
  | nil => exact ⟨[], nofun, rfl, rfl⟩
  | cons hchange hchanges ih =>
    obtain ⟨hfirst, hrest⟩ := List.forall_mem_cons.1 hplain
    obtain ⟨record, hwell, hfields, rfl⟩ := exists_record hchange hfirst
    obtain ⟨records, hwells, hfields', rfl⟩ := ih hrest
    refine ⟨record :: records, List.forall_mem_cons.2 ⟨hwell, hwells⟩, ?_, rfl⟩
    rw [List.flatMap_cons, List.flatMap_cons, hfields, hfields']

/-- **Records are told apart by what stands before them**: where the fields of changes are those of
records, each change is the record in its place. -/
theorem exists_file_of_fields {records : List StatusRecord}
    (hwell : ∀ record ∈ records, record.WellFormed)
    (h : changes.flatMap GitChange.fields = records.flatMap StatusRecord.fields) :
    ∀ change ∈ changes, ∃ file, change.Is file ∧ file.Plain := by
  induction changes generalizing records with
  | nil => exact nofun
  | cons change changes ih =>
    rcases records with _ | ⟨record, records⟩
    · exact absurd h (List.cons_ne_nil _ _)
    obtain ⟨hfirst, hrest⟩ := List.forall_mem_cons.1 hwell
    rw [List.flatMap_cons, List.flatMap_cons, GitChange.fields, StatusRecord.fields,
      List.cons_append, List.cons_append] at h
    obtain ⟨hstatus, hpaths⟩ := List.cons.inj h
    have hkind : change.kind = record.kind :=
      letter_injective (List.cons.inj (encodeUtf8_injective hstatus)).1
    have hsome : change.oldPath.isSome = record.oldPath.isSome := by
      rw [Bool.eq_iff_iff, change.twoPaths, hfirst.twoPaths, hkind]
    cases hold : change.oldPath with
    | none =>
      cases hold' : record.oldPath with
      | none =>
        rw [hold, hold'] at hpaths
        obtain ⟨hpath, hfields⟩ := List.cons.inj hpaths
        refine List.forall_mem_cons.2 ⟨⟨record.file, ⟨hkind.symm, ?_, hpath, rfl⟩, hfirst.path,
          hfirst.oldPath⟩, ih hrest hfields⟩
        rw [hold, StatusRecord.file, hold']
        rfl
      | some oldPath' =>
        rw [hold, hold'] at hsome
        cases hsome
    | some oldPath =>
      rcases hold' : record.oldPath with _ | oldPath'
      · rw [hold, hold'] at hsome
        cases hsome
      rw [hold, hold'] at hpaths
      obtain ⟨hpathOld, hpaths⟩ := List.cons.inj hpaths
      obtain ⟨hpath, hfields⟩ := List.cons.inj hpaths
      refine List.forall_mem_cons.2 ⟨⟨record.file, ⟨hkind.symm, ?_, hpath, rfl⟩, hfirst.path,
        hfirst.oldPath⟩, ih hrest hfields⟩
      rw [hold, StatusRecord.file, hold']
      exact congrArg some hpathOld

end Encoding

theorem parseNameStatus_eq_ok {bytes : List UInt8} :
    parseNameStatus bytes = .ok files ↔
      ∃ read, parseFields (nulFields bytes) = .ok read ∧ files = sortByPath read := by
  rw [parseNameStatus, Except.bind_eq_ok]
  exact exists_congr fun read ↦ and_congr_right fun _ ↦
    ⟨fun h ↦ (ok.inj h).symm, fun h ↦ congrArg ok h.symm⟩

structure NameStatusRead : Prop where
  roundTrip : ∀ changes files, List.Forall₂ GitChange.Is changes files →
    (∀ file ∈ files, file.Plain) →
      parseNameStatus (encodeNameStatus changes) = .ok (sortByPath files)
  refused : ∀ changes, (∃ change ∈ changes, ∀ file, change.Is file → ¬file.Plain) →
    parseNameStatus (encodeNameStatus changes) = .error .malformedGit
  /-- What is read are records that stand one behind another, in the order of the paths. -/
  accepted : ∀ bytes files, parseNameStatus bytes = .ok files ↔ ∃ records : List StatusRecord,
    (∀ record ∈ records, record.WellFormed) ∧
      nulFields bytes = records.flatMap StatusRecord.fields ∧
        files = sortByPath (records.map StatusRecord.file)
  /-- Everything else is refused. -/
  malformed : ∀ bytes, (∀ files, parseNameStatus bytes ≠ .ok files) →
    parseNameStatus bytes = .error .malformedGit

/-- **The list of changed files is read back as Git writes it when its paths are plain, and nothing
is read but records that stand one behind another.** -/
theorem nameStatus_read : NameStatusRead where
  roundTrip changes files h hplain := by
    obtain ⟨records, hwell, hfields, rfl⟩ := exists_records h hplain
    refine parseNameStatus_eq_ok.2 ⟨_, parseFields_eq_ok.2 ⟨records, hwell, ?_, rfl⟩, rfl⟩
    rw [nulFields_encodeNameStatus, hfields]
  refused changes := by
    rintro ⟨change, hchange, hnone⟩
    rcases hread : parseNameStatus (encodeNameStatus changes) with e | files
    · cases e
      rfl
    obtain ⟨read, hfields, -⟩ := parseNameStatus_eq_ok.1 hread
    obtain ⟨records, hwell, hrecords, -⟩ := parseFields_eq_ok.1 hfields
    rw [nulFields_encodeNameStatus] at hrecords
    obtain ⟨file, hfile, hplain⟩ := exists_file_of_fields hwell hrecords change hchange
    exact absurd hplain (hnone file hfile)
  accepted bytes files := by
    rw [parseNameStatus_eq_ok]
    constructor
    · rintro ⟨read, hread, rfl⟩
      obtain ⟨records, hwell, hfields, rfl⟩ := parseFields_eq_ok.1 hread
      exact ⟨records, hwell, hfields, rfl⟩
    · rintro ⟨records, hwell, hfields, rfl⟩
      exact ⟨_, parseFields_eq_ok.2 ⟨records, hwell, hfields, rfl⟩, rfl⟩
  malformed bytes h := by
    cases hread : parseNameStatus bytes with
    | error e =>
      cases e
      rfl
    | ok files => exact absurd hread (h files)

theorem backslash_refused_and_letters_read :
    parseNameStatus (encodeNameStatus
      [⟨.added, 0, none, ⟨encodeUtf8 "a\\b".toList, by decide, by decide⟩, by decide⟩]) =
        .error .malformedGit ∧
    (∃ file, parseNameStatus (encodeUtf8 "\x00Another\x00\x00a".toList) = .ok [file] ∧
      file.path = "a" ∧ file.kind = .added) := by
  refine ⟨?_, ⟨"a", .added, none, []⟩, ?_, rfl, rfl⟩
  · decide +kernel
  · decide +kernel

end FamiliarAi
