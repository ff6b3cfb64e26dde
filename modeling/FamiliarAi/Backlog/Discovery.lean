import FamiliarAi.Backlog.Candidate
import Mathlib.Data.String.Basic

/-!
# Discovery of PRDs

The files of the active and of the archived directory whose names are those of PRDs are read, put in
order by identity and path, and refused when two of them have one identity. So **the PRDs of a
discovered backlog have different identities and lie at different paths**
(`nodup_ids_of_discoverWithLayout`, `nodup_paths_of_discoverWithLayout`): the identity of a PRD is
what its file name writes, and a path ends with the file name.
-/

namespace FamiliarAi

open Text List Except

/-! ### Directories -/

/-- An entry of a directory. A name that is not UTF-8 is none. -/
structure DirectoryItem where
  name : Option String
  plain : ∀ n ∈ name, '/' ∉ n.toList
  file : CandidateFile

/-- What reading a directory comes to. Each of its entries may fail. -/
inductive DirectoryListing
  | notFound (message : String)
  | unreadable (message : String)
  | items (items : List (Except String DirectoryItem))

/-- The two directories of a backlog. -/
structure BacklogTree where
  active : DirectoryListing
  archived : DirectoryListing

structure BacklogFile where
  name : String
  plain : '/' ∉ name.toList
  file : CandidateFile
  location : PrdLocation

def collectFiles (profile : BacklogProfile) (place : String) (location : PrdLocation) :
    List (Except String DirectoryItem) → Except BacklogError (List BacklogFile)
  | [] => .ok []
  | .error message :: _ => .error (.discovery ("cannot enumerate " ++ place ++ ": " ++ message))
  | .ok item :: items => do
    let files ← collectFiles profile place location items
    match hname : item.name with
    | none => .ok files
    | some name =>
      if (filenameIdentity name profile).isSome then
        .ok (⟨name, item.plain name hname, item.file, location⟩ :: files)
      else .ok files

def activeFiles (layout : BacklogLayout) : DirectoryListing → Except BacklogError (List BacklogFile)
  | .notFound message =>
    .error (.discovery ("cannot read " ++ layout.activeDir.text ++ ": " ++ message))
  | .unreadable message =>
    .error (.discovery ("cannot read " ++ layout.activeDir.text ++ ": " ++ message))
  | .items items => collectFiles layout.profile "docs/prds" .active items

def archivedFiles (layout : BacklogLayout) :
    DirectoryListing → Except BacklogError (List BacklogFile)
  | .notFound _ => .ok []
  | .unreadable message =>
    .error (.discovery ("cannot read " ++ layout.archivedDir.text ++ ": " ++ message))
  | .items items => collectFiles layout.profile layout.archivedDir.text .archived items

/-- The order in which files are read: UTF-8 orders names by their characters. -/
def BacklogFile.LE (a b : BacklogFile) : Prop :=
  a.name < b.name ∨ a.name = b.name ∧ (a.location = .active ∨ b.location = .archived)

instance BacklogFile.decidableLE : DecidableRel BacklogFile.LE :=
  fun _ _ ↦ inferInstanceAs (Decidable (_ ∨ _ ∧ (_ ∨ _)))

/-- The path of a file below the repository. -/
def BacklogFile.relative (layout : BacklogLayout) (file : BacklogFile) : String :=
  (match file.location with
    | .active => layout.activeDir.text
    | .archived => layout.archivedDir.text) ++ "/" ++ file.name

def parseFiles (sha256 : Sha256) (layout : BacklogLayout) :
    List BacklogFile → Except (Halt BacklogError) (List DiscoveredPrd × List String)
  | [] => .ok ([], [])
  | file :: files =>
    match parseCandidate sha256 layout file.file (file.relative layout) file.name file.location with
    | .error .panic => .error .panic
    | .ok prd => do
      let (parsed, errors) ← parseFiles sha256 layout files
      .ok (prd :: parsed, errors)
    | .error (.error e) => do
      let (parsed, errors) ← parseFiles sha256 layout files
      if file.location = .archived ∧ layout.profile = .numberedSlug then .ok (parsed, errors)
      else .ok (parsed, e.display :: errors)

/-- A PRD comes before another by its identity, and then by its path. -/
def DiscoveredPrd.LE (a b : DiscoveredPrd) : Prop :=
  if a.id == b.id then a.path.text ≤ b.path.text else a.id.LE b.id

instance DiscoveredPrd.decidableLE : DecidableRel DiscoveredPrd.LE :=
  fun a b ↦ inferInstanceAs (Decidable (if a.id == b.id then _ else _))

def checkIdentities : List DiscoveredPrd → Except BacklogError Unit
  | [] => .ok ()
  | [_] => .ok ()
  | a :: b :: prds =>
    if a.id == b.id then .error (.duplicateIdentity a.id (a.path.text ++ ", " ++ b.path.text))
    else checkIdentities (b :: prds)

def discoverWithLayout (sha256 : Sha256) (layout : BacklogLayout) (tree : BacklogTree) :
    Except (Halt BacklogError) (List DiscoveredPrd) := do
  let active ← (activeFiles layout tree.active).orHalt
  let archived ← (archivedFiles layout tree.archived).orHalt
  let (parsed, errors) ←
    parseFiles sha256 layout ((active ++ archived).insertionSort BacklogFile.LE)
  match errors with
  | [] => do
    let sorted := parsed.insertionSort DiscoveredPrd.LE
    (checkIdentities sorted).orHalt
    .ok sorted
  | _ => .error (.error (.discovery ("; ".intercalate errors)))

namespace DiscoveredPrd

variable {a b : DiscoveredPrd}

def rank (prd : DiscoveredPrd) : (ℕ ×ₗ WithTop Char) ×ₗ String :=
  toLex (prd.id.rank, prd.path.text)

theorem le_iff_rank : a.LE b ↔ a.rank ≤ b.rank := by
  rw [LE, rank, rank, Prod.Lex.toLex_le_toLex]
  by_cases hid : a.id.rank = b.id.rank
  · rw [if_pos (PrdId.beq_iff.2 hid)]
    exact ⟨fun h ↦ .inr ⟨hid, h⟩, fun h ↦ h.elim (fun h ↦ absurd hid h.ne) And.right⟩
  · rw [if_neg (mt PrdId.beq_iff.1 hid), PrdId.le_iff_rank]
    exact ⟨fun h ↦ .inl (lt_of_le_of_ne h hid), fun h ↦ h.elim le_of_lt fun h ↦ absurd h.1 hid⟩

instance LE.total : Std.Total DiscoveredPrd.LE :=
  ⟨fun a b ↦ by simpa only [le_iff_rank] using le_total a.rank b.rank⟩

instance LE.trans : IsTrans DiscoveredPrd DiscoveredPrd.LE :=
  ⟨fun a b c ↦ by simpa only [le_iff_rank] using le_trans⟩

theorem id_rank_le (h : a.LE b) : a.id.rank ≤ b.id.rank := by
  rcases Prod.Lex.toLex_le_toLex.1 (le_iff_rank.1 h) with h | h
  · exact le_of_lt h
  · exact le_of_eq h.1

end DiscoveredPrd

theorem nodup_of_checkIdentities {prds : List DiscoveredPrd} (hsorted : prds.Pairwise (·.LE ·))
    (hcheck : checkIdentities prds = .ok ()) : (prds.map (·.id.key)).Nodup := by
  have hchain : (prds.map (·.id.rank)).IsChain (· < ·) := by
    induction prds using checkIdentities.induct with
    | case1 => exact .nil
    | case2 prd => exact .singleton _
    | case3 a b prds hid =>
      rw [checkIdentities, if_pos hid] at hcheck
      cases hcheck
    | case4 a b prds hid ih =>
      rw [checkIdentities, if_neg hid] at hcheck
      rw [pairwise_cons] at hsorted
      refine .cons_cons ?_ (ih hsorted.2 hcheck)
      refine lt_of_le_of_ne (DiscoveredPrd.id_rank_le (hsorted.1 b mem_cons_self)) ?_
      exact mt PrdId.beq_iff.2 hid
  exact (sortedLT_iff_isChain.2 hchain).nodup

section Discovered

variable {sha256 : Sha256} {layout : BacklogLayout} {tree : BacklogTree}
  {discovered : List DiscoveredPrd}

theorem exists_file_of_parseFiles {files : List BacklogFile} {parsed : List DiscoveredPrd}
    {errors : List String} (h : parseFiles sha256 layout files = .ok (parsed, errors))
    {prd : DiscoveredPrd} (hprd : prd ∈ parsed) :
    ∃ file ∈ files, parseCandidate sha256 layout file.file (file.relative layout) file.name
      file.location = .ok prd := by
  induction files generalizing parsed errors with
  | nil =>
    obtain ⟨rfl, -⟩ := Prod.mk.inj (ok.inj h)
    cases hprd
  | cons file files ih =>
    rw [parseFiles] at h
    split at h
    · cases h
    · rename_i first hfirst
      obtain ⟨⟨rest, errors'⟩, hrest, h⟩ := Except.bind_eq_ok.1 h
      obtain ⟨rfl, -⟩ := Prod.mk.inj (ok.inj h)
      rcases mem_cons.1 hprd with rfl | hprd
      · exact ⟨file, mem_cons_self, hfirst⟩
      · obtain ⟨other, hmem, hother⟩ := ih hrest hprd
        exact ⟨other, mem_cons_of_mem _ hmem, hother⟩
    · obtain ⟨⟨rest, errors'⟩, hrest, h⟩ := Except.bind_eq_ok.1 h
      have hparsed : rest = parsed := by
        dsimp only at h
        split_ifs at h
        · exact (Prod.mk.inj (ok.inj h)).1
        · exact (Prod.mk.inj (ok.inj h)).1
      rw [hparsed] at hrest
      obtain ⟨other, hmem, hother⟩ := ih hrest hprd
      exact ⟨other, mem_cons_of_mem _ hmem, hother⟩

theorem discoverWithLayout_eq_ok
    (h : discoverWithLayout sha256 layout tree = .ok discovered) :
    ∃ files parsed, parseFiles sha256 layout files = .ok (parsed, []) ∧
      discovered = parsed.insertionSort DiscoveredPrd.LE ∧ checkIdentities discovered = .ok () := by
  unfold discoverWithLayout at h
  obtain ⟨active, -, h⟩ := Except.bind_eq_ok.1 h
  obtain ⟨archived, -, h⟩ := Except.bind_eq_ok.1 h
  obtain ⟨⟨parsed, errors⟩, hparsed, h⟩ := Except.bind_eq_ok.1 h
  cases errors with
  | nil =>
    obtain ⟨_, hcheck, h⟩ := Except.bind_eq_ok.1 h
    rw [← ok.inj h]
    exact ⟨_, parsed, hparsed, rfl, Except.orHalt_eq_ok.1 hcheck⟩
  | cons e errors => cases h

theorem nodup_ids_of_discoverWithLayout
    (h : discoverWithLayout sha256 layout tree = .ok discovered) :
    (discovered.map (·.id.key)).Nodup := by
  obtain ⟨files, parsed, -, rfl, hcheck⟩ := discoverWithLayout_eq_ok h
  exact nodup_of_checkIdentities (pairwise_insertionSort _ _) hcheck

theorem name_eq_of_relative_eq {a b : BacklogFile} (h : a.relative layout = b.relative layout) :
    a.name = b.name := by
  have hlist := congrArg String.toList h
  simp only [BacklogFile.relative, String.toList_append, append_assoc] at hlist
  exact String.toList_inj.1 (eq_of_append_cons_eq a.plain b.plain hlist)

theorem nodup_paths_of_discoverWithLayout
    (h : discoverWithLayout sha256 layout tree = .ok discovered) :
    (discovered.map (·.path)).Nodup := by
  have hids := nodup_ids_of_discoverWithLayout h
  obtain ⟨files, parsed, hparsed, rfl, -⟩ := discoverWithLayout_eq_ok h
  rw [List.Nodup, pairwise_map] at hids ⊢
  refine hids.imp_of_mem fun {a b} ha hb hne hpath ↦ hne ?_
  obtain ⟨fa, -, ha⟩ := exists_file_of_parseFiles hparsed ((mem_insertionSort _).1 ha)
  obtain ⟨fb, -, hb⟩ := exists_file_of_parseFiles hparsed ((mem_insertionSort _).1 hb)
  obtain ⟨hapath, -, awidth, haid⟩ := parseCandidate_eq_ok ha
  obtain ⟨hbpath, -, bwidth, hbid⟩ := parseCandidate_eq_ok hb
  have hname := name_eq_of_relative_eq (hapath.symm.trans ((congrArg _ hpath).trans hbpath))
  rw [hname, hbid] at haid
  obtain ⟨hnumber, hrest⟩ := Prod.mk.inj (ok.inj (Option.some.inj haid))
  exact congrArg₂ Prod.mk hnumber.symm (Prod.mk.inj hrest).1.symm

end Discovered

end FamiliarAi
