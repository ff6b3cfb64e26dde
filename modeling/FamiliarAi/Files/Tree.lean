import Mathlib.Data.List.Infix
/-!
# Trees of files

A file system as one process sees it: directories, regular files, symbolic links and special files
at the locations of a tree. A location is the list of names from the root, the innermost first. What
a regular file holds belongs to its inode, and an inode can have several names.

The names and the contents are parameters.
-/

namespace Files

/-- What the user of the process may do. -/
structure Access where
  read : Bool
  write : Bool
  search : Bool

/-- What the user may do with what the process makes. -/
def Access.full : Access :=
  ⟨true, true, true⟩

/-- A step of a path. -/
inductive Step (Name : Type)
  | parent
  | name (n : Name)
  deriving DecidableEq

/-- A path as it is spelled. Repeated slashes and single dots say nothing but at its end, where they
ask for a directory. -/
structure Path (Name : Type) where
  absolute : Bool
  steps : List (Step Name)
  /-- The path ends in a slash or in a single dot. -/
  directory : Bool
  deriving DecidableEq

/-- The names from the root, the innermost first. -/
abbrev Location (Name : Type) :=
  List Name

/-- What a location holds. -/
inductive Node (Name : Type)
  | directory (access : Access)
  | file (inode : ℕ)
  | link (target : Path Name)
  | special

structure Inode (Content : Type) where
  content : Content
  access : Access
  /-- The number of names that the file has. -/
  names : ℕ

/-- A tree of files. What is not the root lies in a directory, and an inode knows when it has more
than one name. -/
structure Tree (Name Content : Type) where
  node : Location Name → Option (Node Name)
  inode : ℕ → Inode Content
  next : ℕ
  root_directory : ∃ access, node [] = some (.directory access)
  parent_directory : ∀ n l, node (n :: l) ≠ none → ∃ access, node l = some (.directory access)
  lt_next : ∀ l i, node l = some (.file i) → i < next
  one_lt_names : ∀ l l' i, node l = some (.file i) → node l' = some (.file i) → l ≠ l' →
    1 < (inode i).names

namespace Tree

variable {Name Content : Type} (tree : Tree Name Content) {l l' : Location Name} {n : Name}

def IsDirectory (l : Location Name) : Prop :=
  ∃ access, tree.node l = some (.directory access)

def IsLink (l : Location Name) : Prop :=
  ∃ target, tree.node l = some (.link target)

/-- There is something, and it is no symbolic link: looking the location up stays there. -/
def Settled (l : Location Name) : Prop :=
  tree.node l ≠ none ∧ ¬tree.IsLink l

/-- What the regular file at a location holds. -/
def contentAt (l : Location Name) : Option Content :=
  match tree.node l with
  | some (.file i) => some (tree.inode i).content
  | _ => none

instance : Decidable (tree.IsDirectory l) :=
  match h : tree.node l with
  | some (.directory access) => isTrue ⟨access, h⟩
  | none | some (.file _) | some (.link _) | some .special =>
    isFalse fun ⟨_, h'⟩ ↦ by simp [h] at h'

variable {tree}

theorem isDirectory_of_node {access : Access} (h : tree.node l = some (.directory access)) :
    tree.IsDirectory l :=
  ⟨access, h⟩

theorem IsDirectory.settled (h : tree.IsDirectory l) : tree.Settled l := by
  obtain ⟨access, h⟩ := h
  refine ⟨by simp [h], fun ⟨target, h'⟩ ↦ ?_⟩
  rw [h] at h'
  exact absurd (Option.some.inj h') nofun

theorem settled_nil : tree.Settled [] :=
  IsDirectory.settled tree.root_directory

theorem isDirectory_of_cons (h : tree.node (n :: l) ≠ none) : tree.IsDirectory l :=
  tree.parent_directory n l h

theorem isDirectory_of_suffix (h : tree.node l ≠ none) (hsuffix : l' <:+ l) (hne : l' ≠ l) :
    tree.IsDirectory l' := by
  induction l with
  | nil => exact absurd (List.suffix_nil.1 hsuffix) hne
  | cons n l ih =>
    have hparent := isDirectory_of_cons h
    rcases List.suffix_cons_iff.1 hsuffix with heq | hsuffix
    · exact absurd heq hne
    · by_cases heq : l' = l
      · exact heq ▸ hparent
      · exact ih hparent.settled.1 hsuffix heq

/-- Nothing lies below nothing. -/
theorem node_eq_none_of_suffix (h : tree.node l' = none) (hsuffix : l' <:+ l) :
    tree.node l = none := by
  by_contra hl
  by_cases heq : l' = l
  · exact hl (heq ▸ h)
  · exact (isDirectory_of_suffix hl hsuffix heq).settled.1 h

theorem contentAt_congr {tree' : Tree Name Content} (hnode : tree'.node l = tree.node l)
    (hinode : ∀ i, tree.node l = some (.file i) → tree'.inode i = tree.inode i) :
    tree'.contentAt l = tree.contentAt l := by
  rw [contentAt, contentAt, hnode]
  split
  · rw [hinode _ ‹_›]
  · rfl

theorem Settled.tail (h : tree.Settled l) : tree.Settled l.tail := by
  cases l with
  | nil => exact h
  | cons n l => exact (isDirectory_of_cons h.1).settled

/-! ### Changes -/

def root (content : Content) : Tree Name Content where
  node l := if l.isEmpty then some (.directory .full) else none
  inode _ := ⟨content, .full, 0⟩
  next := 0
  root_directory := ⟨.full, rfl⟩
  parent_directory _ _ h := absurd rfl h
  lt_next l _ h := by
    cases l <;> cases h
  one_lt_names l _ _ h := by
    cases l <;> cases h

section Changes

variable [DecidableEq Name]

/-- Nothing lies below what is new, so it may be anything. -/
theorem parent_directory_update {entry : Node Name} (hparent : tree.IsDirectory l)
    (hnew : tree.node (n :: l) = none) (m : Name) (k : Location Name)
    (h : Function.update tree.node (n :: l) (some entry) (m :: k) ≠ none) :
    ∃ access, Function.update tree.node (n :: l) (some entry) k = some (.directory access) := by
  by_cases hk : k = n :: l
  · have hm : m :: k ≠ n :: l := hk ▸ List.cons_ne_self m k
    rw [Function.update_of_ne hm] at h
    obtain ⟨access, hdirectory⟩ := tree.parent_directory m k h
    rw [hk, hnew] at hdirectory
    cases hdirectory
  rw [Function.update_of_ne hk]
  by_cases hm : m :: k = n :: l
  · exact (List.cons.inj hm).2 ▸ hparent
  · rw [Function.update_of_ne hm] at h
    exact tree.parent_directory m k h

def addEntry (tree : Tree Name Content) (n : Name) (l : Location Name) (entry : Node Name)
    (hentry : ∀ i, entry ≠ .file i) (hparent : tree.IsDirectory l)
    (hnew : tree.node (n :: l) = none) : Tree Name Content where
  node := Function.update tree.node (n :: l) (some entry)
  inode := tree.inode
  next := tree.next
  root_directory := by
    rw [Function.update_of_ne (List.cons_ne_nil n l).symm]
    exact tree.root_directory
  parent_directory := parent_directory_update hparent hnew
  lt_next k i h := by
    by_cases hk : k = n :: l
    · rw [hk, Function.update_self] at h
      exact absurd (Option.some.inj h) (hentry i)
    · rw [Function.update_of_ne hk] at h
      exact tree.lt_next k i h
  one_lt_names k k' i h h' hne := by
    have hof : ∀ j, Function.update tree.node (n :: l) (some entry) j = some (.file i) →
        tree.node j = some (.file i) := by
      intro j hj
      by_cases hjl : j = n :: l
      · rw [hjl, Function.update_self] at hj
        exact absurd (Option.some.inj hj) (hentry i)
      · rwa [Function.update_of_ne hjl] at hj
    exact tree.one_lt_names k k' i (hof k h) (hof k' h') hne

def addDirectory (tree : Tree Name Content) (n : Name) (l : Location Name)
    (hparent : tree.IsDirectory l) (hnew : tree.node (n :: l) = none) : Tree Name Content :=
  tree.addEntry n l (.directory .full) nofun hparent hnew

theorem addDirectory_node (hparent : tree.IsDirectory l) (hnew : tree.node (n :: l) = none) :
    (tree.addDirectory n l hparent hnew).node =
      Function.update tree.node (n :: l) (some (.directory .full)) :=
  rfl

def addFile (tree : Tree Name Content) (n : Name) (l : Location Name) (content : Content)
    (hparent : tree.IsDirectory l) (hnew : tree.node (n :: l) = none) : Tree Name Content where
  node := Function.update tree.node (n :: l) (some (.file tree.next))
  inode := Function.update tree.inode tree.next ⟨content, .full, 1⟩
  next := tree.next + 1
  root_directory := by
    rw [Function.update_of_ne (List.cons_ne_nil n l).symm]
    exact tree.root_directory
  parent_directory := parent_directory_update hparent hnew
  lt_next k i h := by
    by_cases hk : k = n :: l
    · rw [hk, Function.update_self] at h
      obtain rfl := Node.file.inj (Option.some.inj h)
      exact Nat.lt_succ_self _
    · rw [Function.update_of_ne hk] at h
      exact Nat.lt_succ_of_lt (tree.lt_next k i h)
  one_lt_names k k' i h h' hne := by
    have hold : ∀ j, j ≠ n :: l → Function.update tree.node (n :: l) (some (.file tree.next)) j =
        some (.file i) → tree.node j = some (.file i) := fun j hj h ↦ by
      rwa [Function.update_of_ne hj] at h
    have hnext : ∀ j, j = n :: l → Function.update tree.node (n :: l) (some (.file tree.next)) j =
        some (.file i) → i = tree.next := fun j hj h ↦ by
      rw [hj, Function.update_self] at h
      exact (Node.file.inj (Option.some.inj h)).symm
    by_cases hk : k = n :: l
    · have hlt := tree.lt_next k' i (hold k' (fun hk' ↦ hne (hk.trans hk'.symm)) h')
      exact absurd (hnext k hk h) hlt.ne
    · have hlt := tree.lt_next k i (hold k hk h)
      by_cases hk' : k' = n :: l
      · exact absurd (hnext k' hk' h') hlt.ne
      · rw [Function.update_of_ne hlt.ne]
        exact tree.one_lt_names k k' i (hold k hk h) (hold k' hk' h') hne

def setContent (tree : Tree Name Content) (i : ℕ) (content : Content) : Tree Name Content where
  node := tree.node
  inode := Function.update tree.inode i { tree.inode i with content }
  next := tree.next
  root_directory := tree.root_directory
  parent_directory := tree.parent_directory
  lt_next := tree.lt_next
  one_lt_names k k' j h h' hne := by
    have hlt := tree.one_lt_names k k' j h h' hne
    by_cases hj : j = i
    · rw [hj, Function.update_self]
      exact hj ▸ hlt
    · rwa [Function.update_of_ne hj]

end Changes

end Tree

end Files
