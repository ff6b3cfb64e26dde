import FamiliarAi.Files.Walk

/-!
# Reading and writing files

The calls that make directories, read a file and write one, at the path of a location. Where no link
stands on the way, making the directories down to a location adds directories on the way and nothing
else, and writing a file changes that one file: `ChangedOnlyAt` says so of both.
-/

namespace Files

namespace Tree

variable {Name Content : Type} {k : Location Name} {content : Content}

section

variable [DecidableEq Name] (tree : Tree Name Content)

/-- `mkdir`. -/
def makeDirectory : Location Name → Except OsError (Tree Name Content)
  | [] => .error .alreadyExists
  | n :: above =>
    match tree.lookup false [] (Path.ofLocation above) with
    | .error e => .error e
    | .ok here =>
      match h : tree.node here with
      | some (.directory access) =>
        if access.search = false then .error .permissionDenied
        else
          match hnew : tree.node (n :: here) with
          | some _ => .error .alreadyExists
          | none =>
            if access.write = false then .error .permissionDenied
            else .ok (tree.addDirectory n here (isDirectory_of_node h) hnew)
      | _ => .error .notADirectory

/-- `Path::is_dir`. -/
def isDirectoryPath (l : Location Name) : Bool :=
  match tree.lookup false [] (Path.ofLocation l) with
  | .ok here => decide (tree.IsDirectory here)
  | .error _ => false

/-- `create_dir_all`. -/
def createDirectories : Location Name → Except OsError Unit × Tree Name Content
  | [] => (.ok (), tree)
  | n :: above =>
    match tree.makeDirectory (n :: above) with
    | .ok tree' => (.ok (), tree')
    | .error .notFound =>
      match createDirectories above with
      | (.error e, tree') => (.error e, tree')
      | (.ok (), tree') =>
        match tree'.makeDirectory (n :: above) with
        | .ok tree'' => (.ok (), tree'')
        | .error e => (if tree'.isDirectoryPath (n :: above) then .ok () else .error e, tree')
    | .error e => (if tree.isDirectoryPath (n :: above) then .ok () else .error e, tree)

def readFile (l : Location Name) : Except OsError Content :=
  match tree.lookup false [] (Path.ofLocation l) with
  | .error e => .error e
  | .ok here =>
    match tree.node here with
    | some (.file i) =>
      if (tree.inode i).access.read then .ok (tree.inode i).content else .error .permissionDenied
    | some (.directory _) => .error .isADirectory
    | _ => .error (.invalidInput "not a regular file")

/-- Write a file, which is made if it is missing, and tell where it lies. What is written to a
special file leaves the tree as it is. -/
def writeFile (l : Location Name) (content : Content) :
    Except OsError (Location Name) × Tree Name Content :=
  match tree.lookup true [] (Path.ofLocation l) with
  | .error e => (.error e, tree)
  | .ok here =>
    match h : tree.node here with
    | some (.directory _) => (.error .isADirectory, tree)
    | some (.link _) => (.error .tooManyLinks, tree)
    | some .special => (.ok here, tree)
    | some (.file i) =>
      if (tree.inode i).access.write then (.ok here, tree.setContent i content)
      else (.error .permissionDenied, tree)
    | none =>
      match here with
      | [] => (.error .notFound, tree)
      | n :: above =>
        match h' : tree.node above with
        | some (.directory access) =>
          if access.write then
            (.ok (n :: above), tree.addFile n above content (isDirectory_of_node h') h)
          else (.error .permissionDenied, tree)
        | _ => (.error .notADirectory, tree)

end

/-! ### What changes -/

/-- Nothing but `l` is different, and what is new on the way to it is a directory. -/
def ChangedOnlyAt (l : Location Name) (tree tree' : Tree Name Content) : Prop :=
  ∀ k, k ≠ l → tree'.node k = tree.node k ∧ tree'.contentAt k = tree.contentAt k ∨
    tree.node k = none ∧ k <:+ l ∧ tree'.IsDirectory k

/-- Directories were added on the way to the location. -/
structure Grown (l : Location Name) (tree tree' : Tree Name Content) : Prop where
  inode : tree'.inode = tree.inode
  node : ∀ k, tree'.node k = tree.node k ∨ tree.node k = none ∧ k <:+ l ∧ tree'.IsDirectory k

variable {tree tree' tree'' : Tree Name Content} {l above : Location Name} {n : Name}

theorem Grown.refl : Grown l tree tree :=
  ⟨rfl, fun _ ↦ .inl rfl⟩

theorem Grown.isDirectory (h : Grown l tree tree') (hk : tree.IsDirectory k) :
    tree'.IsDirectory k := by
  obtain ⟨access, hk⟩ := hk
  rcases h.node k with heq | ⟨hnone, -⟩
  · exact ⟨access, heq.trans hk⟩
  · rw [hnone] at hk
    cases hk

theorem Grown.trans (h : Grown l tree tree') (h' : Grown l tree' tree'') : Grown l tree tree'' where
  inode := h'.inode.trans h.inode
  node k := by
    rcases h.node k with heq | ⟨hnone, hsuffix, hdirectory⟩
    · rcases h'.node k with heq' | ⟨hnone', hrest⟩
      · exact .inl (heq'.trans heq)
      · exact .inr ⟨heq ▸ hnone', hrest⟩
    · exact .inr ⟨hnone, hsuffix, h'.isDirectory hdirectory⟩

theorem Grown.mono (h : Grown above tree tree') (hsuffix : above <:+ l) : Grown l tree tree' :=
  ⟨h.inode, fun k ↦ (h.node k).imp_right fun ⟨hnone, hk, hdirectory⟩ ↦
    ⟨hnone, hk.trans hsuffix, hdirectory⟩⟩

theorem Grown.linkless (h : Grown l tree tree') (hlinkless : tree.Linkless k) :
    tree'.Linkless k := by
  intro j hj ⟨target, htarget⟩
  rcases h.node j with heq | ⟨-, -, access, hdirectory⟩
  · exact hlinkless j hj ⟨target, heq ▸ htarget⟩
  · rw [hdirectory] at htarget
    cases htarget

theorem Grown.contentAt (h : Grown l tree tree') (hk : tree'.node k = tree.node k) :
    tree'.contentAt k = tree.contentAt k := by
  unfold Tree.contentAt
  rw [hk, h.inode]

/-- **Making the directories above a file and writing it changes nothing else.** -/
theorem Grown.changedOnlyAt (h : Grown l.tail tree tree') (h' : ChangedOnlyAt l tree' tree'') :
    ChangedOnlyAt l tree tree'' := by
  have hsuffix : l.tail <:+ l := List.tail_suffix l
  intro k hk
  rcases h.node k with heq | ⟨hnone, habove, hdirectory⟩
  · rcases h' k hk with ⟨hnode, hcontent⟩ | ⟨hnone, hrest⟩
    · exact .inl ⟨hnode.trans heq, hcontent.trans (h.contentAt heq)⟩
    · exact .inr ⟨heq ▸ hnone, hrest⟩
  · rcases h' k hk with ⟨hnode, -⟩ | ⟨-, -, hdirectory'⟩
    · obtain ⟨access, hdirectory⟩ := hdirectory
      exact .inr ⟨hnone, habove.trans hsuffix, access, hnode.trans hdirectory⟩
    · exact .inr ⟨hnone, habove.trans hsuffix, hdirectory'⟩

theorem ChangedOnlyAt.inside (h : ChangedOnlyAt l tree tree') {root : Location Name}
    (hroot : tree.Settled root) (hinside : root <:+ l) :
    ∀ k, tree'.node k ≠ tree.node k → root <:+ k := by
  intro k hne
  by_cases hk : k = l
  · exact hk ▸ hinside
  rcases h k hk with ⟨hsame, -⟩ | ⟨hnone, hsuffix, -⟩
  · exact absurd hsame hne
  · refine (List.suffix_or_suffix_of_suffix hinside hsuffix).resolve_right fun habove ↦ ?_
    -- what lies above something that is there is there
    exact hroot.1 (node_eq_none_of_suffix hnone habove)

theorem Grown.changed (h : Grown l.tail tree tree') : ChangedOnlyAt l tree tree' :=
  h.changedOnlyAt fun _ _ ↦ .inl ⟨rfl, rfl⟩

variable [DecidableEq Name]

theorem makeDirectory_grown (hlinkless : tree.Linkless l)
    (h : tree.makeDirectory l = .ok tree') : Grown l tree tree' := by
  revert h
  fun_cases tree.makeDirectory l with
  | case6 n above here hwalk _ _ _ hnew =>
    obtain rfl := lookup_ofLocation hlinkless.tail hwalk
    rintro ⟨⟩
    refine ⟨rfl, fun k ↦ ?_⟩
    by_cases hk : k = n :: here
    · refine .inr ⟨hk ▸ hnew, hk ▸ List.suffix_refl _, .full, ?_⟩
      rw [addDirectory_node, hk, Function.update_self]
    · exact .inl (Function.update_of_ne hk ..)
  | _ => exact nofun

/-- **Making directories adds directories**, all of them on the way. -/
theorem createDirectories_grown (hlinkless : tree.Linkless l) :
    Grown l tree (tree.createDirectories l).2 := by
  induction l with
  | nil => exact .refl
  | cons n above ih =>
    have hsuffix : above <:+ n :: above := List.suffix_cons n above
    rw [createDirectories]
    split
    · exact makeDirectory_grown hlinkless ‹_›
    · -- the directory above is missing and is made first
      have habove := (ih hlinkless.tail).mono hsuffix
      split
      · simpa [*] using habove
      · rename_i tree' heq
        rw [heq] at habove
        split
        · exact habove.trans (makeDirectory_grown (habove.linkless hlinkless) ‹_›)
        · exact habove
    · exact .refl

theorem writeFile_changedOnlyAt {w : Location Name} (hlinkless : tree.Linkless l)
    (hnames : ∀ i, tree.node l = some (.file i) → (tree.inode i).names ≤ 1)
    (h : tree.writeFile l content = (.ok w, tree')) : w = l ∧ ChangedOnlyAt l tree tree' := by
  revert h
  fun_cases tree.writeFile l content with
  | case4 here hwalk =>
    obtain rfl := lookup_ofLocation hlinkless hwalk
    rintro ⟨⟩
    exact ⟨rfl, fun k _ ↦ .inl ⟨rfl, rfl⟩⟩
  | case5 here hwalk i hfile =>
    obtain rfl := lookup_ofLocation hlinkless hwalk
    rintro ⟨⟩
    refine ⟨rfl, fun k hk ↦ .inl ⟨rfl, contentAt_congr rfl fun j hj ↦ ?_⟩⟩
    have hji : j ≠ i := by
      -- the inode has no other name
      rintro rfl
      exact absurd (tree.one_lt_names k _ j hj hfile hk) (Nat.not_lt.2 (hnames j hfile))
    exact Function.update_of_ne hji ..
  | case8 n above _ _ _ _ hwalk =>
    obtain rfl := lookup_ofLocation hlinkless hwalk
    rintro ⟨⟩
    refine ⟨rfl, fun k hk ↦ .inl ?_⟩
    have hnode : Function.update tree.node (n :: above) (some (.file tree.next)) k = tree.node k :=
      Function.update_of_ne hk ..
    exact ⟨hnode, contentAt_congr hnode fun i hi ↦
      Function.update_of_ne (tree.lt_next k i hi).ne ..⟩
  | _ => exact nofun

theorem writeFile_error {e : OsError} (h : tree.writeFile l content = (.error e, tree')) :
    tree' = tree := by
  revert h
  fun_cases tree.writeFile l content with
  | case4 | case5 | case8 => exact nofun
  | _ => exact fun h ↦ (Prod.mk.inj h).2.symm

end Tree

end Files
