import FamiliarAi.Files.Tree

/-!
# Looking a path up

How the operating system finds the location of a path: step by step from the root or from the
current directory, through every symbolic link it meets, and at most forty of them. A call that may
make what is missing goes up to a last name that is not there.

What a successful lookup ends at is settled: there is something, and it is no link. Where no link
stands on its way, a location that is looked up by its own names is found (`walk_ofLocation`).
-/

namespace Files

open List

inductive OsError
  | notFound
  | permissionDenied
  | notADirectory
  | isADirectory
  | alreadyExists
  | tooManyLinks
  | invalidInput (detail : String)
  deriving DecidableEq

variable {Name Content : Type}

namespace Path

/-- Where the lookup of the path begins. -/
def start (path : Path Name) (cwd : Location Name) : Location Name :=
  if path.absolute then [] else cwd

/-- The path without any text. -/
def IsEmpty (path : Path Name) : Prop :=
  path.absolute = false ∧ path.steps = [] ∧ path.directory = false

instance (path : Path Name) : Decidable path.IsEmpty :=
  inferInstanceAs (Decidable (_ ∧ _ ∧ _))

def ofLocation (l : Location Name) : Path Name :=
  ⟨true, l.reverse.map .name, false⟩

def join (path other : Path Name) : Path Name :=
  if other.absolute ∨ path.IsEmpty then other
  else ⟨path.absolute, path.steps ++ other.steps, other.directory || other.steps.isEmpty⟩

end Path

namespace Tree

variable (tree : Tree Name Content) {cwd : Location Name} {names : List Name}

/-- Follow the steps of a path from a location up to the first link, and go on with `follow` there.
-/
def walkSteps (creating : Bool)
    (follow : Location Name → List (Step Name) → Bool → Except OsError (Location Name)) :
    Location Name → List (Step Name) → Bool → Except OsError (Location Name)
  | here, [], directory =>
    match tree.node here with
    | some (.directory access) =>
      if directory ∧ access.search = false then .error .permissionDenied else .ok here
    | _ => if directory then .error .notADirectory else .ok here
  | here, step :: rest, directory =>
    match tree.node here with
    | some (.directory access) =>
      if access.search then
        match step with
        | .parent => walkSteps creating follow here.tail rest directory
        | .name n =>
          match tree.node (n :: here) with
          | none =>
            if creating ∧ rest.isEmpty ∧ directory = false then .ok (n :: here)
            else .error .notFound
          | some (.link target) =>
            follow (target.start here) (target.steps ++ rest)
              (directory || rest.isEmpty && target.directory)
          | some _ => walkSteps creating follow (n :: here) rest directory
      else .error .permissionDenied
    | _ => .error .notADirectory

def walk (creating : Bool) :
    ℕ → Location Name → List (Step Name) → Bool → Except OsError (Location Name)
  | 0 => tree.walkSteps creating fun _ _ _ ↦ .error .tooManyLinks
  | links + 1 => tree.walkSteps creating (walk creating links)

/-- The number of links that a lookup follows. -/
def maxLinks : ℕ := 40

def lookup (creating : Bool) (cwd : Location Name) (path : Path Name) :
    Except OsError (Location Name) :=
  if path.IsEmpty then .error .notFound
  else tree.walk creating maxLinks (path.start cwd) path.steps path.directory

def canonicalize (cwd : Location Name) (path : Path Name) : Except OsError (Location Name) :=
  tree.lookup false cwd path

/-- `Path::symlink_metadata`: what is there under the path. A link at its end counts itself, but one
that more text follows, be it only a slash, is looked through. -/
def symlinkMetadata (cwd : Location Name) (path : Path Name) : Option (Node Name) :=
  match path.directory, path.steps.reverse with
  | false, .name n :: before =>
    match tree.walk false maxLinks (path.start cwd) before.reverse true with
    | .ok here => tree.node (n :: here)
    | .error _ => none
  | _, _ =>
    match tree.canonicalize cwd path with
    | .ok here => tree.node here
    | .error _ => none

/-- Where a path with these steps, the last one first, leads once the names that are missing at its
end are made. -/
def destinationFrom (cwd : Location Name) :
    Path Name → List (Step Name) → Except OsError (Location Name)
  | path, steps =>
    match tree.canonicalize cwd path with
    | .ok l => .ok l
    | .error .notFound =>
      match steps with
      | .name n :: above =>
        (destinationFrom cwd ⟨path.absolute, above.reverse, false⟩ above).map (n :: ·)
      | _ => .error .notFound
    | .error error => .error error
  termination_by structural _ steps => steps

/-- Where a path leads once the names that are missing at its end are made. -/
def destination (cwd : Location Name) (path : Path Name) : Except OsError (Location Name) :=
  tree.destinationFrom cwd path path.steps.reverse

/-! ### Where lookups end -/

variable {tree} {creating directory : Bool} {links : ℕ} {here l : Location Name}
  {step : Step Name} {steps rest : List (Step Name)} {n : Name}
  {follow : Location Name → List (Step Name) → Bool → Except OsError (Location Name)}

/-- What a lookup may end at: something settled, or a new name in a directory. -/
def EndsAt (tree : Tree Name Content) (creating : Bool) (l : Location Name) : Prop :=
  tree.Settled l ∨ creating = true ∧ tree.node l = none ∧ tree.IsDirectory l.tail

def Searchable (tree : Tree Name Content) (l : Location Name) : Prop :=
  ∃ access, tree.node l = some (.directory access) ∧ access.search = true

theorem Searchable.isDirectory (h : tree.Searchable l) : tree.IsDirectory l :=
  h.imp fun _ ↦ And.left

instance : Decidable (tree.Searchable l) :=
  match h : tree.node l with
  | some (.directory access) =>
    decidable_of_iff (access.search = true)
      ⟨fun hsearch ↦ ⟨access, h, hsearch⟩, fun ⟨_, h', hsearch⟩ ↦ by
        rw [h] at h'
        exact Node.directory.inj (Option.some.inj h') ▸ hsearch⟩
  | none | some (.file _) | some (.link _) | some .special =>
    isFalse fun ⟨_, h', _⟩ ↦ by simp [h] at h'

theorem walkSteps_nil (h : tree.walkSteps creating follow here [] directory = .ok l) :
    l = here ∧ (directory = true → tree.Searchable here) := by
  rw [walkSteps] at h
  split at h
  · rename_i access hdirectory
    split_ifs at h with hsearch
    refine ⟨(Except.ok.inj h).symm, fun hd ↦ ⟨access, hdirectory, ?_⟩⟩
    simpa [hd] using hsearch
  · split_ifs at h with hd
    exact ⟨(Except.ok.inj h).symm, fun hd' ↦ absurd hd' hd⟩

theorem walkSteps_nil_of_searchable (h : tree.Searchable here) :
    tree.walkSteps creating follow here [] directory = .ok here := by
  obtain ⟨access, hdirectory, hsearch⟩ := h
  simp [walkSteps, hdirectory, hsearch]

theorem walkSteps_search (h : tree.Searchable here) :
    tree.walkSteps creating follow here (step :: rest) directory =
      match step with
      | .parent => tree.walkSteps creating follow here.tail rest directory
      | .name n =>
        match tree.node (n :: here) with
        | none =>
          if creating ∧ rest.isEmpty ∧ directory = false then .ok (n :: here)
          else .error .notFound
        | some (.link target) =>
          follow (target.start here) (target.steps ++ rest)
            (directory || rest.isEmpty && target.directory)
        | some _ => tree.walkSteps creating follow (n :: here) rest directory := by
  obtain ⟨access, hdirectory, hsearch⟩ := h
  conv_lhs => unfold walkSteps
  simp only [hdirectory, hsearch, if_true]

theorem walkSteps_parent (h : tree.Searchable here) :
    tree.walkSteps creating follow here (.parent :: rest) directory =
      tree.walkSteps creating follow here.tail rest directory :=
  walkSteps_search h

theorem walkSteps_missing (h : tree.Searchable here) (hnone : tree.node (n :: here) = none) :
    tree.walkSteps creating follow here (.name n :: rest) directory =
      if creating ∧ rest.isEmpty ∧ directory = false then .ok (n :: here)
      else .error .notFound := by
  rw [walkSteps_search h]
  simp only [hnone]

theorem walkSteps_link (h : tree.Searchable here) {target : Path Name}
    (hlink : tree.node (n :: here) = some (.link target)) :
    tree.walkSteps creating follow here (.name n :: rest) directory =
      follow (target.start here) (target.steps ++ rest)
        (directory || rest.isEmpty && target.directory) := by
  rw [walkSteps_search h]
  simp only [hlink]

theorem walkSteps_settled (h : tree.Searchable here) (hsettled : tree.Settled (n :: here)) :
    tree.walkSteps creating follow here (.name n :: rest) directory =
      tree.walkSteps creating follow (n :: here) rest directory := by
  rw [walkSteps_search h]
  simp only
  split
  · exact absurd ‹_› hsettled.1
  · exact absurd ⟨_, ‹_›⟩ hsettled.2
  · rfl

theorem walkSteps_of_not_searchable (h : ¬tree.Searchable here) :
    tree.walkSteps creating follow here (step :: rest) directory = .error .permissionDenied ∨
      tree.walkSteps creating follow here (step :: rest) directory = .error .notADirectory := by
  unfold walkSteps
  split
  · rename_i access hdirectory
    exact .inl (if_neg fun hsearch ↦ h ⟨access, hdirectory, hsearch⟩)
  · exact .inr rfl

theorem node_cases (l : Location Name) :
    tree.node l = none ∨ (∃ target, tree.node l = some (.link target)) ∨ tree.Settled l := by
  by_cases hnone : tree.node l = none
  · exact .inl hnone
  · by_cases hlink : tree.IsLink l
    · exact .inr (.inl hlink)
    · exact .inr (.inr ⟨hnone, hlink⟩)

/-- **One step of a lookup that finds a location.** -/
theorem walkSteps_cons (h : tree.walkSteps creating follow here (step :: rest) directory = .ok l) :
    tree.Searchable here ∧
      (step = .parent ∧ tree.walkSteps creating follow here.tail rest directory = .ok l ∨
        ∃ n, step = .name n ∧
          (creating = true ∧ rest = [] ∧ tree.node (n :: here) = none ∧ l = n :: here ∨
            (∃ target, tree.node (n :: here) = some (.link target) ∧
              follow (target.start here) (target.steps ++ rest)
                (directory || rest.isEmpty && target.directory) = .ok l) ∨
            tree.Settled (n :: here) ∧
              tree.walkSteps creating follow (n :: here) rest directory = .ok l)) := by
  by_cases hsearch : tree.Searchable here
  · refine ⟨hsearch, ?_⟩
    cases step with
    | parent => exact .inl ⟨rfl, walkSteps_parent hsearch ▸ h⟩
    | name n =>
      refine .inr ⟨n, rfl, ?_⟩
      rcases tree.node_cases (n :: here) with hnone | ⟨target, hlink⟩ | hsettled
      · rw [walkSteps_missing hsearch hnone] at h
        split_ifs at h with hlast
        exact .inl ⟨hlast.1, isEmpty_iff.1 hlast.2.1, hnone, (Except.ok.inj h).symm⟩
      · exact .inr (.inl ⟨target, hlink, (walkSteps_link hsearch hlink).symm.trans h⟩)
      · exact .inr (.inr ⟨hsettled, walkSteps_settled hsearch hsettled ▸ h⟩)
  · rcases walkSteps_of_not_searchable hsearch with herror | herror <;>
    · rw [herror] at h
      cases h

theorem walkSteps_endsAt
    (hfollow : ∀ here steps directory l, tree.Settled here →
      follow here steps directory = .ok l → tree.EndsAt creating l)
    (hhere : tree.Settled here) (h : tree.walkSteps creating follow here steps directory = .ok l) :
    tree.EndsAt creating l := by
  induction steps generalizing here with
  | nil => exact (walkSteps_nil h).1 ▸ .inl hhere
  | cons step rest ih =>
    obtain ⟨hsearch, ⟨-, h⟩ | ⟨n, -, hname⟩⟩ := walkSteps_cons h
    · exact ih hhere.tail h
    · rcases hname with ⟨hcreating, -, hnone, rfl⟩ | ⟨target, -, h⟩ | ⟨hsettled, h⟩
      · exact .inr ⟨hcreating, hnone, hsearch.isDirectory⟩
      · refine hfollow _ _ _ l ?_ h
        rw [Path.start]
        split_ifs
        exacts [settled_nil, hhere]
      · exact ih hsettled h

/-- **Where a lookup ends.** -/
theorem walk_endsAt (hhere : tree.Settled here)
    (h : tree.walk creating links here steps directory = .ok l) : tree.EndsAt creating l := by
  induction links generalizing here steps directory l with
  | zero => exact walkSteps_endsAt (fun _ _ _ _ _ h ↦ by cases h) hhere h
  | succ links ih => exact walkSteps_endsAt (fun _ _ _ _ hhere h ↦ ih hhere h) hhere h

/-- **What a lookup finds is settled.** -/
theorem lookup_settled {path : Path Name} (h : tree.lookup false cwd path = .ok l) :
    tree.Settled l := by
  rw [lookup] at h
  split_ifs at h with hempty
  refine (walk_endsAt ?_ h).resolve_right fun h ↦ Bool.false_ne_true h.1
  -- the lookup of a relative path begins in a directory, or it fails
  have hsearch : path.absolute = false → tree.Searchable (path.start cwd) := fun habsolute ↦ by
    have hfirst : ∀ follow, tree.walkSteps false follow (path.start cwd) path.steps path.directory =
        .ok l → tree.Searchable (path.start cwd) := fun follow hwalk ↦ by
      rcases hsteps : path.steps with _ | ⟨step, rest⟩
      · rw [hsteps] at hwalk
        refine (walkSteps_nil hwalk).2 ?_
        by_contra hdirectory
        exact hempty ⟨habsolute, hsteps, by simpa using hdirectory⟩
      rw [hsteps] at hwalk
      exact (walkSteps_cons hwalk).1
    exact hfirst _ h
  rcases habsolute : path.absolute with _ | _
  · exact (hsearch habsolute).isDirectory.settled
  rw [Path.start, if_pos habsolute]
  exact settled_nil

/-- No link stands on the way to the location, nor at the location. -/
def Linkless (tree : Tree Name Content) (l : Location Name) : Prop :=
  ∀ k, k <:+ l → ¬tree.IsLink k

theorem Linkless.tail (h : tree.Linkless (n :: l)) : tree.Linkless l :=
  fun k hk ↦ h k (hk.trans (suffix_cons n l))

theorem Linkless.cons (h : tree.Linkless l) (hn : ¬tree.IsLink (n :: l)) :
    tree.Linkless (n :: l) := by
  intro k hk
  rcases suffix_cons_iff.1 hk with rfl | hk
  · exact hn
  · exact h k hk

theorem not_isLink_of_none (h : tree.node l = none) : ¬tree.IsLink l :=
  fun ⟨_, htarget⟩ ↦ absurd (h.symm.trans htarget) nofun

theorem Settled.linkless (h : tree.Settled l) : tree.Linkless l := by
  intro k hk
  by_cases heq : k = l
  · exact heq ▸ h.2
  · exact (isDirectory_of_suffix h.1 hk heq).settled.2

theorem suffix_of_cons_suffix {k k' : Location Name} (hk : here <:+ k) (hne : k ≠ here)
    (hn : n :: here <:+ k') (hkk' : k <:+ k') : n :: here <:+ k := by
  refine suffix_of_suffix_length_le hn hkk' ?_
  have hlength : here.length ≠ k.length := fun heq ↦ hne (hk.eq_of_length heq).symm
  have hle := hk.length_le
  rw [length_cons]
  omega

theorem walkSteps_names
    (hlinks : ∀ k, here <:+ k → k <:+ names.reverse ++ here → k ≠ here → ¬tree.IsLink k)
    (h : tree.walkSteps creating follow here (names.map .name) directory = .ok l) :
    l = names.reverse ++ here ∧ ∀ k, here <:+ k → k <:+ names.reverse ++ here →
      k ≠ names.reverse ++ here → tree.Searchable k := by
  induction names generalizing here with
  | nil => exact ⟨(walkSteps_nil h).1, fun k hk hk' hne ↦
      absurd (hk'.eq_of_length_le hk.length_le) hne⟩
  | cons n names ih =>
    rw [reverse_cons, append_assoc, singleton_append] at hlinks ⊢
    have hbelow : n :: here <:+ names.reverse ++ n :: here := suffix_append ..
    have hlink : ¬tree.IsLink (n :: here) :=
      hlinks _ (suffix_cons n here) hbelow (cons_ne_self n here)
    obtain ⟨hhere, ⟨hstep, -⟩ | ⟨m, hstep, hname⟩⟩ := walkSteps_cons h
    · cases hstep
    obtain rfl := Step.name.inj hstep
    -- what lies below the first name is passed after it
    have hpassed : ∀ k, here <:+ k → k <:+ names.reverse ++ n :: here →
        (n :: here <:+ k → tree.Searchable k) → tree.Searchable k := fun k hk hk' hbelow' ↦ by
      by_cases heq : k = here
      · exact heq ▸ hhere
      · exact hbelow' (suffix_of_cons_suffix hk heq hbelow hk')
    rcases hname with ⟨-, hlast, -, rfl⟩ | ⟨target, htarget, -⟩ | ⟨-, hrest⟩
    · obtain rfl := map_eq_nil_iff.1 hlast
      exact ⟨rfl, fun k hk hk' hne ↦ hpassed k hk hk' fun hn ↦
        absurd (hk'.eq_of_length_le hn.length_le) hne⟩
    · exact absurd ⟨target, htarget⟩ hlink
    · obtain ⟨hl, hsearch⟩ := ih (fun k hk hk' _ ↦
        hlinks k ((suffix_cons n here).trans hk) hk' fun heq ↦
          absurd (heq ▸ hk).length_le (by simp)) hrest
      exact ⟨hl, fun k hk hk' hne ↦ hpassed k hk hk' fun hn ↦ hsearch k hn hk' hne⟩

theorem walkSteps_ofLocation {cwd w : Location Name} (hlinkless : tree.Linkless l)
    (h : tree.lookup creating cwd (Path.ofLocation l) = .ok w) :
    w = l ∧ ∀ k, k <:+ l → k ≠ l → tree.Searchable k := by
  rw [lookup, if_neg fun hempty ↦ Bool.noConfusion hempty.1] at h
  have hlinks : ∀ k, [] <:+ k → k <:+ l.reverse.reverse ++ [] → k ≠ [] → ¬tree.IsLink k :=
    fun k _ hk _ ↦ hlinkless k (by simpa using hk)
  have hnames := walkSteps_names hlinks h
  rw [reverse_reverse, append_nil] at hnames
  exact ⟨hnames.1, fun k ↦ hnames.2 k nil_suffix⟩

/-- **A location is found by its own names**, where no link stands on the way. -/
theorem lookup_ofLocation {cwd w : Location Name} (hlinkless : tree.Linkless l)
    (h : tree.lookup creating cwd (Path.ofLocation l) = .ok w) : w = l :=
  (walkSteps_ofLocation hlinkless h).1

theorem searchable_of_lookup {cwd w k : Location Name} (hlinkless : tree.Linkless l)
    (h : tree.lookup creating cwd (Path.ofLocation l) = .ok w) (hk : k <:+ l) (hne : k ≠ l) :
    tree.Searchable k :=
  (walkSteps_ofLocation hlinkless h).2 k hk hne

/-! ### The last name of a lookup -/

theorem walkSteps_concat
    {again : Location Name → List (Step Name) → Bool → Except OsError (Location Name)}
    (hagain : tree.walk creating links = tree.walkSteps creating again)
    (hfollow : ∀ here steps directory l, follow here steps directory = .ok l → ∀ n d,
      ∃ links', again here (steps ++ [.name n]) d = tree.walk creating links' l [.name n] d)
    (h : tree.walkSteps false follow here steps directory = .ok l) (n : Name) (d : Bool) :
    ∃ links', tree.walkSteps creating again here (steps ++ [.name n]) d =
      tree.walk creating links' l [.name n] d := by
  induction steps generalizing here with
  | nil =>
    obtain rfl := (walkSteps_nil h).1
    exact ⟨links, by rw [hagain, nil_append]⟩
  | cons step rest ih =>
    rw [cons_append]
    obtain ⟨hsearch, ⟨rfl, hrest⟩ | ⟨m, rfl, hname⟩⟩ := walkSteps_cons h
    · rw [walkSteps_parent hsearch]
      exact ih hrest
    · rcases hname with ⟨hcreating, -⟩ | ⟨target, htarget, hrest⟩ | ⟨hsettled, hrest⟩
      · exact absurd hcreating Bool.false_ne_true
      · have hmore : (d || (rest ++ [Step.name n]).isEmpty && target.directory) = d := by simp
        rw [walkSteps_link hsearch htarget, ← append_assoc, hmore]
        exact hfollow _ _ _ _ hrest n d
      · rw [walkSteps_settled hsearch hsettled]
        exact ih hrest

theorem walk_concat (h : tree.walk false links here steps directory = .ok l) (n : Name) (d : Bool) :
    ∃ links', tree.walk creating links here (steps ++ [.name n]) d =
      tree.walk creating links' l [.name n] d := by
  induction links generalizing here steps directory l n d with
  | zero =>
    have hagain : tree.walk creating 0 = tree.walkSteps creating fun _ _ _ ↦ .error .tooManyLinks :=
      rfl
    exact walkSteps_concat hagain (fun _ _ _ _ h ↦ by cases h) h n d
  | succ links ih =>
    have hagain : tree.walk creating (links + 1) =
        tree.walkSteps creating (tree.walk creating links) :=
      rfl
    exact walkSteps_concat hagain (fun _ _ _ _ h n d ↦ ih h n d) h n d

theorem isLink_of_notFound (h : tree.walk false links here steps directory = .ok l) {d : Bool}
    (hmissing : tree.walk false links here (steps ++ [.name n]) d = .error .notFound) :
    tree.Searchable l ∧ (tree.node (n :: l) = none ∨ tree.IsLink (n :: l)) := by
  obtain ⟨links', heq⟩ := walk_concat h n d
  have hone : ∃ follow, tree.walkSteps false follow l [.name n] d = .error .notFound := by
    rw [heq] at hmissing
    cases links' with
    | zero => exact ⟨_, hmissing⟩
    | succ links' => exact ⟨_, hmissing⟩
  obtain ⟨follow, hone⟩ := hone
  by_cases hsearch : tree.Searchable l
  · refine ⟨hsearch, ?_⟩
    rcases tree.node_cases (n :: l) with hnone | hlink | hsettled
    · exact .inl hnone
    · exact .inr hlink
    · rw [walkSteps_settled hsearch hsettled, walkSteps] at hone
      split at hone <;> split_ifs at hone <;> cases hone
  · rcases walkSteps_of_not_searchable hsearch with herror | herror <;>
    · rw [herror] at hone
      cases hone

theorem walkSteps_directory
    (hfollow : ∀ here steps d, follow here steps d = .ok l → follow here steps true = .ok l)
    (h : tree.walkSteps false follow here steps directory = .ok l) (hl : tree.Searchable l) :
    tree.walkSteps false follow here steps true = .ok l := by
  induction steps generalizing here with
  | nil =>
    obtain rfl := (walkSteps_nil h).1
    exact walkSteps_nil_of_searchable hl
  | cons step rest ih =>
    obtain ⟨hhere, ⟨rfl, hrest⟩ | ⟨m, rfl, hname⟩⟩ := walkSteps_cons h
    · rw [walkSteps_parent hhere]
      exact ih hrest
    · rcases hname with ⟨hcreating, -⟩ | ⟨target, htarget, hrest⟩ | ⟨hsettled, hrest⟩
      · exact absurd hcreating Bool.false_ne_true
      · rw [walkSteps_link hhere htarget, Bool.true_or]
        exact hfollow _ _ _ hrest
      · rw [walkSteps_settled hhere hsettled]
        exact ih hrest

theorem walk_directory (h : tree.walk false links here steps directory = .ok l)
    (hl : tree.Searchable l) : tree.walk false links here steps true = .ok l := by
  induction links generalizing here steps directory with
  | zero => exact walkSteps_directory (fun _ _ _ h ↦ by cases h) h hl
  | succ links ih => exact walkSteps_directory (fun _ _ _ h ↦ ih h) h hl

/-- **Where a last name is missing.** A path that ends in a name and is not found, and under which
nothing shows, misses its last name. If more text follows the name, a link may stand there that
leads nowhere. -/
theorem node_eq_none_of_notFound {absolute : Bool}
    (habove : tree.canonicalize cwd ⟨absolute, steps, false⟩ = .ok l)
    (hmissing : tree.canonicalize cwd ⟨absolute, steps ++ [.name n], directory⟩ = .error .notFound)
    (hnothing : tree.symlinkMetadata cwd ⟨absolute, steps ++ [.name n], directory⟩ = none) :
    tree.node (n :: l) = none ∨ directory = true ∧ tree.IsLink (n :: l) := by
  rw [canonicalize, lookup] at habove hmissing
  split_ifs at habove with habove'
  split_ifs at hmissing with hmissing'
  · exact absurd hmissing'.2.1 (by simp)
  obtain ⟨hsearch, hnone | hlink⟩ := isLink_of_notFound habove hmissing
  · exact .inl hnone
  · refine .inr ⟨?_, hlink⟩
    by_contra hdirectory
    have hwalk := walk_directory habove hsearch
    rw [symlinkMetadata, reverse_append, reverse_singleton, singleton_append,
      Bool.eq_false_iff.2 hdirectory] at hnothing
    dsimp only at hnothing
    have hstart : (⟨absolute, steps ++ [.name n], false⟩ : Path Name).start cwd =
        (⟨absolute, steps, false⟩ : Path Name).start cwd := rfl
    rw [reverse_reverse, hstart, hwalk] at hnothing
    obtain ⟨target, htarget⟩ := hlink
    exact absurd (hnothing.symm.trans htarget) nofun

theorem walkSteps_of_searchable
    (h : ∀ k, here <:+ k → k <:+ names.reverse ++ here → tree.Searchable k) :
    tree.walkSteps false follow here (names.map .name) true = .ok (names.reverse ++ here) := by
  induction names generalizing here with
  | nil => exact walkSteps_nil_of_searchable (h here (suffix_refl _) (suffix_refl _))
  | cons n names ih =>
    rw [reverse_cons, append_assoc, singleton_append] at h ⊢
    have hn := h (n :: here) (suffix_cons n here) (suffix_append ..)
    have hhere := h here (suffix_refl _) ((suffix_cons n here).trans (suffix_append ..))
    rw [map_cons, walkSteps_settled hhere hn.isDirectory.settled]
    exact ih fun k hk hk' ↦ h k ((suffix_cons n here).trans hk) hk'

theorem symlinkMetadata_ofLocation (h : ∀ k, k <:+ l → tree.Searchable k) :
    tree.symlinkMetadata cwd (Path.ofLocation (n :: l)) = tree.node (n :: l) := by
  have hwalk : tree.walk false maxLinks [] (l.reverse.map .name) true = .ok l := by
    have hwalk : tree.walkSteps false (tree.walk false 39) [] (l.reverse.map .name) true =
        .ok (l.reverse.reverse ++ []) :=
      walkSteps_of_searchable fun k _ hk ↦ h k (by simpa using hk)
    rwa [reverse_reverse, append_nil] at hwalk
  have hreverse : (Path.ofLocation (n :: l)).steps.reverse = .name n :: l.map .name := by
    simp [Path.ofLocation, map_reverse]
  rw [symlinkMetadata, hreverse]
  show (match tree.walk false maxLinks [] (l.map .name).reverse true with
    | .ok _ => _
    | .error _ => _) = _
  rw [← map_reverse, hwalk]

end Tree

end Files
