import FamiliarAi.Context.Compiler

/-!
# How the search for references ends

The search goes over the text once for each root. A round finds the next place where the prefix of
the root stands and moves on over the characters of references that follow it there. The first of
these is the first character of the prefix: where that is no character of references, the round ends
where it found the prefix, the next one finds it there again, and the search never ends.
-/

namespace FamiliarAi.ContextCompiler

open Relation List

variable {needle text rest next before found : List Char} {fuel : ℕ} {content : String}

theorem of_splitAtFirst_eq_some (h : splitAtFirst needle text = some (before, found)) :
    text = before ++ found ∧ needle <+: found := by
  induction text generalizing before with
  | nil =>
    rw [splitAtFirst] at h
    split_ifs at h with hempty
    obtain ⟨rfl, rfl⟩ := Prod.mk.inj (Option.some.inj h)
    exact ⟨rfl, hempty ▸ prefix_rfl⟩
  | cons c text ih =>
    rw [splitAtFirst] at h
    split_ifs at h with hstarts
    · obtain ⟨rfl, rfl⟩ := Prod.mk.inj (Option.some.inj h)
      exact ⟨rfl, hstarts⟩
    · obtain ⟨⟨before', found'⟩, hsplit, heq⟩ := Option.map_eq_some_iff.1 h
      obtain ⟨rfl, rfl⟩ := Prod.mk.inj heq
      obtain ⟨rfl, hfound⟩ := ih hsplit
      exact ⟨rfl, hfound⟩

theorem splitAtFirst_of_isPrefix (h : needle <+: text) :
    splitAtFirst needle text = some ([], text) := by
  cases text with
  | nil => exact if_pos (prefix_nil.1 h)
  | cons c text => exact if_pos h

theorem isSome_splitAtFirst_iff : (splitAtFirst needle text).isSome ↔ needle <:+: text := by
  induction text with
  | nil =>
    rw [splitAtFirst, infix_nil]
    split_ifs with hempty <;> simp [hempty]
  | cons c text ih =>
    rw [splitAtFirst, infix_cons_iff]
    split_ifs with hstarts
    · exact iff_of_true rfl (.inl hstarts)
    · rw [Option.isSome_map, ih, or_iff_right hstarts]

/-- A round leaves the cursor where the characters of the reference end that it found. -/
def Round (needle rest next : List Char) : Prop :=
  ∃ before found, splitAtFirst needle rest = some (before, found) ∧
    next = found.dropWhile isReferenceChar

/-- In every round that the search comes to, the cursor moves on. -/
def Advances (needle text : List Char) : Prop :=
  ∀ rest next, ReflTransGen (Round needle) text rest → Round needle rest next →
    next.length < rest.length

def SearchEnds (needle text : List Char) : Prop :=
  ∃ fuel, (searchPrefix needle fuel text).isSome

def StartsReference (needle : List Char) : Prop :=
  ∃ c ∈ needle.head?, isReferenceChar c = true

instance : DecidablePred StartsReference := fun needle ↦
  decidable_of_iff (needle.head?.any isReferenceChar = true) (by
    rw [Option.any_eq_true]
    rfl)

theorem length_dropWhile_lt (hneedle : StartsReference needle) (hfound : needle <+: found) :
    (found.dropWhile isReferenceChar).length < found.length := by
  obtain ⟨c, hc, href⟩ := hneedle
  obtain ⟨tail, rfl⟩ := hfound
  obtain ⟨needle, rfl⟩ : ∃ needle', needle = c :: needle' := head?_eq_some_iff.1 hc
  calc ((c :: needle ++ tail).dropWhile isReferenceChar).length
      = ((needle ++ tail).dropWhile isReferenceChar).length := by
        rw [cons_append, dropWhile_cons_of_pos href]
    _ ≤ (needle ++ tail).length := (dropWhile_suffix _).length_le
    _ < (c :: needle ++ tail).length := by
        rw [cons_append, length_cons]
        omega

theorem Round.length_lt (hneedle : StartsReference needle) (h : Round needle rest next) :
    next.length < rest.length := by
  obtain ⟨before, found, hsplit, rfl⟩ := h
  obtain ⟨rfl, hfound⟩ := of_splitAtFirst_eq_some hsplit
  have hless := length_dropWhile_lt hneedle hfound
  rw [length_append]
  omega

theorem dropWhile_eq_self (hneedle : ¬StartsReference needle) (hnonempty : needle ≠ [])
    (hfound : needle <+: found) : found.dropWhile isReferenceChar = found := by
  obtain ⟨c, needle, rfl⟩ := exists_cons_of_ne_nil hnonempty
  obtain ⟨tail, rfl⟩ := hfound
  have hc : ¬isReferenceChar c = true := fun href ↦ hneedle ⟨c, rfl, href⟩
  rw [cons_append, dropWhile_cons_of_neg hc]

/-! ### The search -/

attribute [local grind =] searchPrefix

theorem isSome_searchPrefix (hneedle : StartsReference needle) (hfuel : rest.length < fuel) :
    (searchPrefix needle fuel rest).isSome := by
  induction fuel generalizing rest with
  | zero => omega
  | succ fuel ih =>
    rw [searchPrefix]
    rcases hsplit : splitAtFirst needle rest with _ | split
    · rfl
    obtain ⟨before, found⟩ := split
    have hless : (found.dropWhile isReferenceChar).length < rest.length :=
      Round.length_lt hneedle ⟨before, found, hsplit, rfl⟩
    show (Option.map _ (searchPrefix needle fuel (found.dropWhile isReferenceChar))).isSome
    rw [Option.isSome_map]
    exact ih (by omega)

theorem searchPrefix_of_not_occurs (habsent : ¬needle <:+: rest) :
    searchPrefix needle (fuel + 1) rest = some [] := by
  rw [← isSome_splitAtFirst_iff, Option.not_isSome_iff_eq_none] at habsent
  rw [searchPrefix, habsent]

theorem searchPrefix_stuck (hneedle : ¬StartsReference needle) (hnonempty : needle ≠ [])
    (hstarts : needle <+: rest) : searchPrefix needle fuel rest = none := by
  induction fuel with
  | zero => rfl
  | succ fuel ih =>
    rw [searchPrefix, splitAtFirst_of_isPrefix hstarts]
    show Option.map _ (searchPrefix needle fuel (rest.dropWhile isReferenceChar)) = none
    rw [dropWhile_eq_self hneedle hnonempty hstarts, ih, Option.map_none]

/-- Nor does the one that comes to it. -/
theorem searchPrefix_eq_none (hneedle : ¬StartsReference needle) (hnonempty : needle ≠ [])
    (hoccurs : needle <:+: text) : searchPrefix needle fuel text = none := by
  obtain ⟨⟨before, found⟩, hsplit⟩ := Option.isSome_iff_exists.1 (isSome_splitAtFirst_iff.2 hoccurs)
  obtain ⟨-, hfound⟩ := of_splitAtFirst_eq_some hsplit
  rcases fuel with _ | fuel
  · rfl
  rw [searchPrefix, hsplit]
  show Option.map _ (searchPrefix needle fuel (found.dropWhile isReferenceChar)) = none
  rw [dropWhile_eq_self hneedle hnonempty hfound,
    searchPrefix_stuck hneedle hnonempty hfound, Option.map_none]

/-- **One root**: its search moves on in every round, and ends, exactly if its prefix starts with a
character of references or does not occur. -/
theorem advances_and_ends_iff (hnonempty : needle ≠ []) :
    (Advances needle text ∧ SearchEnds needle text) ↔
      (needle <:+: text → StartsReference needle) := by
  constructor
  · rintro ⟨-, fuel, hends⟩ hoccurs
    by_contra hneedle
    rw [searchPrefix_eq_none hneedle hnonempty hoccurs] at hends
    cases hends
  · intro h
    by_cases hoccurs : needle <:+: text
    · exact ⟨fun _ _ _ hround ↦ hround.length_lt (h hoccurs), text.length + 1,
        isSome_searchPrefix (h hoccurs) (Nat.lt_succ_self _)⟩
    · refine ⟨fun rest next hreach hround ↦ ?_, 1, ?_⟩
      · -- no round is ever made
        have hfirst : ∀ next, ¬Round needle text next := by
          rintro next ⟨before, found, hsplit, -⟩
          exact hoccurs (isSome_splitAtFirst_iff.1 (hsplit ▸ rfl))
        obtain rfl | ⟨next, hfirst', -⟩ := hreach.cases_head
        · exact absurd hround (hfirst _)
        · exact absurd hfirst' (hfirst _)
      · rw [searchPrefix_of_not_occurs hoccurs]
        rfl

theorem searchEnds_iff (hnonempty : needle ≠ []) :
    SearchEnds needle text ↔ (searchPrefix needle (text.length + 1) text).isSome := by
  refine ⟨fun ⟨fuel, hends⟩ ↦ ?_, fun hends ↦ ⟨_, hends⟩⟩
  by_cases hoccurs : needle <:+: text
  · by_cases hneedle : StartsReference needle
    · exact isSome_searchPrefix hneedle (Nat.lt_succ_self _)
    · rw [searchPrefix_eq_none hneedle hnonempty hoccurs] at hends
      cases hends
  · rw [searchPrefix_of_not_occurs hoccurs]
    rfl

theorem pathPrefix_ne_nil {root : ContextReferenceRoot}
    (hroot : root.Validated) : root.pathPrefix.toList ≠ [] := by
  obtain ⟨init, hslash⟩ := hroot.2
  rw [← hslash]
  exact append_ne_nil_of_right_ne_nil _ (cons_ne_nil _ _)

theorem isSome_foldlM_discoverRoot {roots : List (String × String × DocumentKind)}
    {references : References} :
    (roots.foldlM (discoverRoot content) references).isSome ↔
      ∀ root ∈ roots, (searchPrefix root.1.toList (content.length + 1) content.toList).isSome := by
  induction roots generalizing references with
  | nil => exact iff_of_true rfl fun _ hmem ↦ absurd hmem not_mem_nil
  | cons root roots ih =>
    rw [foldlM_cons, forall_mem_cons]
    cases hsearch : searchPrefix root.1.toList (content.length + 1) content.toList with
    | none => simp [discoverRoot, hsearch]
    | some found => simp [discoverRoot, hsearch, ih]

theorem isSome_discoverProfiled_iff {roots : List ContextReferenceRoot}
    (hroots : ∀ root ∈ roots, root.Validated) :
    (discoverProfiled content roots).isSome ↔
      ∀ root ∈ roots, SearchEnds root.pathPrefix.toList content.toList := by
  rw [discoverProfiled, discoverRoots, isSome_foldlM_discoverRoot, forall_mem_map]
  refine forall₂_congr fun root hroot ↦ ?_
  rw [searchEnds_iff (pathPrefix_ne_nil (hroots root hroot)), String.length_toList]

/-- What the discovery of references has to do on a text: move on in every round, and end. -/
def DiscoveryTerminates (content : String) (roots : List ContextReferenceRoot) : Prop :=
  (∀ root ∈ roots, Advances root.pathPrefix.toList content.toList) ∧
    (discoverProfiled content roots).isSome

/-- **The discovery of references** below the roots of a configuration that was accepted moves on in
every round and ends, exactly if every prefix that occurs in the text starts with a character of
references. What the prefix ends with makes no difference. -/
theorem discoveryTerminates_iff {content : String} {roots : List ContextReferenceRoot}
    (hroots : ∀ root ∈ roots, root.Validated) :
    DiscoveryTerminates content roots ↔
      ∀ root ∈ roots, root.pathPrefix.toList <:+: content.toList →
        StartsReference root.pathPrefix.toList := by
  rw [DiscoveryTerminates, isSome_discoverProfiled_iff hroots]
  constructor
  · intro ⟨hadvances, hends⟩ root hroot
    exact (advances_and_ends_iff (pathPrefix_ne_nil (hroots root hroot))).1
      ⟨hadvances root hroot, hends root hroot⟩
  · intro h
    have hboth root (hroot : root ∈ roots) :=
      (advances_and_ends_iff (pathPrefix_ne_nil (hroots root hroot))).2 (h root hroot)
    exact ⟨fun root hroot ↦ (hboth root hroot).1, fun root hroot ↦ (hboth root hroot).2⟩

/-- The decision records of a repository, in a text that refers to one of them. -/
theorem discoveryTerminates_decisionRecords :
    DiscoveryTerminates "See docs/adr/0001.md." [⟨"docs/adr/", .adr⟩] :=
  (discoveryTerminates_iff (by decide +kernel)).2 (by decide +kernel)

/-- The configuration accepts a directory whose name starts with an at sign, and the search for its
documents never ends in a text that names it. -/
theorem not_discoveryTerminates_scoped :
    ¬∀ content roots, (∀ root ∈ roots, ContextReferenceRoot.Validated root) →
      DiscoveryTerminates content roots := by
  intro hall
  have hends := hall "See @docs/guide.md." [⟨"@docs/", .supporting⟩] (by decide +kernel)
  have hstuck : discoverProfiled "See @docs/guide.md." [⟨"@docs/", .supporting⟩] = none := by
    decide +kernel
  rw [DiscoveryTerminates, hstuck] at hends
  cases hends.2

end FamiliarAi.ContextCompiler
