import Mathlib.Data.Finset.Card

/-!
# Whether a goal can be reached

A depth-first search that stops at the first goal that a path leads to. It remembers the keys of the
nodes that it has been at, over all branches, and does not go to one of them again. It is given fuel
for the depth of its recursion; with as much of it as there are nodes the answer is exact
(`search_eq_true_iff`), on graphs with cycles and with shared successors too.

What carries the proof is what a branch without a goal leaves behind (`Settled`): from the nodes
that it has added, every edge leads to a node that was seen, and to no goal. The nodes that were
seen before the branch began are the business of those who saw them.
-/

namespace Reach

variable {V K : Type} [DecidableEq K] {fuel : ℕ}

section Search

variable (key : V → K) (next : V → List V) (goal : V → Bool)

def searchEach (search : V → Finset K → Bool × Finset K) : List V → Finset K → Bool × Finset K
  | [], seen => (false, seen)
  | w :: ws, seen =>
    if goal w then (true, seen)
    else
      match search w seen with
      | (true, seen) => (true, seen)
      | (false, seen) => searchEach search ws seen

/-- Whether a path from the node leads to a goal, and what was seen. -/
def search : ℕ → V → Finset K → Bool × Finset K
  | 0, _, seen => (false, seen)
  | fuel + 1, v, seen =>
    if key v ∈ seen then (false, seen)
    else searchEach goal (search fuel) (next v) (insert (key v) seen)

def Edge (v w : V) : Prop :=
  w ∈ next v

end Search

variable {key : V → K} {next : V → List V} {goal : V → Bool} {nodes : List V} {v : V}
  {seen seen' seen'' : Finset K}

/-- The nodes are told apart by their keys, and the edges do not leave them. -/
structure IsOn (key : V → K) (next : V → List V) (nodes : List V) : Prop where
  eq_of_key : ∀ v ∈ nodes, ∀ w ∈ nodes, key v = key w → v = w
  mem_of_next : ∀ v ∈ nodes, ∀ w ∈ next v, w ∈ nodes

theorem exists_of_search (h : (search key next goal fuel v seen).1 = true) :
    ∃ w, Relation.TransGen (Edge next) v w ∧ goal w = true := by
  induction fuel generalizing v seen with
  | zero => cases h
  | succ fuel ih =>
    rw [search] at h
    split at h
    · cases h
    · -- a branch finds a goal at its end, or below its end
      suffices hbranch : ∀ ws seen, (∀ w ∈ ws, w ∈ next v) →
          (searchEach goal (search key next goal fuel) ws seen).1 = true →
            ∃ w, Relation.TransGen (Edge next) v w ∧ goal w = true from
        hbranch _ _ (fun _ hw ↦ hw) h
      intro ws
      induction ws with
      | nil => exact fun _ _ h ↦ by cases h
      | cons w ws ihws =>
        intro seen hnext h
        have hedge : Edge next v w := hnext w List.mem_cons_self
        rw [searchEach] at h
        split at h
        · exact ⟨w, .single hedge, ‹_›⟩
        · split at h
          · rename_i hfound
            obtain ⟨w', hpath, hgoal⟩ := ih (congrArg Prod.fst hfound)
            exact ⟨w', .head hedge hpath, hgoal⟩
          · exact ihws _ (fun w' hw' ↦ hnext w' (List.mem_cons_of_mem _ hw')) h

/-! ### What is not found -/

/-- What a branch without a goal leaves behind. -/
structure Settled (key : V → K) (next : V → List V) (goal : V → Bool) (nodes : List V)
    (seen seen' : Finset K) : Prop where
  subset : seen ⊆ seen'
  next_of_new : ∀ v ∈ nodes, key v ∈ seen' → key v ∉ seen → ∀ w ∈ next v,
    goal w = false ∧ key w ∈ seen'

omit [DecidableEq K] in
theorem Settled.refl (seen : Finset K) : Settled key next goal nodes seen seen where
  subset := Finset.Subset.refl _
  next_of_new _ _ hin hout := absurd hin hout

theorem Settled.trans (h : Settled key next goal nodes seen seen')
    (h' : Settled key next goal nodes seen' seen'') : Settled key next goal nodes seen seen'' where
  subset := h.subset.trans h'.subset
  next_of_new v hv hin hout w hw := by
    by_cases hmid : key v ∈ seen'
    · obtain ⟨hgoal, hkey⟩ := h.next_of_new v hv hmid hout w hw
      exact ⟨hgoal, h'.subset hkey⟩
    · exact h'.next_of_new v hv hin hmid w hw

def unseen (key : V → K) (nodes : List V) (seen : Finset K) : ℕ :=
  ((nodes.map key).toFinset \ seen).card

theorem Settled.unseen_le (h : Settled key next goal nodes seen seen') :
    unseen key nodes seen' ≤ unseen key nodes seen :=
  Finset.card_le_card (Finset.sdiff_subset_sdiff (Finset.Subset.refl _) h.subset)

theorem unseen_insert_lt (hv : v ∈ nodes) (hnew : key v ∉ seen) :
    unseen key nodes (insert (key v) seen) < unseen key nodes seen := by
  refine Finset.card_lt_card ⟨Finset.sdiff_subset_sdiff (Finset.Subset.refl _)
    (Finset.subset_insert _ _), fun hsubset ↦ ?_⟩
  have hmem : key v ∈ (nodes.map key).toFinset \ seen :=
    Finset.mem_sdiff.2 ⟨List.mem_toFinset.2 (List.mem_map_of_mem hv), hnew⟩
  exact (Finset.mem_sdiff.1 (hsubset hmem)).2 (Finset.mem_insert_self _ _)

theorem settled_of_searchEach {visit : V → Finset K → Bool × Finset K} {ws : List V}
    (hvisit : ∀ w ∈ ws, ∀ seen seen', unseen key nodes seen ≤ fuel → visit w seen = (false, seen') → Settled key next goal nodes seen seen' ∧ key w ∈ seen')
    (hfuel : unseen key nodes seen ≤ fuel) (h : searchEach goal visit ws seen = (false, seen')) :
    Settled key next goal nodes seen seen' ∧ ∀ w ∈ ws, goal w = false ∧ key w ∈ seen' := by
  induction ws generalizing seen with
  | nil =>
    obtain ⟨-, rfl⟩ := Prod.mk.inj h
    exact ⟨.refl _, fun _ hw ↦ absurd hw List.not_mem_nil⟩
  | cons w ws ih =>
    rw [searchEach] at h
    by_cases hgoal : goal w = true
    · rw [if_pos hgoal] at h
      cases h
    rw [if_neg hgoal] at h
    split at h
    · cases h
    · rename_i seen₁ hsearch
      obtain ⟨hsettled, hkey⟩ := hvisit w List.mem_cons_self seen seen₁ hfuel hsearch
      obtain ⟨hrest, hws⟩ := ih (fun w' hw' ↦ hvisit w' (List.mem_cons_of_mem _ hw'))
        (hsettled.unseen_le.trans hfuel) h
      refine ⟨hsettled.trans hrest, fun w' hw' ↦ ?_⟩
      rcases List.mem_cons.1 hw' with rfl | hw'
      · exact ⟨Bool.not_eq_true _ ▸ hgoal, hrest.subset hkey⟩
      · exact hws w' hw'

theorem settled_of_search (hon : IsOn key next nodes) (hv : v ∈ nodes)
    (hfuel : unseen key nodes seen ≤ fuel) (h : search key next goal fuel v seen = (false, seen')) :
    Settled key next goal nodes seen seen' ∧ key v ∈ seen' := by
  induction fuel generalizing v seen seen' with
  | zero =>
    -- every node was seen, this one among them
    obtain ⟨-, rfl⟩ := Prod.mk.inj h
    refine ⟨.refl _, by_contra fun hnew ↦ ?_⟩
    have := unseen_insert_lt hv hnew
    omega
  | succ fuel ih =>
    rw [search] at h
    by_cases hin : key v ∈ seen
    · rw [if_pos hin] at h
      obtain ⟨-, rfl⟩ := Prod.mk.inj h
      exact ⟨.refl _, hin⟩
    rw [if_neg hin] at h
    have hless := unseen_insert_lt hv hin
    obtain ⟨hsettled, hnext⟩ := settled_of_searchEach
      (fun w hw _ _ hfuel hsearch ↦ ih (hon.mem_of_next v hv w hw) hfuel hsearch) (by omega) h
    refine ⟨⟨(Finset.subset_insert _ _).trans hsettled.subset, fun x hx hxin hxout ↦ ?_⟩,
      hsettled.subset (Finset.mem_insert_self _ _)⟩
    by_cases hxv : key x = key v
    · obtain rfl := hon.eq_of_key x hx v hv hxv
      exact hnext
    · refine hsettled.next_of_new x hx hxin fun hmem ↦ ?_
      rcases Finset.mem_insert.1 hmem with hmem | hmem
      · exact hxv hmem
      · exact hxout hmem

omit [DecidableEq K] in
theorem Settled.not_goal (h : Settled key next goal nodes ∅ seen) (hon : IsOn key next nodes)
    (hv : v ∈ nodes) (hin : key v ∈ seen) {w : V} (hpath : Relation.TransGen (Edge next) v w) :
    w ∈ nodes ∧ key w ∈ seen ∧ goal w = false := by
  induction hpath with
  | single hedge =>
    obtain ⟨hgoal, hkey⟩ := h.next_of_new v hv hin (Finset.notMem_empty _) _ hedge
    exact ⟨hon.mem_of_next v hv _ hedge, hkey, hgoal⟩
  | tail _ hedge ih =>
    obtain ⟨hmem, hkey, -⟩ := ih
    obtain ⟨hgoal, hkey'⟩ := h.next_of_new _ hmem hkey (Finset.notMem_empty _) _ hedge
    exact ⟨hon.mem_of_next _ hmem _ hedge, hkey', hgoal⟩

theorem unseen_empty_le : unseen key nodes ∅ ≤ nodes.length := by
  rw [unseen, Finset.sdiff_empty]
  exact (List.toFinset_card_le _).trans (List.length_map _).le

/-- **The search is exact.** With fuel for all nodes it finds a goal exactly when a path leads to
one. -/
theorem search_eq_true_iff (hon : IsOn key next nodes) (hv : v ∈ nodes) :
    (search key next goal nodes.length v ∅).1 = true ↔
      ∃ w, Relation.TransGen (Edge next) v w ∧ goal w = true := by
  refine ⟨exists_of_search, ?_⟩
  rintro ⟨w, hpath, hgoal⟩
  by_contra hnot
  obtain ⟨hsettled, hin⟩ := settled_of_search hon hv unseen_empty_le
    (Prod.ext (Bool.not_eq_true _ ▸ hnot) rfl)
  rw [(hsettled.not_goal hon hv hin hpath).2.2] at hgoal
  cases hgoal

end Reach
