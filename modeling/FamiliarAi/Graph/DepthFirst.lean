import Mathlib.Data.Finset.Card
import Mathlib.Data.List.Chain

/-!
# Depth-first search for a cycle

A search colours nodes: white ones were not seen, grey ones lie on the path to the node at hand, black
ones are done. It stops at an edge into the path, which closes a cycle.

Nodes are looked up by keys, and edges are written with labels of which only the key matters. The
search is given fuel for the depth of its recursion. With as much of it as there are nodes it never
runs out (`search_spec`), whatever the graph.

What carries the proof is the meaning of the colours (`Good`). The grey nodes are the path, and the
path follows the edges; from a black node no path goes on forever.
-/

namespace DepthFirst

open List

variable {V K : Type}

/-- A graph whose nodes are looked up by key. -/
structure Digraph (V K : Type) where
  key : V → K
  /-- The successors of a node, if there is such a node. -/
  next? : K → Option (List V)

namespace Digraph

variable (G : Digraph V K)

def Edge (a b : K) : Prop :=
  ∃ vs, G.next? a = some vs ∧ ∃ v ∈ vs, G.key v = b

/-- No path comes back to where it began. -/
def Acyclic : Prop :=
  ∀ k, ¬Relation.TransGen G.Edge k k

/-- The keys follow the edges, and the last is the first. -/
def ClosedWalk (ks : List K) : Prop :=
  ∃ a l, ks = a :: (l ++ [a]) ∧ ks.IsChain G.Edge

/-- The nodes are those that can be looked up, and the edges lead to nodes. -/
structure IsOn (nodes : Finset K) : Prop where
  mem_of_next : ∀ {k vs}, G.next? k = some vs → k ∈ nodes
  next_of_mem : ∀ {k}, k ∈ nodes → ∃ vs, G.next? k = some vs ∧ ∀ v ∈ vs, G.key v ∈ nodes

variable {G}

theorem transGen_of_isChain {a b : K} {l : List K} (h : (a :: (l ++ [b])).IsChain G.Edge) :
    Relation.TransGen G.Edge a b := by
  induction l generalizing a with
  | nil => exact .single (isChain_pair.1 h)
  | cons c l ih =>
    obtain ⟨hac, htail⟩ := isChain_cons_cons.1 h
    exact .head hac (ih htail)

theorem Acyclic.not_closedWalk (h : G.Acyclic) {ks : List K} : ¬G.ClosedWalk ks := by
  rintro ⟨a, l, rfl, hchain⟩
  exact h a (transGen_of_isChain hchain)

/-- A node from which no path goes on forever is on no cycle. -/
theorem not_transGen_of_acc {k : K} (h : Acc (flip G.Edge) k) : ¬Relation.TransGen G.Edge k k := by
  induction h with
  | intro k _ ih =>
    intro hcycle
    obtain ⟨m, hkm, hmk⟩ := Relation.TransGen.head'_iff.1 hcycle
    exact ih m hkm (Relation.TransGen.tail' hmk hkm)

end Digraph

inductive Colour
  | white
  | grey
  | black
  deriving DecidableEq

/-- The state of a search. -/
structure Search (V K : Type) where
  colour : K → Colour
  /-- The path to the node at hand, from the outside in. -/
  stack : List V

/-- Why a search stops before its end. -/
inductive Stop (V : Type)
  | cycle (labels : List V)
  | panicked
  | exhausted

/-- Nothing was seen so far. -/
def Search.start : Search V K where
  colour _ := .white
  stack := []

section Run

variable [DecidableEq K] (G : Digraph V K)

def Search.enter (s : Search V K) (v : V) : Search V K where
  colour := Function.update s.colour (G.key v) .grey
  stack := s.stack ++ [v]

def Search.leave (s : Search V K) (v : V) : Search V K where
  colour := Function.update s.colour (G.key v) .black
  stack := s.stack.dropLast

/-- Follow an edge from the node at hand, visiting what was not seen. -/
def follow (visit : V → Search V K → Except (Stop V) (Search V K)) (s : Search V K) (w : V) :
    Except (Stop V) (Search V K) :=
  match s.colour (G.key w) with
  | .white => visit w s
  | .grey =>
    match s.stack.findIdx? fun u ↦ G.key u = G.key w with
    | some position => .error (.cycle (s.stack.drop position ++ [w]))
    | none => .error .panicked
  | .black => .ok s

/-- Visit the node of a label, and with it all that it leads to. -/
def visit : ℕ → V → Search V K → Except (Stop V) (Search V K)
  | 0, _, _ => .error .exhausted
  | fuel + 1, v, s =>
    match G.next? (G.key v) with
    | none => .error .panicked
    | some vs => do
      let s ← vs.foldlM (follow G (visit fuel)) (s.enter G v)
      return s.leave G v

/-- Visit the nodes that were not seen, in order. -/
def search (fuel : ℕ) (vs : List V) : Except (Stop V) (Search V K) :=
  vs.foldlM (fun s v ↦ if s.colour (G.key v) = .white then visit G fuel v s else .ok s) .start

end Run

/-! ### The colours -/

section Monotone

variable {G : Digraph V K} {x : Except (Stop V) (Search V K)} {Q R : Search V K → Prop}

/-- **The colours mean something.** The grey nodes are the path and the path follows the edges; from a
black node no path goes on forever. -/
structure Good (G : Digraph V K) (s : Search V K) : Prop where
  grey : ∀ k, s.colour k = .grey ↔ k ∈ s.stack.map G.key
  nodup : (s.stack.map G.key).Nodup
  path : (s.stack.map G.key).IsChain G.Edge
  black : ∀ k, s.colour k = .black → Acc (flip G.Edge) k

/-- What a search does while it is at one node: the path is as it was, and colours only darken. -/
structure Extends (s s' : Search V K) : Prop where
  stack : s'.stack = s.stack
  black : ∀ k, s.colour k = .black → s'.colour k = .black
  white : ∀ k, s'.colour k = .white → s.colour k = .white

theorem Extends.refl (s : Search V K) : Extends s s :=
  ⟨rfl, fun _ h ↦ h, fun _ h ↦ h⟩

theorem Extends.trans {s s' s'' : Search V K} (h : Extends s s') (h' : Extends s' s'') :
    Extends s s'' :=
  ⟨h'.stack.trans h.stack, fun k hk ↦ h'.black k (h.black k hk), fun k hk ↦ h.white k (h'.white k hk)⟩

/-- The number of nodes that were not seen. -/
def Search.unseen (s : Search V K) (nodes : Finset K) : ℕ :=
  (nodes.filter (s.colour · = .white)).card

theorem Extends.unseen_le {s s' : Search V K} (h : Extends s s') (nodes : Finset K) :
    s'.unseen nodes ≤ s.unseen nodes :=
  Finset.card_le_card (Finset.monotone_filter_right _ fun k _ ↦ h.white k)

/-- The search goes on with `Q`, or it found a cycle. -/
def Result (G : Digraph V K) (Q : Search V K → Prop) : Except (Stop V) (Search V K) → Prop
  | .ok s => Q s
  | .error (.cycle labels) => G.ClosedWalk (labels.map G.key)
  | .error .panicked | .error .exhausted => False

theorem Result.bind {f : Search V K → Except (Stop V) (Search V K)} (hx : Result G Q x)
    (hf : ∀ s, Q s → Result G R (f s)) : Result G R (x >>= f) := by
  rcases x with (labels | _ | _) | s
  · exact hx
  · exact hx.elim
  · exact hx.elim
  · exact hf s hx

theorem Result.imp (hx : Result G Q x) (hQR : ∀ s, Q s → R s) : Result G R x := by
  rcases x with (labels | _ | _) | s
  · exact hx
  · exact hx.elim
  · exact hx.elim
  · exact hQR s hx

end Monotone

section Colours

variable [DecidableEq K] {G : Digraph V K} {s : Search V K} {nodes : Finset K} {v : V}
  {base : List V} {vs : List V} {fuel : ℕ}

@[simp]
theorem Search.enter_colour_self (s : Search V K) (v : V) :
    (s.enter G v).colour (G.key v) = .grey :=
  Function.update_self ..

theorem Search.enter_colour_of_ne (s : Search V K) {k : K} (h : k ≠ G.key v) :
    (s.enter G v).colour k = s.colour k :=
  Function.update_of_ne h ..

@[simp]
theorem Search.leave_colour_self (s : Search V K) (v : V) :
    (s.leave G v).colour (G.key v) = .black :=
  Function.update_self ..

theorem Search.leave_colour_of_ne (s : Search V K) {k : K} (h : k ≠ G.key v) :
    (s.leave G v).colour k = s.colour k :=
  Function.update_of_ne h ..

theorem unseen_enter_lt (hwhite : s.colour (G.key v) = .white) (hv : G.key v ∈ nodes) :
    (s.enter G v).unseen nodes < s.unseen nodes := by
  refine Finset.card_lt_card ((Finset.ssubset_iff_of_subset ?_).2 ⟨G.key v, ?_, ?_⟩)
  · refine Finset.monotone_filter_right _ fun k _ hk ↦ ?_
    by_cases hkey : k = G.key v
    · exact hkey ▸ hwhite
    · rwa [Search.enter_colour_of_ne s hkey] at hk
  · exact Finset.mem_filter.2 ⟨hv, hwhite⟩
  · intro hmem
    have hgrey := (Finset.mem_filter.1 hmem).2
    rw [Search.enter_colour_self] at hgrey
    cases hgrey

theorem Good.enter (h : Good G s) (hwhite : s.colour (G.key v) = .white)
    (hedge : ∀ u ∈ s.stack.getLast?, G.Edge (G.key u) (G.key v)) : Good G (s.enter G v) := by
  have hfresh : G.key v ∉ s.stack.map G.key := by
    rw [← h.grey, hwhite]
    decide
  have hstack : (s.enter G v).stack.map G.key = s.stack.map G.key ++ [G.key v] := map_append
  refine ⟨fun k ↦ ?_, ?_, ?_, fun k hk ↦ ?_⟩
  · rw [hstack, mem_append, mem_singleton]
    by_cases hk : k = G.key v
    · simp [hk]
    · rw [Search.enter_colour_of_ne s hk, h.grey]
      exact (or_iff_left hk).symm
  · rw [hstack, ← concat_eq_append]
    exact .concat hfresh h.nodup
  · rw [hstack]
    refine isChain_append.2 ⟨h.path, isChain_singleton _, ?_⟩
    intro a ha b hb
    rw [getLast?_map] at ha
    obtain ⟨u, hu, rfl⟩ := Option.map_eq_some_iff.1 ha
    obtain rfl := Option.some.inj hb
    exact hedge u hu
  · by_cases hkey : k = G.key v
    · rw [hkey, Search.enter_colour_self] at hk
      cases hk
    · rw [Search.enter_colour_of_ne s hkey] at hk
      exact h.black k hk

/-- **A node is done** when all that it leads to is. -/
theorem Good.leave (h : Good G s) (hstack : s.stack = base ++ [v])
    (hdone : ∀ k, G.Edge (G.key v) k → s.colour k = .black) :
    Good G (s.leave G v) := by
  have hbase : (s.leave G v).stack = base := by
    show s.stack.dropLast = base
    rw [hstack, dropLast_concat]
  have hmap : s.stack.map G.key = base.map G.key ++ [G.key v] := by
    rw [hstack, map_append]
    rfl
  have hnodup := h.nodup
  rw [hmap, ← concat_eq_append, nodup_concat] at hnodup
  refine ⟨fun k ↦ ?_, ?_, ?_, fun k hk ↦ ?_⟩
  · rw [hbase]
    by_cases hk : k = G.key v
    · rw [hk, Search.leave_colour_self]
      exact iff_of_false (by decide) hnodup.1
    · rw [Search.leave_colour_of_ne s hk, h.grey, hmap, mem_append, mem_singleton]
      exact or_iff_left hk
  · rw [hbase]
    exact hnodup.2
  · rw [hbase]
    have hpath := h.path
    rw [hmap] at hpath
    exact (isChain_append.1 hpath).1
  · by_cases hkey : k = G.key v
    · rw [hkey]
      exact ⟨_, fun m hm ↦ h.black m (hdone m hm)⟩
    · rw [Search.leave_colour_of_ne s hkey] at hk
      exact h.black k hk

/-- **An edge into the path closes a cycle.** -/
theorem Good.closedWalk {v w : V} {position : ℕ} (h : Good G s) (hstack : s.stack = base ++ [v])
    (hedge : G.Edge (G.key v) (G.key w))
    (hposition : s.stack.findIdx? (fun u ↦ G.key u = G.key w) = some position) :
    G.ClosedWalk ((s.stack.drop position ++ [w]).map G.key) := by
  obtain ⟨hlt, hkey, -⟩ := findIdx?_eq_some_iff_getElem.1 hposition
  rw [decide_eq_true_eq] at hkey
  have hdrop : s.stack.drop position = s.stack[position] :: s.stack.drop (position + 1) :=
    drop_eq_getElem_cons hlt
  have hmap : (s.stack.drop position ++ [w]).map G.key =
      G.key w :: ((s.stack.drop (position + 1)).map G.key ++ [G.key w]) := by
    rw [hdrop, cons_append, map_cons, hkey, map_append]
    rfl
  refine ⟨_, _, hmap, ?_⟩
  rw [map_append, map_drop]
  refine isChain_append.2 ⟨h.path.drop position, isChain_singleton _, ?_⟩
  intro a ha b hb
  obtain rfl := Option.some.inj hb
  -- The path ends at the node at hand.
  rw [getLast?_drop] at ha
  split_ifs at ha
  · cases ha
  · rw [hstack, map_append, map_singleton, getLast?_concat] at ha
    obtain rfl := Option.some.inj ha
    exact hedge

/-! ### Visits -/

def Visits (G : Digraph V K) (nodes : Finset K) (fuel : ℕ)
    (visit : V → Search V K → Except (Stop V) (Search V K)) : Prop :=
  ∀ v s, Good G s → s.colour (G.key v) = .white → G.key v ∈ nodes →
    (∀ u ∈ s.stack.getLast?, G.Edge (G.key u) (G.key v)) → s.unseen nodes ≤ fuel →
    Result G (fun s' ↦ Good G s' ∧ Extends s s' ∧ s'.colour (G.key v) = .black) (visit v s)

section Follow

variable {nodes : Finset K} {fuel : ℕ} {visit : V → Search V K → Except (Stop V) (Search V K)}
  {s : Search V K} {base : List V} {v : V}

/-- **An edge that was followed leads to a node that is done.** -/
theorem Visits.follow {w : V} (hvisit : Visits G nodes fuel visit) (hs : Good G s)
    (hstack : s.stack = base ++ [v]) (hw : G.key w ∈ nodes) (hedge : G.Edge (G.key v) (G.key w))
    (hfuel : s.unseen nodes ≤ fuel) :
    Result G (fun s' ↦ Good G s' ∧ Extends s s' ∧ s'.colour (G.key w) = .black)
      (follow G visit s w) := by
  unfold DepthFirst.follow
  split
  · rename_i hwhite
    refine hvisit w s hs hwhite hw ?_ hfuel
    rw [hstack, getLast?_concat]
    rintro _ ⟨⟩
    exact hedge
  · rename_i hgrey
    split
    · rename_i position hposition
      exact hs.closedWalk hstack hedge hposition
    · rename_i hnone
      -- A grey node lies on the path.
      obtain ⟨u, hu, hkey⟩ := mem_map.1 ((hs.grey _).1 hgrey)
      have hne := findIdx?_eq_none_iff.1 hnone u hu
      rw [decide_eq_false_iff_not] at hne
      exact hne hkey
  · rename_i hblack
    exact ⟨hs, .refl s, hblack⟩

theorem Visits.followAll (hvisit : Visits G nodes fuel visit) {ws : List V}
    (hws : ∀ w ∈ ws, G.key w ∈ nodes ∧ G.Edge (G.key v) (G.key w)) (hs : Good G s)
    (hstack : s.stack = base ++ [v]) (hfuel : s.unseen nodes ≤ fuel) :
    Result G (fun s' ↦ Good G s' ∧ Extends s s' ∧ ∀ w ∈ ws, s'.colour (G.key w) = .black)
      (ws.foldlM (DepthFirst.follow G visit) s) := by
  induction ws generalizing s with
  | nil => exact ⟨hs, .refl s, nofun⟩
  | cons w ws ih =>
    rw [foldlM_cons]
    obtain ⟨hw, hedge⟩ := hws w mem_cons_self
    refine (hvisit.follow hs hstack hw hedge hfuel).bind fun s' ⟨hs', hext, hblack⟩ ↦ ?_
    have htail := ih (fun w hw ↦ hws w (mem_cons_of_mem _ hw)) hs' (hext.stack.trans hstack)
      ((hext.unseen_le nodes).trans hfuel)
    refine htail.imp fun s'' ⟨hs'', hext', hall⟩ ↦ ⟨hs'', hext.trans hext', ?_⟩
    rintro u (_ | ⟨_, hu⟩)
    · exact hext'.black _ hblack
    · exact hall u hu

end Follow

/-- **A visit with fuel for the nodes that were not seen** makes its node done, or finds a cycle. -/
theorem visits_visit (hnodes : G.IsOn nodes) (fuel : ℕ) :
    Visits G nodes fuel (visit G fuel) := by
  induction fuel with
  | zero =>
    intro v s _ hwhite hv _ hfuel
    have hmem : G.key v ∈ nodes.filter (s.colour · = .white) := Finset.mem_filter.2 ⟨hv, hwhite⟩
    have := Finset.card_pos.2 ⟨_, hmem⟩
    exact absurd hfuel (Nat.not_le.2 this)
  | succ fuel ih =>
    intro v s hs hwhite hv hlast hfuel
    obtain ⟨vs, hvs, hsucc⟩ := hnodes.next_of_mem hv
    have hedge {w : V} (hw : w ∈ vs) : G.Edge (G.key v) (G.key w) := ⟨vs, hvs, w, hw, rfl⟩
    have hlt := unseen_enter_lt hwhite hv
    unfold visit
    simp only [hvs]
    refine (ih.followAll (fun w hw ↦ ⟨hsucc w hw, hedge hw⟩) (hs.enter hwhite hlast) rfl
      (by omega)).bind fun s' ⟨hs', hext, hall⟩ ↦ ?_
    have hdone (k : K) (hk : G.Edge (G.key v) k) : s'.colour k = .black := by
      obtain ⟨vs', hvs', w, hw, rfl⟩ := hk
      obtain rfl := Option.some.inj (hvs.symm.trans hvs')
      exact hall w hw
    refine ⟨hs'.leave hext.stack hdone, ⟨?_, fun k hk ↦ ?_, fun k hk ↦ ?_⟩,
      Search.leave_colour_self ..⟩
    · show s'.stack.dropLast = s.stack
      rw [hext.stack]
      exact dropLast_concat
    · by_cases hkey : k = G.key v
      · rw [hkey, hwhite] at hk
        cases hk
      · rw [Search.leave_colour_of_ne s' hkey]
        exact hext.black k (by rwa [Search.enter_colour_of_ne s hkey])
    · by_cases hkey : k = G.key v
      · rwa [hkey]
      · rw [Search.leave_colour_of_ne s' hkey] at hk
        have := hext.white k hk
        rwa [Search.enter_colour_of_ne s hkey] at this

theorem result_search (hnodes : G.IsOn nodes) (hfuel : nodes.card ≤ fuel)
    (hvs : ∀ v ∈ vs, G.key v ∈ nodes) (hs : Good G s) (hempty : s.stack = []) :
    Result G (fun s' ↦ Good G s' ∧ Extends s s' ∧ ∀ v ∈ vs, s'.colour (G.key v) = .black)
      (vs.foldlM (fun s v ↦ if s.colour (G.key v) = .white then visit G fuel v s else .ok s) s) := by
  induction vs generalizing s with
  | nil => exact ⟨hs, .refl s, nofun⟩
  | cons v vs ih =>
    rw [foldlM_cons]
    have hvisit : Result G (fun s' ↦ Good G s' ∧ Extends s s' ∧ s'.colour (G.key v) = .black)
        (if s.colour (G.key v) = .white then visit G fuel v s else .ok s) := by
      split_ifs with hwhite
      · refine visits_visit hnodes fuel v s hs hwhite (hvs v mem_cons_self) ?_ ?_
        · rw [hempty]
          rintro _ ⟨⟩
        · exact (Finset.card_filter_le _ _).trans hfuel
      · refine ⟨hs, .refl s, ?_⟩
        cases hcolour : s.colour (G.key v) with
        | white => exact absurd hcolour hwhite
        | grey =>
          have hmem := (hs.grey _).1 hcolour
          rw [hempty] at hmem
          cases hmem
        | black => rfl
    refine hvisit.bind fun s' ⟨hs', hext, hblack⟩ ↦ ?_
    have htail := ih (fun v hv ↦ hvs v (mem_cons_of_mem _ hv)) hs' (hext.stack.trans hempty)
    refine htail.imp fun s'' ⟨hs'', hext', hall⟩ ↦ ⟨hs'', hext.trans hext', ?_⟩
    rintro u (_ | ⟨_, hu⟩)
    · exact hext'.black _ hblack
    · exact hall u hu

/-- **Depth-first search.** Over all nodes and with fuel for them, the search neither panics nor runs
out. It finds a closed walk, or it ends and the graph is acyclic. -/
theorem search_spec (hnodes : G.IsOn nodes) (hfuel : nodes.card ≤ fuel)
    (hvs : ∀ v ∈ vs, G.key v ∈ nodes) (hall : ∀ k ∈ nodes, ∃ v ∈ vs, G.key v = k) :
    Result G (fun _ ↦ G.Acyclic) (search G fuel vs) := by
  have hstart : Good G (.start : Search V K) :=
    ⟨fun k ↦ iff_of_false nofun not_mem_nil, .nil, .nil, nofun⟩
  refine (result_search hnodes hfuel hvs hstart rfl).imp fun s ⟨hs, _, hblack⟩ k hcycle ↦ ?_
  obtain ⟨m, ⟨vs', hvs', -⟩, -⟩ := Relation.TransGen.head'_iff.1 hcycle
  obtain ⟨v, hv, rfl⟩ := hall k (hnodes.mem_of_next hvs')
  exact Digraph.not_transGen_of_acc (hs.black _ (hblack v hv)) hcycle

end Colours

end DepthFirst
