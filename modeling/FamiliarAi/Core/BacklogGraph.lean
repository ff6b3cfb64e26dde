import FamiliarAi.Core.Backlog
import FamiliarAi.Core.Outcome
import FamiliarAi.Graph.DepthFirst
import Mathlib.Data.List.Cycle
import Mathlib.Data.List.Sort

/-!
# The dependency graph of a backlog

The dependencies of the PRDs of a backlog have to exist, and must not be circular. A cycle is
reported beginning with its least member, so that the report does not depend on where the search
came upon it.
-/

namespace FamiliarAi

open DepthFirst List

def byId (prds : List DiscoveredPrd) (key : ℕ × Option Char) : Option DiscoveredPrd :=
  prds.reverse.find? (·.id.key = key)

def sortedIds (prds : List DiscoveredPrd) : List PrdId :=
  ((prds.reverse.map (·.id)).eraseDupsBy fun a b ↦ a.key = b.key).insertionSort PrdId.LE

def dependencyGraph (prds : List DiscoveredPrd) : Digraph PrdId (ℕ × Option Char) where
  key := PrdId.key
  next? key := (byId prds key).map (·.dependencies)

def checkDependencies (prds : List DiscoveredPrd) : Except BacklogError Unit :=
  prds.forM fun prd ↦ prd.dependencies.forM fun dependency ↦
    if dependency == prd.id then throw (.selfDependency prd.path prd.id)
    else if (byId prds dependency.key).isNone then throw (.missingDependency prd.path dependency)
    else pure ()

def leastFirst (members : List PrdId) : List PrdId :=
  members.rotate (members.findIdx fun m ↦ ∀ m' ∈ members, m.LE m')

def reportedCycle (labels : List PrdId) : Option (List PrdId) :=
  match leastFirst labels.dropLast with
  | [] => none
  | member :: members => some (member :: (members ++ [member]))

/-- What the validation of a graph comes to. -/
inductive GraphVerdict
  | valid
  | invalid (e : BacklogError)
  | panicked
  | exhausted
  deriving DecidableEq

def validateGraph (fuel : ℕ) (prds : List DiscoveredPrd) : GraphVerdict :=
  match checkDependencies prds with
  | .error e => .invalid e
  | .ok _ =>
    match search (dependencyGraph prds) fuel (sortedIds prds) with
    | .ok _ => .valid
    | .error (.cycle labels) =>
      match reportedCycle labels with
      | some ids => .invalid (.cycle (" -> ".intercalate (ids.map (·.display))))
      | none => .panicked
    | .error .panicked => .panicked
    | .error .exhausted => .exhausted

/-- A PRD of the backlog depends on another, both named by their keys. -/
def DependsOn (prds : List DiscoveredPrd) (a b : ℕ × Option Char) : Prop :=
  ∃ p ∈ prds, p.id.key = a ∧ ∃ d ∈ p.dependencies, d.key = b

section Lookup

variable {prds : List DiscoveredPrd} {key : ℕ × Option Char} {p : DiscoveredPrd}

theorem mem_of_byId (h : byId prds key = some p) :
    p ∈ prds ∧ p.id.key = key := by
  refine ⟨mem_reverse.1 (mem_of_find?_eq_some h), ?_⟩
  have := find?_some h
  rwa [decide_eq_true_eq] at this

theorem isSome_byId_iff :
    (byId prds key).isSome = true ↔ ∃ p ∈ prds, p.id.key = key := by
  unfold byId
  rw [find?_isSome]
  simp only [mem_reverse, decide_eq_true_eq]

theorem byId_eq_some (hids : (prds.map (·.id.key)).Nodup) (hp : p ∈ prds) :
    byId prds p.id.key = some p := by
  obtain ⟨q, hq⟩ := Option.isSome_iff_exists.1 (isSome_byId_iff.2 ⟨p, hp, rfl⟩)
  obtain ⟨hmem, hkey⟩ := mem_of_byId hq
  rw [hq, inj_on_of_nodup_map hids hmem hp hkey]

theorem edge_iff (hids : (prds.map (·.id.key)).Nodup) {a b : ℕ × Option Char} :
    (dependencyGraph prds).Edge a b ↔ DependsOn prds a b := by
  constructor
  · rintro ⟨ds, hds, d, hd, rfl⟩
    obtain ⟨p, hp, rfl⟩ := Option.map_eq_some_iff.1 hds
    obtain ⟨hmem, hkey⟩ := mem_of_byId hp
    exact ⟨p, hmem, hkey, d, hd, rfl⟩
  · rintro ⟨p, hp, rfl, d, hd, rfl⟩
    exact ⟨p.dependencies, congrArg (Option.map _) (byId_eq_some hids hp), d, hd, rfl⟩

theorem checkDependencies_eq_ok :
    checkDependencies prds = .ok () ↔ ∀ p ∈ prds, ∀ d ∈ p.dependencies,
      d.key ≠ p.id.key ∧ ∃ q ∈ prds, q.id.key = d.key := by
  unfold checkDependencies
  rw [Except.forM_eq_ok]
  refine forall₂_congr fun p _ ↦ ?_
  rw [Except.forM_eq_ok]
  refine forall₂_congr fun d _ ↦ ?_
  rw [← isSome_byId_iff]
  by_cases hself : d.key = p.id.key
  · rw [if_pos (PrdId.beq_iff.2 hself)]
    exact iff_of_false nofun fun h ↦ h.1 hself
  · rw [if_neg (mt PrdId.beq_iff.1 hself)]
    cases hdep : byId prds d.key with
    | none => exact iff_of_false nofun fun h ↦ by simp at h
    | some q => exact iff_of_true rfl ⟨hself, rfl⟩

theorem checkDependencies_ne_cycle (text : String) :
    checkDependencies prds ≠ .error (.cycle text) := by
  intro h
  obtain ⟨p, -, hp⟩ := Except.exists_of_forM_eq_error h
  obtain ⟨d, -, hd⟩ := Except.exists_of_forM_eq_error hp
  split_ifs at hd <;> cases hd

/-- Leaving out what is there already leaves something of every kind. -/
theorem exists_mem_eraseDupsBy {α β : Type} [DecidableEq β] {f : α → β} {as : List α} {b : β} :
    (∃ a ∈ as.eraseDupsBy fun a a' ↦ f a = f a', f a = b) ↔ ∃ a ∈ as, f a = b := by
  induction hlength : as.length using Nat.strong_induction_on generalizing as with
  | _ n ih =>
    rcases as with _ | ⟨a, as⟩
    · rw [eraseDupsBy_nil]
    rw [eraseDupsBy_cons, exists_mem_cons_iff, exists_mem_cons_iff]
    have hshorter : (as.filter fun a' ↦ decide (f a' = f a) = false).length < n := by
      have := length_filter_le (fun a' ↦ decide (decide (f a' = f a) = false)) as
      rw [length_cons] at hlength
      omega
    rw [ih _ hshorter rfl]
    by_cases hb : f a = b
    · exact iff_of_true (.inl hb) (.inl hb)
    · refine or_congr_right (exists_congr fun a' ↦ ?_)
      rw [mem_filter]
      refine ⟨fun h ↦ ⟨h.1.1, h.2⟩, fun h ↦ ⟨⟨h.1, ?_⟩, h.2⟩⟩
      rw [h.2]
      simpa using Ne.symm hb

theorem exists_mem_sortedIds_iff :
    (∃ id ∈ sortedIds prds, id.key = key) ↔ ∃ p ∈ prds, p.id.key = key := by
  have hmem (id : PrdId) : id ∈ sortedIds prds ↔
      id ∈ (prds.reverse.map (·.id)).eraseDupsBy fun a b ↦ a.key = b.key :=
    (perm_insertionSort _ _).mem_iff
  simp only [hmem]
  rw [exists_mem_eraseDupsBy]
  simp only [List.mem_map, mem_reverse, exists_exists_and_eq_and]

theorem dependencyGraph_isOn (hcheck : checkDependencies prds = .ok ()) :
    (dependencyGraph prds).IsOn (prds.map (·.id.key)).toFinset where
  mem_of_next h := by
    obtain ⟨p, hp, -⟩ := Option.map_eq_some_iff.1 h
    obtain ⟨hmem, rfl⟩ := mem_of_byId hp
    exact List.mem_toFinset.2 (List.mem_map_of_mem hmem)
  next_of_mem {key} h := by
    obtain ⟨p, hp, rfl⟩ := List.mem_map.1 (List.mem_toFinset.1 h)
    obtain ⟨q, hq⟩ := Option.isSome_iff_exists.1 (isSome_byId_iff.2 ⟨p, hp, rfl⟩)
    refine ⟨q.dependencies, congrArg (Option.map _) hq, fun d hd ↦ ?_⟩
    obtain ⟨-, r, hr, hkey⟩ := checkDependencies_eq_ok.1 hcheck q (mem_of_byId hq).1 d hd
    exact List.mem_toFinset.2 (List.mem_map.2 ⟨r, hr, hkey⟩)

end Lookup

/-! ### The report of a cycle -/

section Report

variable {R : ℕ × Option Char → ℕ × Option Char → Prop} {labels members ids : List PrdId}

/-- The ids go round: each is related to the next, and the last is the first. -/
def GoesRound (R : ℕ × Option Char → ℕ × Option Char → Prop) (ids : List PrdId) : Prop :=
  ∃ first rest, ids = first :: (rest ++ [first]) ∧ (ids.map (·.key)).IsChain R

theorem leastFirst_isRotated (members : List PrdId) : leastFirst members ~r members :=
  IsRotated.forall members _

theorem goesRound_reportedCycle {a : ℕ × Option Char} {l : List (ℕ × Option Char)}
    (hlabels : labels.map PrdId.key = a :: (l ++ [a])) (hchain : (a :: (l ++ [a])).IsChain R) :
    ∃ ids, reportedCycle labels = some ids ∧ GoesRound R ids := by
  have hmembers : labels.dropLast.map PrdId.key = a :: l := by
    rw [map_dropLast, hlabels, ← cons_append, dropLast_concat]
  have hrotated : (leastFirst labels.dropLast).map PrdId.key ~r a :: l := by
    rw [← hmembers]
    exact (leastFirst_isRotated _).map _
  unfold reportedCycle
  rcases hleast : leastFirst labels.dropLast with _ | ⟨m, ms⟩
  · rw [hleast] at hrotated
    exact absurd (isRotated_nil_iff'.1 hrotated) nofun
  refine ⟨_, rfl, m, ms, rfl, ?_⟩
  rw [hleast] at hrotated
  have hcycle : ((m.key :: ms.map PrdId.key : List _) : Cycle (ℕ × Option Char)) =
      ((a :: l : List _) : Cycle (ℕ × Option Char)) := Cycle.coe_eq_coe.2 hrotated
  have hround : Cycle.Chain R ((m.key :: ms.map PrdId.key : List _) : Cycle _) := by
    rw [hcycle, Cycle.chain_coe_cons]
    exact hchain
  rw [Cycle.chain_coe_cons] at hround
  rw [map_cons, map_append]
  exact hround

end Report

/-- **Validation of the graph.** For PRDs with different ids and fuel for as many of them,
validation neither panics nor runs out. It accepts the graph exactly when every dependency exists
and is another PRD, and no PRD depends on itself in turn. A cycle that it reports is one. -/
theorem validateGraph_spec {prds : List DiscoveredPrd} (hids : (prds.map (·.id.key)).Nodup)
    {fuel : ℕ} (hfuel : prds.length ≤ fuel) :
    (validateGraph fuel prds = .valid ↔
      (∀ p ∈ prds, ∀ d ∈ p.dependencies, d.key ≠ p.id.key ∧ ∃ q ∈ prds, q.id.key = d.key) ∧
        ∀ key, ¬Relation.TransGen (DependsOn prds) key key) ∧
    (∀ text, validateGraph fuel prds = .invalid (.cycle text) →
      ∃ ids, text = " -> ".intercalate (ids.map (·.display)) ∧ GoesRound (DependsOn prds) ids) ∧
    validateGraph fuel prds ≠ .panicked ∧ validateGraph fuel prds ≠ .exhausted := by
  have hedge : (dependencyGraph prds).Edge = DependsOn prds := by
    ext a b
    exact edge_iff hids
  rw [← checkDependencies_eq_ok]
  unfold validateGraph
  rcases hcheck : checkDependencies prds with e | _
  · refine ⟨iff_of_false nofun nofun, ?_, nofun, nofun⟩
    rintro text ⟨⟩
    exact absurd hcheck (checkDependencies_ne_cycle text)
  have hcard : (prds.map (·.id.key)).toFinset.card ≤ fuel :=
    (toFinset_card_le _).trans (by rwa [length_map])
  have hspec : Result (dependencyGraph prds) (fun _ ↦ (dependencyGraph prds).Acyclic)
      (search (dependencyGraph prds) fuel (sortedIds prds)) := by
    refine search_spec (dependencyGraph_isOn hcheck) hcard (fun id hid ↦ ?_) fun key hkey ↦ ?_
    · obtain ⟨p, hp, hkey⟩ := exists_mem_sortedIds_iff.1 ⟨id, hid, rfl⟩
      exact List.mem_toFinset.2 (List.mem_map.2 ⟨p, hp, hkey⟩)
    · exact exists_mem_sortedIds_iff.2 (List.mem_map.1 (List.mem_toFinset.1 hkey))
  dsimp only
  rcases hsearch : search (dependencyGraph prds) fuel (sortedIds prds) with
    (labels | _ | _) | s
  · rw [hsearch] at hspec
    have hcyclic : ¬∀ key, ¬Relation.TransGen (DependsOn prds) key key := by
      intro hacyclic
      rw [← hedge] at hacyclic
      exact Digraph.Acyclic.not_closedWalk hacyclic hspec
    obtain ⟨a, l, hlabels, hchain⟩ := hspec
    rw [hedge] at hchain
    have hchain : (a :: (l ++ [a])).IsChain (DependsOn prds) := by rwa [← hlabels]
    obtain ⟨ids, hreported, hround⟩ := goesRound_reportedCycle hlabels hchain
    simp only [hreported]
    refine ⟨iff_of_false nofun fun h ↦ hcyclic h.2, ?_, nofun, nofun⟩
    rintro _ ⟨⟩
    exact ⟨ids, rfl, hround⟩
  · rw [hsearch] at hspec
    exact hspec.elim
  · rw [hsearch] at hspec
    exact hspec.elim
  · rw [hsearch] at hspec
    have hacyclic : (dependencyGraph prds).Acyclic := hspec
    rw [Digraph.Acyclic, hedge] at hacyclic
    exact ⟨iff_of_true rfl ⟨rfl, hacyclic⟩, nofun, nofun, nofun⟩

def samplePrd (number : ℕ) (path : RepositoryPath) (dependencies : List ℕ) : DiscoveredPrd where
  id := ⟨number, none, .canonical⟩
  number := number
  path := path
  location := .active
  dependencies := dependencies.map fun n ↦ ⟨n, none, .canonical⟩
  metadata := {}
  contentHash := ""

/-- Three PRDs that depend on each other in turn. -/
def ring : List DiscoveredPrd :=
  [samplePrd 2 ⟨"b", by decide⟩ [3], samplePrd 3 ⟨"c", by decide⟩ [1],
    samplePrd 1 ⟨"a", by decide⟩ [2]]

theorem validateGraph_spec_ring :
    validateGraph 3 ring = .invalid (.cycle "PRD-1 -> PRD-2 -> PRD-3 -> PRD-1") ∧
      ∃ ids, "PRD-1 -> PRD-2 -> PRD-3 -> PRD-1" = " -> ".intercalate (ids.map (·.display)) ∧
        GoesRound (DependsOn ring) ids := by
  have hring : validateGraph 3 ring = .invalid (.cycle "PRD-1 -> PRD-2 -> PRD-3 -> PRD-1") := by
    decide +kernel
  exact ⟨hring, (validateGraph_spec (by decide) (by decide)).2.1 _ hring⟩

end FamiliarAi
