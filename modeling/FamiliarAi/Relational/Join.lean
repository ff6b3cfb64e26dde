import Mathlib.Data.List.Dedup
import Mathlib.Data.List.Perm.Subperm
import Mathlib.Data.List.Sort
import FamiliarAi.Core.Outcome
import FamiliarAi.Relational.Table

/-!
# Joins and groups

`LEFT JOIN` gives every row once for each of its matches, and once with nothing if it has none.
Where the key of the other table leaves at most one match, it only completes the rows
(`leftJoin_eq_map`).

The groups of rows by a key, in the order of the keys, are the rows again (`flatMap_groups_perm`):
what is added up or counted group by group is what is added up or counted over all rows.
-/

namespace Relational

open List

section Join

variable {ρ β : Type*}

def leftJoin (matched : ρ → List β) (rows : List ρ) : List (ρ × Option β) :=
  rows.flatMap fun r ↦
    match matched r with
    | [] => [(r, none)]
    | b :: bs => (b :: bs).map fun b ↦ (r, some b)

theorem leftJoin_eq_map {matched : ρ → List β} {found : ρ → Option β}
    (h : ∀ r, matched r = (found r).toList) (rows : List ρ) :
    leftJoin matched rows = rows.map fun r ↦ (r, found r) := by
  rw [leftJoin, map_eq_flatMap]
  congr 1
  funext r
  rw [h r]
  cases found r with
  | none => rfl
  | some b => rfl

theorem Table.filter_rows_eq {S : Schema ρ} {T : Table S} {p : ρ → Bool}
    (hkey : ∀ r r', p r = true → p r' = true → S.clash r r' = true) :
    T.rows.filter p = (T.find p).toList := by
  rcases hfind : T.find p with _ | r
  · exact filter_eq_nil_iff.2 fun r hr ↦ by simp [find_none hfind hr]
  obtain ⟨hr, hp⟩ := find_some hfind
  refine perm_singleton.1 ((perm_ext_iff_of_nodup (T.nodup.filter p)
    (nodup_singleton r)).2 fun r' ↦ ?_)
  rw [mem_filter, mem_singleton]
  constructor
  · rintro ⟨hr', hp'⟩
    exact eq_of_clash hr' hr (hkey r' r hp' hp)
  · rintro rfl
    exact ⟨hr, hp⟩

end Join

section Queries

variable {α β γ ε : Type} {l' : List β} {l : List α} {f : α → Except ε β}

/-- The results of a query that reads every row. -/
theorem forall₂_of_mapM (h : l.mapM f = .ok l') :
    List.Forall₂ (fun a b ↦ f a = .ok b) l l' := by
  induction l generalizing l' with
  | nil =>
    obtain rfl := Except.ok.inj h
    exact .nil
  | cons a l ih =>
    rw [mapM_cons] at h
    obtain ⟨b, hb, h⟩ := Except.bind_eq_ok.1 h
    obtain ⟨l', hl', h⟩ := Except.bind_eq_ok.1 h
    obtain rfl := Except.ok.inj h
    exact .cons hb (ih hl')

/-- A result is that of a row. -/
theorem exists_of_mem_mapM {b : β} (h : l.mapM f = .ok l') (hb : b ∈ l') :
    ∃ a ∈ l, f a = .ok b := by
  have hresults := forall₂_of_mapM h
  clear h
  induction hresults with
  | nil => cases hb
  | cons hfirst _ ih =>
    rcases mem_cons.1 hb with rfl | hb
    · exact ⟨_, mem_cons_self, hfirst⟩
    · obtain ⟨a, ha, hread⟩ := ih hb
      exact ⟨a, mem_cons_of_mem _ ha, hread⟩

/-- What is read off the selected results is read off the selected rows. -/
theorem map_filter_of_forall₂ {R : α → β → Prop} {p : α → Bool} {q : β → Bool} {f : α → γ}
    {g : β → γ} (h : List.Forall₂ R l l') (hselected : ∀ a b, R a b → q b = p a)
    (hread : ∀ a b, R a b → g b = f a) :
    (l'.filter q).map g = (l.filter p).map f := by
  induction h with
  | nil => rfl
  | cons hab _ ih =>
    rw [filter_cons, filter_cons, hselected _ _ hab]
    split
    · rw [map_cons, map_cons, ih, hread _ _ hab]
    · exact ih

end Queries

section Groups

variable {ρ κ : Type*} [DecidableEq κ]

def groupKeys (le : κ → κ → Prop) [DecidableRel le] (key : ρ → κ) (rows : List ρ) : List κ :=
  (rows.map key).dedup.insertionSort le

def group (key : ρ → κ) (rows : List ρ) (k : κ) : List ρ :=
  rows.filter fun r ↦ key r = k

variable {le : κ → κ → Prop} [DecidableRel le] {key : ρ → κ} {rows : List ρ} {k : κ} {r : ρ}

theorem mem_groupKeys : k ∈ groupKeys le key rows ↔ ∃ r ∈ rows, key r = k := by
  rw [groupKeys, mem_insertionSort, mem_dedup, mem_map]

theorem nodup_groupKeys : (groupKeys le key rows).Nodup :=
  (perm_insertionSort le _).nodup_iff.2 (nodup_dedup _)

theorem mem_group : r ∈ group key rows k ↔ r ∈ rows ∧ key r = k := by
  rw [group, mem_filter, decide_eq_true_eq]

theorem flatMap_group_perm {keys : List κ} (hkeys : keys.Nodup) (h : ∀ r ∈ rows, key r ∈ keys) :
    (keys.flatMap (group key rows)).Perm rows := by
  induction keys generalizing rows with
  | nil =>
    cases rows with
    | nil => exact .nil
    | cons r rows => exact absurd (h r mem_cons_self) not_mem_nil
  | cons k keys ih =>
    obtain ⟨hk, hkeys⟩ := nodup_cons.1 hkeys
    have hothers : ∀ r ∈ rows.filter fun r ↦ key r ≠ k, key r ∈ keys := by
      intro r hr
      obtain ⟨hr, hne⟩ := mem_filter.1 hr
      exact (mem_cons.1 (h r hr)).resolve_left (of_decide_eq_true hne)
    have hrest := ih hkeys hothers
    -- the rows of the other groups are not of this one
    have hsame : keys.flatMap (group key rows) =
        keys.flatMap (group key (rows.filter fun r ↦ key r ≠ k)) := by
      refine flatMap_congr fun k' hk' ↦ ?_
      rw [group, group, filter_filter]
      refine filter_congr fun r _ ↦ ?_
      rw [← Bool.decide_and, decide_eq_decide]
      refine ⟨fun hr ↦ ⟨hr, ?_⟩, And.left⟩
      rintro rfl
      exact hk (hr ▸ hk')
    rw [flatMap_cons, hsame]
    refine (hrest.append_left _).trans ?_
    have hsplit := filter_append_perm (fun r ↦ decide (key r = k)) rows
    simpa only [group, decide_not] using hsplit

theorem flatMap_groups_perm :
    ((groupKeys le key rows).flatMap (group key rows)).Perm rows :=
  flatMap_group_perm nodup_groupKeys fun r hr ↦ mem_groupKeys.2 ⟨r, hr, rfl⟩

end Groups

end Relational
