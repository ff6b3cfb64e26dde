import Mathlib.Algebra.BigOperators.Group.List.Basic
import Mathlib.Algebra.Order.Ring.Int
import Mathlib.Data.List.Dedup

/-!
# Revision logs

Rows that are only ever appended. A row has an id, it may name the row whose place it takes, and what
it is about is its key. The **current** rows are those whose place no row has taken; the row in effect
under a key is the current row with that key.

A log is linked when its ids are distinct, when every row that is named is there, and when no two
current rows are about the same. A row with a new id that takes the place of the row in effect under
its key keeps the log linked, and it is then in effect; under every other key nothing changes. So what
is in effect is the last value appended, for every history of values, as long as each row names the row
that was in effect when it came. A list of items is reflected by the log when the current rows add up to what
the items say, for each key and in total.
-/

namespace Relational

open List

theorem filter_key_eq_singleton {α κ : Type*} [DecidableEq κ] {l : List α} {f : α → κ} {a : α}
    (h : (l.map f).Nodup) (ha : a ∈ l) : (l.filter fun b ↦ f b = f a) = [a] := by
  refine perm_singleton.1 ((perm_ext_iff_of_nodup (h.of_map.sublist filter_sublist)
    (nodup_singleton a)).2 fun b ↦ ?_)
  rw [mem_filter, decide_eq_true_eq, mem_singleton]
  constructor
  · rintro ⟨hb, hkey⟩
    exact inj_on_of_nodup_map h hb ha hkey
  · rintro rfl
    exact ⟨ha, rfl⟩

/-- What a row of the log says of itself. -/
structure RevisionLog (ρ ι κ : Type*) where
  id : ρ → ι
  /-- The row whose place it takes. -/
  prior : ρ → Option ι
  /-- What it is about. -/
  key : ρ → κ

namespace RevisionLog

variable {ρ ι κ : Type*} [DecidableEq ι] (L : RevisionLog ρ ι κ)

def current (rows : List ρ) : List ρ :=
  rows.filter fun r ↦ ∀ r' ∈ rows, L.prior r' ≠ some (L.id r)

/-- The current row with the key. -/
def effective [DecidableEq κ] (rows : List ρ) (k : κ) : Option ρ :=
  (L.current rows).find? fun r ↦ L.key r = k

/-- Ids are distinct, what is named is there, and no two current rows are about the same. -/
structure Linked (rows : List ρ) : Prop where
  ids : (rows.map L.id).Nodup
  named : ∀ r ∈ rows, ∀ i ∈ L.prior r, ∃ r' ∈ rows, L.id r' = i
  keys : ((L.current rows).map L.key).Nodup

variable {L} {rows : List ρ} {r r' : ρ} {k : κ}

theorem mem_current : r ∈ L.current rows ↔ r ∈ rows ∧ ∀ r' ∈ rows, L.prior r' ≠ some (L.id r) := by
  rw [current, mem_filter, decide_eq_true_eq]

theorem linked_nil : L.Linked [] where
  ids := nodup_nil
  named _ h := nomatch h
  keys := nodup_nil

theorem current_append (h : L.Linked rows) (hfresh : ∀ r' ∈ rows, L.id r' ≠ L.id r)
    (hprior : ∀ i ∈ L.prior r, ∃ r' ∈ rows, L.id r' = i) :
    L.current (rows ++ [r]) =
      (L.current rows).filter (fun r' ↦ L.prior r ≠ some (L.id r')) ++ [r] := by
  have hself : ∀ r' ∈ rows ++ [r], L.prior r' ≠ some (L.id r) := by
    intro r' hr' hnamed
    rcases mem_append.1 hr' with hr' | hr'
    · obtain ⟨r'', hr'', hid⟩ := h.named r' hr' _ hnamed
      exact hfresh r'' hr'' hid
    · rw [mem_singleton.1 hr'] at hnamed
      obtain ⟨r'', hr'', hid⟩ := hprior _ hnamed
      exact hfresh r'' hr'' hid
  rw [current, filter_append, filter_singleton, decide_eq_true hself, cond_true, current,
    filter_filter]
  congr 1
  refine filter_congr fun r' hr' ↦ ?_
  rw [← Bool.decide_and, decide_eq_decide]
  simp only [mem_append, mem_singleton, or_imp, forall_and, forall_eq]
  exact and_comm

variable [DecidableEq κ]

theorem effective_eq_some (h : L.Linked rows) :
    L.effective rows k = some r ↔ r ∈ L.current rows ∧ L.key r = k := by
  constructor
  · intro hfind
    exact ⟨mem_of_find?_eq_some hfind, by simpa using find?_some hfind⟩
  · rintro ⟨hr, hk⟩
    rw [effective]
    rcases hfind : (L.current rows).find? fun r ↦ L.key r = k with _ | r'
    · exact absurd (decide_eq_true hk) (find?_eq_none.1 hfind r hr)
    · have hr' := mem_of_find?_eq_some hfind
      have hk' : L.key r' = k := by simpa using find?_some hfind
      rw [inj_on_of_nodup_map h.keys hr' hr (hk'.trans hk.symm)]

theorem effective_eq_none : L.effective rows k = none ↔ ∀ r ∈ L.current rows, L.key r ≠ k := by
  rw [effective, find?_eq_none]
  simp only [decide_eq_true_eq]

theorem effective_key (h : L.Linked rows) (hr : r ∈ L.current rows) :
    L.effective rows (L.key r) = some r :=
  (effective_eq_some h).2 ⟨hr, rfl⟩

theorem filter_current (h : L.Linked rows) :
    ((L.current rows).filter fun r ↦ L.key r = k) = (L.effective rows k).toList := by
  rcases heffective : L.effective rows k with _ | r
  · refine filter_eq_nil_iff.2 fun r hr hkey ↦ ?_
    exact effective_eq_none.1 heffective r hr (of_decide_eq_true hkey)
  obtain ⟨hr, rfl⟩ := (effective_eq_some h).1 heffective
  exact filter_key_eq_singleton h.keys hr

theorem Linked.append (h : L.Linked rows) (hfresh : ∀ r' ∈ rows, L.id r' ≠ L.id r)
    (hprior : L.prior r = (L.effective rows (L.key r)).map L.id) : L.Linked (rows ++ [r]) := by
  have hnamed : ∀ i ∈ L.prior r, ∃ r' ∈ rows, L.id r' = i := by
    intro i hi
    rw [hprior] at hi
    obtain ⟨r', hr', hid⟩ := Option.map_eq_some_iff.1 hi
    exact ⟨r', (mem_current.1 ((effective_eq_some h).1 hr').1).1, hid⟩
  refine ⟨?_, ?_, ?_⟩
  · rw [map_append, map_singleton, nodup_append]
    refine ⟨h.ids, nodup_singleton _, ?_⟩
    intro i hi j hj
    obtain ⟨r', hr', rfl⟩ := mem_map.1 hi
    rw [mem_singleton.1 hj]
    exact hfresh r' hr'
  · intro r' hr' i hi
    rcases mem_append.1 hr' with hr' | hr'
    · obtain ⟨r'', hr'', hid⟩ := h.named r' hr' i hi
      exact ⟨r'', mem_append_left _ hr'', hid⟩
    · rw [mem_singleton.1 hr'] at hi
      obtain ⟨r'', hr'', hid⟩ := hnamed i hi
      exact ⟨r'', mem_append_left _ hr'', hid⟩
  · -- whatever else was current under the key of the row was in effect, and the row names it
    rw [current_append h hfresh hnamed, map_append, map_singleton, nodup_append]
    refine ⟨h.keys.sublist (filter_sublist.map _), nodup_singleton _, ?_⟩
    intro k hk k' hk'
    obtain ⟨r', hr', rfl⟩ := mem_map.1 hk
    obtain ⟨hcurrent, hother⟩ := mem_filter.1 hr'
    rw [mem_singleton.1 hk']
    intro hkey
    have heffective := effective_key h hcurrent
    rw [hkey] at heffective
    rw [heffective] at hprior
    exact of_decide_eq_true hother hprior

theorem effective_append (h : L.Linked rows) (hfresh : ∀ r' ∈ rows, L.id r' ≠ L.id r)
    (hprior : L.prior r = (L.effective rows (L.key r)).map L.id) (k : κ) :
    L.effective (rows ++ [r]) k = if k = L.key r then some r else L.effective rows k := by
  have hlinked := h.append hfresh hprior
  have hcurrent : L.current (rows ++ [r]) =
      (L.current rows).filter (fun r' ↦ L.prior r ≠ some (L.id r')) ++ [r] := by
    refine current_append h hfresh fun i hi ↦ ?_
    rw [hprior] at hi
    obtain ⟨r', hr', hid⟩ := Option.map_eq_some_iff.1 hi
    exact ⟨r', (mem_current.1 ((effective_eq_some h).1 hr').1).1, hid⟩
  split_ifs with hk
  · refine (effective_eq_some hlinked).2 ⟨?_, hk.symm⟩
    rw [hcurrent]
    exact mem_append_right _ (mem_singleton_self r)
  · refine Option.ext fun r' ↦ ?_
    rw [effective_eq_some hlinked, effective_eq_some h, hcurrent]
    refine and_congr_left fun hkey ↦ ?_
    rw [mem_append, mem_filter, mem_singleton, decide_eq_true_eq]
    constructor
    · rintro (⟨hr', -⟩ | rfl)
      · exact hr'
      · exact absurd hkey.symm hk
    · intro hr'
      refine .inl ⟨hr', fun hnamed ↦ ?_⟩
      -- the row it would name is about its own key
      rw [hprior] at hnamed
      obtain ⟨r'', hr'', hid⟩ := Option.map_eq_some_iff.1 hnamed
      obtain ⟨hcurrent'', hkey''⟩ := (effective_eq_some h).1 hr''
      have hsame := inj_on_of_nodup_map h.ids (mem_current.1 hcurrent'').1 (mem_current.1 hr').1 hid
      rw [hsame] at hkey''
      exact hk (hkey.symm.trans hkey'')

section Reflects

variable {β : Type*} (L) (amount : ρ → ℤ)

/-- What the current rows with the key add up to. -/
def projected (rows : List ρ) (k : κ) : ℤ :=
  (((L.current rows).filter fun r ↦ L.key r = k).map amount).sum

/-- The items as the log has them: what the current rows of a key add up to is what the items of that
key add up to, and so in total. -/
structure Reflects (rows : List ρ) (items : List β) (itemKey : β → κ) (itemAmount : β → ℤ) : Prop where
  each : ∀ b ∈ items, L.projected amount rows (itemKey b) =
    ((items.filter fun b' ↦ itemKey b' = itemKey b).map itemAmount).sum
  total : ((items.map itemKey).dedup.map (L.projected amount rows)).sum = (items.map itemAmount).sum

variable {L amount} {items : List β} {itemKey : β → κ} {itemAmount : β → ℤ}

theorem projected_of_effective (h : L.Linked rows) (hr : L.effective rows k = some r) :
    L.projected amount rows k = amount r := by
  rw [projected, filter_current h, hr, Option.toList_some, map_singleton, sum_singleton]

theorem reflects_of_effective (h : L.Linked rows) (hitems : (items.map itemKey).Nodup)
    (heach : ∀ b ∈ items, ∃ r ∈ L.effective rows (itemKey b), amount r = itemAmount b) :
    L.Reflects amount rows items itemKey itemAmount := by
  have hprojected : ∀ b ∈ items, L.projected amount rows (itemKey b) = itemAmount b := by
    intro b hb
    obtain ⟨r, hr, hamount⟩ := heach b hb
    exact (projected_of_effective h hr).trans hamount
  refine ⟨fun b hb ↦ ?_, ?_⟩
  · rw [hprojected b hb, filter_key_eq_singleton hitems hb, map_singleton, sum_singleton]
  · rw [dedup_eq_self.2 hitems, map_map]
    exact congrArg List.sum (map_congr_left hprojected)

end Reflects

end RevisionLog

end Relational
