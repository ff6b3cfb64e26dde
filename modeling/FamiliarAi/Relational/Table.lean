import Mathlib.Algebra.BigOperators.Group.List.Basic
import Mathlib.Data.List.Pairwise
import Mathlib.Tactic.Abel
import Mathlib.Data.List.MinMax

/-!
# Tables under a schema

A relational table as a list of rows together with the proof that the rows respect the schema:
every row passes the row-level `CHECK` constraints, and no two rows clash on a `UNIQUE` key. A
table that violates its schema cannot be built. The two ways of writing a table, `insert` and
`update`, first compute the rows the statement would leave and then ask whether the schema admits
them; `none` is the constraint error of the engine, and it leaves nothing behind.

The lemmas say which rows a successful write leaves, and how it moves a total over the rows. The
clash relation is reflexive, so a table holds no row twice, which is what makes the totals move by
exactly one row at a time.
-/

namespace Relational

open List

/-- What a table admits. The clash of two rows means that some primary or unique key of them
coincides. -/
structure Schema (ρ : Type*) where
  /-- The row-level `CHECK` constraints. -/
  check : ρ → Bool := fun _ ↦ true
  clash : ρ → ρ → Bool
  /-- A row collides with itself: every table has a key. -/
  clash_self : ∀ r, clash r r = true := by simp
  /-- Colliding does not depend on the order of the rows. -/
  clash_symm : ∀ r r', clash r r' = clash r' r := by intros; simp only [eq_comm]

variable {ρ : Type*}

def Schema.Admits (S : Schema ρ) (rows : List ρ) : Prop :=
  (∀ r ∈ rows, S.check r = true) ∧ rows.Pairwise fun r r' ↦ S.clash r r' = false

instance (S : Schema ρ) : DecidablePred S.Admits :=
  fun rows ↦ inferInstanceAs
    (Decidable ((∀ r ∈ rows, S.check r = true) ∧ rows.Pairwise fun r r' ↦ S.clash r r' = false))

/-- A table: rows that respect the schema. -/
structure Table (S : Schema ρ) where
  /-- The rows, in the order in which they were inserted. -/
  rows : List ρ
  admits : S.Admits rows

namespace Table

variable {S : Schema ρ} {T T' : Table S} {r r' : ρ} {p : ρ → Bool} {f : ρ → ρ} {q : ρ → Bool}
  {rows : List ρ}

@[ext] theorem ext_rows (h : T.rows = T'.rows) : T = T' := by
  cases T
  cases T'
  cases h
  rfl

instance [DecidableEq ρ] : DecidableEq (Table S) :=
  fun T T' ↦ decidable_of_iff (T.rows = T'.rows) ⟨ext_rows, fun h ↦ by rw [h]⟩

/-- The table without rows. -/
def empty : Table S :=
  ⟨[], by simp, List.Pairwise.nil⟩

@[simp] theorem rows_empty : (empty : Table S).rows = [] := rfl

def ofRows? (S : Schema ρ) (rows : List ρ) : Option (Table S) :=
  if h : S.Admits rows then some ⟨rows, h⟩ else none

/-- `INSERT`: the row is added, unless it fails a check or collides with a row of the table. -/
def insert (T : Table S) (r : ρ) : Option (Table S) :=
  ofRows? S (T.rows ++ [r])

/-- `UPDATE … SET f WHERE p`, unless a rewritten row fails a check or collides with another. -/
def update (T : Table S) (p : ρ → Bool) (f : ρ → ρ) : Option (Table S) :=
  ofRows? S (T.rows.map fun r ↦ if p r then f r else r)

def delete (T : Table S) (p : ρ → Bool) : Table S :=
  ⟨T.rows.filter fun r ↦ !p r, fun r hr ↦ T.admits.1 r (mem_filter.1 hr).1, T.admits.2.filter _⟩

/-- `INSERT OR REPLACE`: the rows that the row collides with make way for it. -/
def replace (T : Table S) (r : ρ) : Option (Table S) :=
  (T.delete fun r' ↦ S.clash r' r).insert r

/-- `INSERT OR IGNORE`: the row is added where it can be. -/
def insertOrIgnore (T : Table S) (r : ρ) : Table S :=
  (T.insert r).getD T

/-- The first row that meets the condition; with a condition on a key, the only one. -/
def find (T : Table S) (p : ρ → Bool) : Option ρ :=
  T.rows.find? p

/-- `INSERT … ON CONFLICT(key) DO UPDATE SET f`, where `p` is met by the rows with the key of `r`. -/
def upsert (T : Table S) (p : ρ → Bool) (f : ρ → ρ) (r : ρ) : Option (Table S) :=
  if (T.find p).isSome then T.update p f else T.insert r

/-- How many rows meet the condition, which is also how many rows an `UPDATE` changes. -/
def count (T : Table S) (p : ρ → Bool) : ℕ :=
  T.rows.countP p

/-- `UPDATE` together with how many rows it changed. -/
def modify (T : Table S) (p : ρ → Bool) (f : ρ → ρ) : Option (ℕ × Table S) :=
  (T.update p f).map fun T' ↦ (T.count p, T')

/-- The sum of an amount over the rows. -/
def total {M : Type*} [AddCommMonoid M] (T : Table S) (g : ρ → M) : M :=
  (T.rows.map g).sum

/-! ### The rows a write leaves -/

theorem rows_of_ofRows? (h : ofRows? S rows = some T) : T.rows = rows := by
  unfold ofRows? at h
  split at h
  · cases h
    rfl
  · cases h

theorem ofRows?_of_admits (h : S.Admits rows) :
    ofRows? S rows = some ⟨rows, h⟩ :=
  dif_pos h

theorem rows_insert (h : T.insert r = some T') : T'.rows = T.rows ++ [r] :=
  rows_of_ofRows? h

theorem rows_update (h : T.update p f = some T') :
    T'.rows = T.rows.map fun r ↦ if p r then f r else r :=
  rows_of_ofRows? h

@[simp] theorem rows_delete : (T.delete p).rows = T.rows.filter fun r ↦ !p r := rfl

/-- What meets the condition is gone. -/
theorem filter_rows_delete : (T.delete p).rows.filter p = [] := by
  rw [rows_delete, filter_filter]
  exact filter_eq_nil_iff.2 fun r _ hr ↦ by simp at hr

theorem rows_replace (h : T.replace r = some T') :
    T'.rows = (T.rows.filter fun r' ↦ !S.clash r' r) ++ [r] :=
  rows_insert h

theorem filter_rows_replace (h : T.replace r = some T') (hp : p r = true)
    (hfree : ∀ r' ∈ T.rows, p r' = true → S.clash r' r = false) :
    T'.rows.filter p = T.rows.filter p ++ [r] := by
  rw [rows_replace h, List.filter_append, filter_filter, List.filter_cons_of_pos hp,
    List.filter_nil]
  congr 1
  refine filter_congr fun r' hr' ↦ ?_
  cases hpr' : p r' with
  | false => rfl
  | true => rw [hfree r' hr' hpr', Bool.not_false, Bool.and_true]

theorem filter_rows_replace_of_not (h : T.replace r = some T') (hp : p r = false)
    (hfree : ∀ r' ∈ T.rows, p r' = true → S.clash r' r = false) :
    T'.rows.filter p = T.rows.filter p := by
  rw [rows_replace h, List.filter_append, filter_filter,
    List.filter_cons_of_neg (by rw [hp]; exact Bool.false_ne_true), List.filter_nil, List.append_nil]
  refine filter_congr fun r' hr' ↦ ?_
  cases hpr' : p r' with
  | false => rfl
  | true => rw [hfree r' hr' hpr', Bool.not_false, Bool.and_true]

theorem filter_rows_delete_of_not (hq : ∀ r, q r = true → p r = false) :
    (T.delete p).rows.filter q = T.rows.filter q := by
  rw [rows_delete, filter_filter]
  refine filter_congr fun r' _ ↦ ?_
  cases hqr' : q r' with
  | false => rfl
  | true => rw [hq r' hqr', Bool.not_false, Bool.and_true]

theorem mem_insert (h : T.insert r = some T') : r' ∈ T'.rows ↔ r' ∈ T.rows ∨ r' = r := by
  rw [rows_insert h, mem_append, mem_singleton]

theorem mem_update (h : T.update p f = some T') :
    r' ∈ T'.rows ↔ ∃ r ∈ T.rows, (if p r then f r else r) = r' := by
  rw [rows_update h, mem_map]

theorem mem_insertOrIgnore (h : r' ∈ (T.insertOrIgnore r).rows) : r' ∈ T.rows ∨ r' = r := by
  unfold insertOrIgnore at h
  rcases hinsert : T.insert r with _ | T'
  · rw [hinsert] at h
    exact .inl h
  rw [hinsert] at h
  exact (mem_insert hinsert).1 h

theorem subset_insertOrIgnore : T.rows ⊆ (T.insertOrIgnore r).rows := by
  rw [insertOrIgnore]
  cases h : T.insert r with
  | none => exact List.Subset.refl _
  | some T' => exact fun r' hr' ↦ (mem_insert h).2 (.inl hr')

theorem mem_update_of_not (h : T.update p f = some T') (hr : r ∈ T.rows) (hp : p r = false) :
    r ∈ T'.rows :=
  (mem_update h).2 ⟨r, hr, by simp [hp]⟩

theorem mem_update_of_pos (h : T.update p f = some T') (hr : r ∈ T.rows) (hp : p r = true) :
    f r ∈ T'.rows :=
  (mem_update h).2 ⟨r, hr, by simp [hp]⟩

theorem modify_eq_some {n : ℕ} (h : T.modify p f = some (n, T')) :
    T.update p f = some T' ∧ n = T.count p := by
  obtain ⟨T'', hT, hr⟩ := Option.map_eq_some_iff.1 h
  obtain ⟨rfl, rfl⟩ := Prod.mk.inj hr
  exact ⟨hT, rfl⟩

theorem exists_insert (hcheck : S.check r = true) (hfree : ∀ r' ∈ T.rows, S.clash r' r = false) :
    ∃ T', T.insert r = some T' := by
  refine ⟨_, ofRows?_of_admits ⟨?_, ?_⟩⟩
  · intro r' hr'
    rcases mem_append.1 hr' with h | h
    · exact T.admits.1 r' h
    · rw [mem_singleton.1 h]
      exact hcheck
  · refine pairwise_append.2 ⟨T.admits.2, pairwise_singleton _ _, ?_⟩
    intro a ha b hb
    rw [mem_singleton.1 hb]
    exact hfree a ha

theorem exists_update (hcheck : ∀ r ∈ T.rows, p r = true → S.check (f r) = true)
    (hkey : ∀ r ∈ T.rows, p r = true → ∀ r', S.clash (f r) r' = S.clash r r') :
    ∃ T', T.update p f = some T' := by
  refine ⟨_, ofRows?_of_admits ⟨?_, ?_⟩⟩
  · intro r' hr'
    obtain ⟨r, hr, rfl⟩ := mem_map.1 hr'
    split
    · exact hcheck r hr ‹_›
    · exact T.admits.1 r hr
  · -- rewriting one row of a pair does not move its key, so the pair collides as before
    have hone : ∀ r ∈ T.rows, ∀ r', S.clash (if p r then f r else r) r' = S.clash r r' := by
      intro r hr r'
      split
      · exact hkey r hr ‹_› r'
      · rfl
    rw [pairwise_map]
    refine T.admits.2.imp_of_mem ?_
    intro a b ha hb hab
    rw [hone a ha, S.clash_symm, hone b hb, S.clash_symm]
    exact hab

/-! ### Keys -/

theorem eq_of_clash (hr : r ∈ T.rows) (hr' : r' ∈ T.rows) (h : S.clash r r' = true) : r = r' := by
  by_contra hne
  have : Std.Symm fun a b ↦ S.clash a b = false := ⟨fun a b hab ↦ by rw [S.clash_symm, hab]⟩
  rw [T.admits.2.forall hr hr' hne] at h
  cases h

theorem nodup (T : Table S) : T.rows.Nodup :=
  T.admits.2.imp fun {a b} hab hne ↦ by
    rw [hne, S.clash_self] at hab
    cases hab

theorem check_of_mem (hr : r ∈ T.rows) : S.check r = true :=
  T.admits.1 r hr

theorem not_clash_of_insert (h : T.insert r = some T') (hr' : r' ∈ T.rows) :
    S.clash r' r = false := by
  have hpw := T'.admits.2
  rw [rows_insert h] at hpw
  exact (pairwise_append.1 hpw).2.2 r' hr' r (mem_singleton.2 rfl)

theorem find_some (h : T.find p = some r) : r ∈ T.rows ∧ p r = true :=
  ⟨mem_of_find?_eq_some h, find?_some h⟩

theorem find_none (h : T.find p = none) (hr : r ∈ T.rows) : p r = false :=
  by simpa using find?_eq_none.1 h r hr

theorem find_isSome_of_mem (hr : r ∈ T.rows) (hp : p r = true) : ∃ r', T.find p = some r' := by
  cases h : T.find p with
  | none => simp [find_none h hr] at hp
  | some r' => exact ⟨r', rfl⟩

theorem find_eq_of_key (hr : r ∈ T.rows) (hp : p r = true)
    (hkey : ∀ r' ∈ T.rows, p r' = true → S.clash r' r = true) : T.find p = some r := by
  obtain ⟨r', h⟩ := find_isSome_of_mem hr hp
  obtain ⟨hmem, hp'⟩ := find_some h
  rw [h, eq_of_clash hmem hr (hkey r' hmem hp')]

theorem find_update (h : T.update p f = some T') (hq : ∀ r, q (f r) = q r) :
    T'.find q = (T.find q).map fun r ↦ if p r then f r else r := by
  show List.find? q T'.rows = _
  rw [rows_update h, find?_map]
  congr 2
  funext r
  show q (if p r then f r else r) = q r
  split
  · exact hq r
  · rfl

theorem find_insert (h : T.insert r = some T') :
    T'.find q = (T.find q).or (if q r then some r else none) := by
  show List.find? q T'.rows = _
  rw [rows_insert h, find?_append, find?_singleton]
  rfl

/-- Looking up the row that was written. -/
theorem find_upsert (h : T.upsert p f r = some T') (hf : ∀ r, p (f r) = p r) (hr : p r = true) :
    T'.find p = some (((T.find p).map f).getD r) := by
  rw [upsert] at h
  rcases hfind : T.find p with _ | r'
  · rw [hfind, if_neg (by simp)] at h
    rw [find_insert h, hfind, Option.none_or, if_pos hr]
    rfl
  rw [hfind, if_pos Option.isSome_some] at h
  rw [find_update h hf, hfind, Option.map_some, if_pos (find_some hfind).2]
  rfl

theorem find_update_of_ne (h : T.update p f = some T') (hf : ∀ r, p (f r) = p r)
    (hq : ∀ r, p r = true → q r = false) : T'.find q = T.find q := by
  have hqf (r : ρ) : q (if p r then f r else r) = q r := by
    split_ifs with hp
    · rw [hq r hp, hq (f r) ((hf r).trans hp)]
    · rfl
  show List.find? q T'.rows = List.find? q T.rows
  rw [rows_update h, find?_map, funext (f := q ∘ _) hqf]
  rcases hfind : T.rows.find? q with _ | r'
  · rfl
  have hp : ¬p r' = true := fun hp ↦ by
    have hqr : q r' = true := find?_some hfind
    rw [hq r' hp] at hqr
    cases hqr
  rw [Option.map_some, if_neg hp]

theorem find_delete_of_ne (hq : ∀ r, p r = true → q r = false) :
    (T.delete p).find q = T.find q := by
  show List.find? q (T.rows.filter fun r ↦ !p r) = List.find? q T.rows
  rw [find?_filter]
  congr 1
  funext r
  cases hp : p r with
  | false => simp
  | true => simp [hq r hp]

/-- Looking up another row than the one that was written. -/
theorem find_upsert_of_ne (h : T.upsert p f r = some T') (hf : ∀ r, p (f r) = p r) (hr : p r = true)
    (hq : ∀ r, p r = true → q r = false) : T'.find q = T.find q := by
  rw [upsert] at h
  split_ifs at h
  · exact find_update_of_ne h hf hq
  · rw [find_insert h, hq r hr, if_neg (by simp), Option.or_none]

theorem count_pos_iff : 0 < T.count p ↔ ∃ r ∈ T.rows, p r = true :=
  countP_pos_iff

theorem count_eq_zero_iff : T.count p = 0 ↔ ∀ r ∈ T.rows, p r = false := by
  simp [count, countP_eq_zero]

theorem count_le_one (hkey : ∀ r ∈ T.rows, ∀ r' ∈ T.rows, p r = true → p r' = true →
    S.clash r r' = true) : T.count p ≤ 1 := by
  show List.countP p T.rows ≤ 1
  rw [countP_eq_length_filter]
  have hpw := T.admits.2.filter p
  match hrows : T.rows.filter p with
  | [] => exact Nat.zero_le _
  | [r] => exact le_rfl
  | r :: r' :: rest =>
    rw [hrows] at hpw
    have hr : r ∈ T.rows.filter p := hrows ▸ mem_cons_self
    have hr' : r' ∈ T.rows.filter p := hrows ▸ mem_cons_of_mem _ mem_cons_self
    have hclash := (pairwise_cons.1 hpw).1 r' mem_cons_self
    rw [hkey r (mem_filter.1 hr).1 r' (mem_filter.1 hr').1 (mem_filter.1 hr).2
      (mem_filter.1 hr').2] at hclash
    cases hclash

theorem count_eq_one (hr : r ∈ T.rows) (hp : p r = true)
    (hkey : ∀ r ∈ T.rows, ∀ r' ∈ T.rows, p r = true → p r' = true → S.clash r r' = true) :
    T.count p = 1 :=
  Nat.le_antisymm (count_le_one hkey) (count_pos_iff.2 ⟨r, hr, hp⟩)

section Total

variable {M : Type*} [AddCommMonoid M] {g g' : ρ → M}

@[simp] theorem total_empty : (empty : Table S).total g = 0 := rfl

theorem total_insert (h : T.insert r = some T') : T'.total g = T.total g + g r := by
  simp [total, rows_insert h]

theorem total_update (h : T.update p f = some T') :
    T'.total g = T.total fun r ↦ g (if p r then f r else r) := by
  unfold total
  rw [rows_update h, map_map]
  rfl

theorem sum_map_eq_of_single (g g' : ρ → M) {l : List ρ} (hl : l.Nodup) {a : ρ} (ha : a ∈ l)
    (h : ∀ r ∈ l, r ≠ a → g' r = g r) :
    (l.map g').sum + g a = (l.map g).sum + g' a := by
  induction l with
  | nil => cases ha
  | cons b l ih =>
    obtain ⟨hb, hl⟩ := nodup_cons.1 hl
    simp only [map_cons, sum_cons]
    rcases mem_cons.1 ha with rfl | ha
    · have hrest : l.map g' = l.map g :=
        map_congr_left fun r hr ↦ h r (mem_cons_of_mem _ hr) fun he ↦ hb (he ▸ hr)
      rw [hrest]
      abel
    · have hba : b ≠ a := fun he ↦ hb (he ▸ ha)
      have hrest := ih hl ha fun r hr ↦ h r (mem_cons_of_mem _ hr)
      rw [h b mem_cons_self hba, add_assoc, hrest, ← add_assoc]

theorem total_eq_of_single (g g' : ρ → M) (hr : r ∈ T.rows) (h : ∀ r' ∈ T.rows, r' ≠ r → g' r' = g r') :
    T.total g' + g r = T.total g + g' r :=
  sum_map_eq_of_single g g' T.nodup hr h

end Total

theorem count_eq_total : T.count q = T.total fun r ↦ if q r then 1 else 0 := by
  show List.countP q T.rows = (T.rows.map _).sum
  induction T.rows with
  | nil => rfl
  | cons r l ih => rw [countP_cons, ih, map_cons, sum_cons, Nat.add_comm]

theorem count_insert (h : T.insert r = some T') :
    T'.count q = T.count q + if q r then 1 else 0 := by
  rw [count_eq_total, count_eq_total, total_insert h]

theorem count_update_single (h : T.update p f = some T') (hr : r ∈ T.rows) (hp : p r = true)
    (hother : ∀ r' ∈ T.rows, p r' = true → r' = r) :
    T'.count q + (if q r then 1 else 0) = T.count q + if q (f r) then 1 else 0 := by
  rw [count_eq_total, count_eq_total, total_update h]
  have hsingle := total_eq_of_single (fun r ↦ if q r then 1 else 0)
    (fun r ↦ if q (if p r then f r else r) then 1 else 0) hr fun r' hr' hne ↦ by
      rw [if_neg fun hp' ↦ hne (hother r' hr' hp')]
  simp only [hp, if_true] at hsingle
  exact hsingle

theorem update_none (h : T.update p f = some T') (hnone : ∀ r ∈ T.rows, p r = false) : T' = T := by
  refine ext_rows ?_
  rw [rows_update h]
  refine (map_congr_left fun r hr ↦ ?_).trans (map_id _)
  rw [hnone r hr]
  rfl

end Table

/-!
## Tables up to the order of their rows

What a schema admits does not depend on the order of the rows, and neither does what is found under
a key. So a write can be seen to succeed from any list of rows that it would leave in some order.
-/

variable {ρ : Type*} {S : Schema ρ} {T T' : Table S} {r : ρ} {p : ρ → Bool} {f : ρ → ρ}

theorem Schema.Admits.perm {rows rows' : List ρ} (h : S.Admits rows) (hperm : rows.Perm rows') :
    S.Admits rows' := by
  refine ⟨fun r hr ↦ h.1 r (hperm.mem_iff.2 hr), (hperm.pairwise_iff ?_).1 h.2⟩
  intro r r' hclash
  rw [S.clash_symm]
  exact hclash

namespace Table

variable {rows : List ρ}

theorem exists_insert_of_perm (h : S.Admits rows) (hperm : (T.rows ++ [r]).Perm rows) :
    ∃ T', T.insert r = some T' :=
  ⟨_, ofRows?_of_admits (h.perm hperm.symm)⟩

theorem exists_update_of_perm (h : S.Admits rows)
    (hperm : (T.rows.map fun r ↦ if p r then f r else r).Perm rows) :
    ∃ T', T.update p f = some T' :=
  ⟨_, ofRows?_of_admits (h.perm hperm.symm)⟩

theorem find_congr (hkey : ∀ r r', p r = true → p r' = true → S.clash r r' = true)
    (h : ∀ r, p r = true → (r ∈ T.rows ↔ r ∈ T'.rows)) : T.find p = T'.find p := by
  rcases hfind : T'.find p with _ | r
  · rw [Table.find, find?_eq_none]
    intro r hr hp
    rw [find_none hfind ((h r hp).1 hr)] at hp
    cases hp
  obtain ⟨hr, hp⟩ := find_some hfind
  exact find_eq_of_key ((h r hp).2 hr) hp fun r' _ hp' ↦ hkey r' r hp' hp

theorem find_eq_some_iff (hkey : ∀ r r', p r = true → p r' = true → S.clash r r' = true) :
    T.find p = some r ↔ r ∈ T.rows ∧ p r = true :=
  ⟨find_some, fun ⟨hr, hp⟩ ↦ find_eq_of_key hr hp fun r' _ hp' ↦ hkey r' r hp' hp⟩

end Table

/-- One more element that is kept. -/
theorem filterMap_append_perm {α β : Type*} {l : List α} (hl : l.Nodup)
    {g g' : α → Option β} {a : α} {b : β} (ha : a ∈ l) (hg : g a = none) (hg' : g' a = some b)
    (hother : ∀ x ∈ l, x ≠ a → g x = g' x) :
    (l.filterMap g ++ [b]).Perm (l.filterMap g') := by
  obtain ⟨before, after, rfl⟩ := append_of_mem ha
  obtain ⟨-, hafter, hdisjoint⟩ := nodup_append.1 hl
  have hbefore : before.filterMap g = before.filterMap g' :=
    filterMap_congr fun x hx ↦ hother x (mem_append_left _ hx) (hdisjoint x hx a mem_cons_self)
  have hafter : after.filterMap g = after.filterMap g' :=
    filterMap_congr fun x hx ↦ hother x
      (mem_append_right _ (mem_cons_of_mem _ hx))
      (ne_of_mem_of_not_mem hx (nodup_cons.1 hafter).1)
  rw [filterMap_append, filterMap_append, filterMap_cons_none hg,
    filterMap_cons_some hg', hbefore, hafter, append_assoc]
  exact (perm_append_singleton b _).append_left _

end Relational

/-!
## The latest row

`SELECT … WHERE p ORDER BY key DESC LIMIT 1`, and what an insertion does to it. A new row is the
latest exactly when its key is above the key of the row that was the latest before. An append-only
log whose latest row stands for the state of something is read this way.
-/

namespace Relational.Table

variable {ρ κ : Type*} [LinearOrder κ] {S : Schema ρ} {T T' : Table S} {p : ρ → Bool} {key : ρ → κ}
  {r last : ρ}

/-- The row with the greatest key among those that meet the condition. -/
def latest (T : Table S) (p : ρ → Bool) (key : ρ → κ) : Option ρ :=
  (T.rows.filter p).argmax key

/-- A row that does not meet the condition is not seen. -/
theorem latest_insert_of_not (h : T.insert r = some T') (hp : p r = false) :
    T'.latest p key = T.latest p key := by
  have hnot : ¬p r = true := by
    rw [hp]
    exact Bool.false_ne_true
  rw [latest, rows_insert h, List.filter_append, List.filter_cons_of_neg hnot, List.filter_nil,
    List.append_nil, latest]

theorem latest_insert (h : T.insert r = some T') (hp : p r = true) :
    T'.latest p key = Option.casesOn (T.latest p key) (some r)
      fun last ↦ if key last < key r then some r else some last := by
  rw [latest, rows_insert h, List.filter_append, List.filter_cons_of_pos hp, List.filter_nil,
    List.argmax_concat]
  rfl

theorem latest_insert_of_lt (h : T.insert r = some T') (hp : p r = true)
    (hlt : ∀ last, T.latest p key = some last → key last < key r) : T'.latest p key = some r := by
  rw [latest_insert h hp]
  cases hlast : T.latest p key with
  | none => rfl
  | some last => exact if_pos (hlt last hlast)

theorem latest_insert_of_le (h : T.insert r = some T') (hp : p r = true)
    (hlast : T.latest p key = some last) (hle : key r ≤ key last) :
    T'.latest p key = some last := by
  rw [latest_insert h hp, hlast]
  exact if_neg (not_lt_of_ge hle)

end Relational.Table
