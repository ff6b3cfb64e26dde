import Mathlib.Data.List.Chain

/-!
# Audit trails

A store keeps a value for each key, and beside the value a **trail**: the list of its changes. The two
are written by different statements, so nothing but the discipline of the writers keeps them together.
The discipline is `Extends`: between two states of the store the trail of each key has grown by
changes that lead from the value before to the value after, or, for a key that is new, from an initial
value to the value after. It is reflexive and transitive, so it holds over a run when every writer
keeps to it, and it makes every trail account for its value.

The changes that writers may make are a relation, the values a key may begin with are a predicate.
-/

namespace Relational

variable {σ κ α : Type*} {P : α → α → Prop} {a b c : α}

/-- A change of a value. -/
@[ext]
structure Transition (α : Type*) where
  old : α
  new : α

/-- Permitted changes that lead from one value to another: each begins with the value that the one
before it ended with. -/
def Leads (P : α → α → Prop) : α → List (Transition α) → α → Prop
  | a, [], b => a = b
  | a, t :: ts, b => t.old = a ∧ P t.old t.new ∧ Leads P t.new ts b

@[simp]
theorem leads_nil : Leads P a [] b ↔ a = b :=
  Iff.rfl

variable {ts : List (Transition α)} {t : Transition α}

theorem leads_cons :
    Leads P a (t :: ts) b ↔ t.old = a ∧ P t.old t.new ∧ Leads P t.new ts b :=
  Iff.rfl

theorem leads_append {ts ts' : List (Transition α)} :
    Leads P a (ts ++ ts') c ↔ ∃ b, Leads P a ts b ∧ Leads P b ts' c := by
  induction ts generalizing a with
  | nil => exact ⟨fun h ↦ ⟨a, rfl, h⟩, by rintro ⟨b, rfl, h⟩; exact h⟩
  | cons t ts ih =>
    rw [List.cons_append, leads_cons, ih]
    constructor
    · rintro ⟨hold, hP, b, hts, hts'⟩
      exact ⟨b, ⟨hold, hP, hts⟩, hts'⟩
    · rintro ⟨b, ⟨hold, hP, hts⟩, hts'⟩
      exact ⟨hold, hP, b, hts, hts'⟩

theorem Leads.append {ts ts' : List (Transition α)} (h : Leads P a ts b) (h' : Leads P b ts' c) :
    Leads P a (ts ++ ts') c :=
  leads_append.2 ⟨b, h, h'⟩

theorem Leads.single (h : P a b) : Leads P a [⟨a, b⟩] b :=
  ⟨rfl, h, rfl⟩

theorem Leads.getLast (h : Leads P a ts b) (ht : ts.getLast? = some t) : t.new = b := by
  obtain ⟨ts, rfl⟩ := List.getLast?_eq_some_iff.1 ht
  obtain ⟨_, -, -, -, hnew⟩ := leads_append.1 h
  exact hnew

/-- The trail leaves from the value that its first change began with. -/
theorem Leads.head (h : Leads P a ts b) (ht : ts.head? = some t) : t.old = a := by
  obtain ⟨ts, rfl⟩ := List.head?_eq_some_iff.1 ht
  exact h.1

/-- Each change of the trail begins with what the one before it ended with. -/
theorem Leads.isChain (h : Leads P a ts b) :
    ts.IsChain fun t t' ↦ t'.old = t.new := by
  induction ts generalizing a with
  | nil => exact List.isChain_nil
  | cons t ts ih =>
    refine List.isChain_cons.2 ⟨fun t' ht' ↦ ?_, ih h.2.2⟩
    exact h.2.2.head ht'

theorem Leads.permits (h : Leads P a ts b) (ht : t ∈ ts) : P t.old t.new := by
  induction ts generalizing a with
  | nil => cases ht
  | cons t' ts ih =>
    rcases List.mem_cons.1 ht with rfl | ht
    · exact h.2.1
    · exact ih h.2.2 ht

/-- What every permitted change keeps holds of the value that the trail arrives at. -/
theorem Leads.invariant {I : α → Prop} (h : Leads P a ts b) (hI : ∀ a b, P a b → I a → I b)
    (ha : I a) : I b := by
  induction ts generalizing a with
  | nil => exact h ▸ ha
  | cons t ts ih => exact ih h.2.2 (hI _ _ h.2.1 (h.1 ▸ ha))

/-- A store as its trails see it. -/
structure Audited (σ κ α : Type*) where
  value : σ → κ → Option α
  trail : σ → κ → List (Transition α)
  /-- The values that a key may begin with. -/
  Initial : α → Prop
  /-- The changes that may be made. -/
  Permits : α → α → Prop

namespace Audited

variable (A : Audited σ κ α)

/-- The changes account for what became of the value of one key. -/
def Follows : Option α → List (Transition α) → Option α → Prop
  | some a, ts, some b => Leads A.Permits a ts b
  | none, ts, some b => ∃ a, A.Initial a ∧ Leads A.Permits a ts b
  | none, ts, none => ts = []
  | some _, _, none => False

/-- The trail of the key has grown by changes that account for what became of its value. -/
def ExtendsAt (k : κ) (s s' : σ) : Prop :=
  ∃ ts, A.trail s' k = A.trail s k ++ ts ∧ A.Follows (A.value s k) ts (A.value s' k)

/-- Every trail has grown by changes that account for what became of the value. -/
def Extends (s s' : σ) : Prop :=
  ∀ k, ∃ ts, A.trail s' k = A.trail s k ++ ts ∧ A.Follows (A.value s k) ts (A.value s' k)

/-- Every trail accounts for the value of its key. -/
def Accounts (s : σ) : Prop :=
  ∀ k, A.Follows none (A.trail s k) (A.value s k)

variable {A} {s s' s'' : σ} {k : κ}

theorem follows_refl (x : Option α) : A.Follows x [] x := by
  rcases x with _ | a
  · rfl
  show Leads A.Permits a [] a
  rfl

theorem Follows.trans {x y z : Option α} {ts ts' : List (Transition α)} (h : A.Follows x ts y)
    (h' : A.Follows y ts' z) : A.Follows x (ts ++ ts') z := by
  rcases x with _ | a <;> rcases y with _ | b <;> rcases z with _ | c
  · have hts : ts = [] := h
    have hts' : ts' = [] := h'
    rw [hts, hts']
    exact follows_refl none
  · -- the key appears in the second part
    have hts : ts = [] := h
    rw [hts]
    exact h'
  · exact h'.elim
  · obtain ⟨a, ha, hts⟩ := h
    exact ⟨a, ha, hts.append h'⟩
  · exact h.elim
  · exact h.elim
  · exact h'.elim
  · exact Leads.append h h'

theorem extendsAt_of_eq (hvalue : A.value s' k = A.value s k) (htrail : A.trail s' k = A.trail s k) :
    A.ExtendsAt k s s' :=
  ⟨[], by rw [htrail, List.append_nil], by rw [hvalue]; exact follows_refl _⟩

instance : Std.Refl (A.ExtendsAt k) :=
  ⟨fun _ ↦ extendsAt_of_eq rfl rfl⟩

instance : IsTrans σ (A.ExtendsAt k) := by
  refine ⟨fun s s' s'' h h' ↦ ?_⟩
  obtain ⟨ts, htrail, hts⟩ := h
  obtain ⟨ts', htrail', hts'⟩ := h'
  exact ⟨ts ++ ts', by rw [htrail', htrail, List.append_assoc], hts.trans hts'⟩

theorem extends_of_eq (hvalue : A.value s' = A.value s) (htrail : A.trail s' = A.trail s) :
    A.Extends s s' :=
  fun k ↦ extendsAt_of_eq (congrFun hvalue k) (congrFun htrail k)

instance : Std.Refl A.Extends :=
  ⟨fun _ ↦ extends_of_eq rfl rfl⟩

instance : IsTrans σ A.Extends :=
  ⟨fun s s' s'' h h' k ↦ IsTrans.trans (r := A.ExtendsAt k) s s' s'' (h k) (h' k)⟩

/-- Writers that keep to the discipline keep the trails in order. -/
theorem Accounts.extends (h : A.Accounts s) (h' : A.Extends s s') : A.Accounts s' := by
  intro k
  obtain ⟨ts, htrail, hts⟩ := h' k
  rw [htrail]
  exact (h k).trans hts

end Audited

end Relational
