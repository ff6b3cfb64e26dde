import Mathlib.Algebra.Order.Ring.Nat

/-!
# Outcomes of fallible computations

How a computation that may fail is taken apart when it succeeds: each of its steps has succeeded.
The steps themselves stay closed terms, so that nothing in them is evaluated. A computation that may
panic stops with an error or without one.
-/

/-- How a computation halts without a result. -/
inductive Halt (ε : Type)
  | panic
  | error (e : ε)
  deriving DecidableEq

def Halt.map {ε ε' : Type} (f : ε → ε') : Halt ε → Halt ε'
  | panic => panic
  | error e => error (f e)

/-- `unwrap` of an option, and an index that may be out of range. -/
def orPanic {ε α : Type} : Option α → Except (Halt ε) α
  | some a => .ok a
  | none => .error .panic

theorem orPanic_eq_ok {ε α : Type} {x : Option α} {a : α} :
    (orPanic x : Except (Halt ε) α) = .ok a ↔ x = some a := by
  cases x with
  | none => exact ⟨nofun, nofun⟩
  | some b => exact ⟨fun h ↦ congrArg _ (Except.ok.inj h), fun h ↦ congrArg _ (Option.some.inj h)⟩

namespace Except

open List

variable {ε α β : Type} {x : Except ε α} {f : α → Except ε β} {as : List α} {e : ε} {a : α}
  {ε' : Type} {c : Prop}

theorem ok_bind (a : α) (f : α → Except ε β) : (.ok a : Except ε α) >>= f = f a :=
  rfl

theorem bind_eq_ok {b : β} :
    x >>= f = .ok b ↔ ∃ a, x = .ok a ∧ f a = .ok b := by
  cases x with
  | error e => exact ⟨nofun, nofun⟩
  | ok a => exact ⟨fun h ↦ ⟨a, rfl, h⟩, fun ⟨_, ha, h⟩ ↦ by cases ha; exact h⟩

theorem bind_eq_error :
    x >>= f = .error e ↔ x = .error e ∨ ∃ a, x = .ok a ∧ f a = .error e := by
  cases x with
  | error e' => exact ⟨fun h ↦ .inl (by cases h; rfl), by rintro (h | ⟨_, ⟨⟩, _⟩); cases h; rfl⟩
  | ok a => exact ⟨fun h ↦ .inr ⟨a, rfl, h⟩, by rintro (h | ⟨_, ⟨⟩, h⟩); cases h; exact h⟩

theorem map_eq_error {f : α → β} :
    x.map f = .error e ↔ x = .error e := by
  cases x with
  | error e' =>
    exact ⟨fun h ↦ congrArg _ (Except.error.inj h), fun h ↦ congrArg _ (Except.error.inj h)⟩
  | ok a => exact ⟨nofun, nofun⟩

theorem exists_of_isOk (h : x.isOk = true) : ∃ a, x = .ok a := by
  cases x with
  | error e => cases h
  | ok a => exact ⟨a, rfl⟩

theorem toOption_eq_some : x.toOption = some a ↔ x = .ok a := by
  cases x with
  | error e => exact ⟨nofun, nofun⟩
  | ok b => exact ⟨fun h ↦ congrArg _ (Option.some.inj h), fun h ↦ congrArg _ (Except.ok.inj h)⟩

/-- A check that stops the computation. -/
theorem ite_throw_eq_ok [Decidable c] {f : Unit → Except ε β} {b : β} :
    (if c then throw e >>= f else f ()) = .ok b ↔ ¬c ∧ f () = .ok b := by
  by_cases hc : c
  · rw [if_pos hc]
    exact ⟨nofun, fun h ↦ absurd hc h.1⟩
  · rw [if_neg hc]
    exact ⟨fun h ↦ ⟨hc, h⟩, And.right⟩

theorem ite_error_eq_ok [Decidable c] :
    (if c then .error e else x) = .ok a ↔ ¬c ∧ x = .ok a := by
  by_cases hc : c
  · rw [if_pos hc]
    exact ⟨nofun, fun h ↦ absurd hc h.1⟩
  · rw [if_neg hc]
    exact ⟨fun h ↦ ⟨hc, h⟩, And.right⟩

/-- A loop over a list succeeds when each of its steps does. -/
theorem forM_eq_ok {f : α → Except ε Unit} :
    as.forM f = .ok () ↔ ∀ a ∈ as, f a = .ok () := by
  induction as with
  | nil => exact ⟨fun _ ↦ nofun, fun _ ↦ rfl⟩
  | cons a as ih =>
    show (f a >>= fun _ ↦ as.forM f) = .ok () ↔ _
    rw [bind_eq_ok, forall_mem_cons, ← ih]
    exact ⟨fun ⟨_, ha, has⟩ ↦ ⟨ha, has⟩, fun ⟨ha, has⟩ ↦ ⟨(), ha, has⟩⟩

theorem exists_of_forM_eq_error {f : α → Except ε Unit} (h : as.forM f = .error e) :
    ∃ a ∈ as, f a = .error e := by
  induction as with
  | nil => cases h
  | cons a as ih =>
    rcases bind_eq_error.1 (show f a >>= (fun _ ↦ as.forM f) = .error e from h) with h | ⟨_, _, h⟩
    · exact ⟨a, mem_cons_self, h⟩
    · obtain ⟨b, hb, h⟩ := ih h
      exact ⟨b, mem_cons_of_mem _ hb, h⟩

/-- Where a loop over a list fails, the steps before have succeeded. -/
theorem mapM_eq_error :
    as.mapM f = .error e ↔ ∃ before a after, as = before ++ a :: after ∧
      (∀ b ∈ before, ∃ c, f b = .ok c) ∧ f a = .error e := by
  induction as with
  | nil =>
    rw [mapM_nil]
    refine iff_of_false nofun ?_
    rintro ⟨before, a, after, h, -⟩
    exact append_ne_nil_of_right_ne_nil before (cons_ne_nil a after) h.symm
  | cons a as ih =>
    rw [mapM_cons, bind_eq_error]
    constructor
    · rintro (h | ⟨c, hc, h⟩)
      · exact ⟨[], a, as, rfl, nofun, h⟩
      · rcases bind_eq_error.1 h with h | ⟨_, -, ⟨⟩⟩
        obtain ⟨before, b, after, rfl, hbefore, hb⟩ := ih.1 h
        refine ⟨a :: before, b, after, rfl, ?_, hb⟩
        exact forall_mem_cons.2 ⟨⟨c, hc⟩, hbefore⟩
    · rintro ⟨before, b, after, h, hbefore, hb⟩
      rcases before with _ | ⟨a', before⟩
      · obtain ⟨rfl, rfl⟩ := cons.inj h
        exact .inl hb
      obtain ⟨rfl, rfl⟩ := cons.inj h
      obtain ⟨⟨c, hc⟩, hbefore⟩ := forall_mem_cons.1 hbefore
      exact .inr ⟨c, hc, bind_eq_error.2 (.inl (ih.2 ⟨before, b, after, rfl, hbefore, hb⟩))⟩

/-- A loop over a list succeeds when each of its steps does, whatever they answer. -/
theorem exists_mapM_eq_ok :
    (∃ bs, as.mapM f = .ok bs) ↔ ∀ a ∈ as, ∃ b, f a = .ok b := by
  induction as with
  | nil => exact ⟨fun _ ↦ nofun, fun _ ↦ ⟨[], rfl⟩⟩
  | cons a as ih =>
    rw [forall_mem_cons, ← ih]
    simp only [mapM_cons, bind_eq_ok]
    constructor
    · rintro ⟨_, b, hb, bs, hbs, -⟩
      exact ⟨⟨b, hb⟩, bs, hbs⟩
    · rintro ⟨⟨b, hb⟩, bs, hbs⟩
      exact ⟨b :: bs, b, hb, bs, hbs, rfl⟩

theorem mapError_eq_ok {f : ε → ε'} :
    x.mapError f = .ok a ↔ x = .ok a := by
  cases x with
  | error e => exact ⟨nofun, nofun⟩
  | ok b => exact ⟨fun h ↦ congrArg _ (Except.ok.inj h), fun h ↦ congrArg _ (Except.ok.inj h)⟩

theorem mapError_map_eq_panic {f : ε → ε'} {x : Except (Halt ε) α} :
    x.mapError (Halt.map f) = .error .panic ↔ x = .error .panic := by
  rcases x with (_ | e) | a
  · exact ⟨fun _ ↦ rfl, fun _ ↦ rfl⟩
  · exact ⟨nofun, nofun⟩
  · exact ⟨nofun, nofun⟩

theorem bind_ne_panic {x : Except (Halt ε) α} {f : α → Except (Halt ε) β}
    (hx : x ≠ .error .panic) (hf : ∀ a, x = .ok a → f a ≠ .error .panic) :
    x >>= f ≠ .error .panic := by
  intro h
  rcases bind_eq_error.1 h with h | ⟨a, ha, h⟩
  · exact hx h
  · exact hf a ha h

theorem forM_ne_panic {f : α → Except (Halt ε) Unit} (h : ∀ a ∈ as, f a ≠ .error .panic) :
    as.forM f ≠ .error .panic := by
  intro hpanic
  obtain ⟨a, ha, hpanic⟩ := exists_of_forM_eq_error hpanic
  exact h a ha hpanic

/-- A computation that does not panic. -/
def orHalt (x : Except ε α) : Except (Halt ε) α :=
  x.mapError .error

theorem orHalt_eq_ok : x.orHalt = .ok a ↔ x = .ok a :=
  mapError_eq_ok

theorem orHalt_ne_panic : x.orHalt ≠ .error .panic := by
  cases x with
  | error e => exact nofun
  | ok a => exact nofun

end Except

/-!
## Arithmetic of `u64`

Amounts are natural numbers; the operations that keep them below `2 ^ 64` are the ones of the type
`u64`.
-/

namespace FamiliarAi

def maxU64 : ℕ := 2 ^ 64 - 1

/-- `u64::saturating_add`. -/
def saturatingAdd (a b : ℕ) : ℕ :=
  min (a + b) maxU64

/-- `u64::saturating_mul`. -/
def saturatingMul (a b : ℕ) : ℕ :=
  min (a * b) maxU64

/-- `u64::checked_add`. -/
def checkedAdd (a b : ℕ) : Option ℕ :=
  if a + b ≤ maxU64 then some (a + b) else none

theorem checkedAdd_eq_some {a b c : ℕ} (h : checkedAdd a b = some c) : c = a + b ∧ c ≤ maxU64 := by
  unfold checkedAdd at h
  split at h
  · rename_i hle
    obtain rfl := Option.some.inj h
    exact ⟨rfl, hle⟩
  · cases h

end FamiliarAi
