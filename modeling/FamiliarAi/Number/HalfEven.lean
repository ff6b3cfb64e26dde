import Mathlib.Tactic.Positivity
import Mathlib.Tactic.Ring
import Mathlib.Tactic.Linarith

/-!
# Rounding half to even

A rational number is rounded to the nearest integer, and one that lies half-way between two integers
to the even one of them. There is one such integer (`IsHalfEven.unique`), and where the number is
given by its quotient and its remainder, comparing twice the remainder with the divisor finds it
(`isHalfEven_add_div`).
-/

namespace Number

/-- The integer is nearest to the number, and even if another one is as near. -/
def IsHalfEven (q : ℚ) (n : ℤ) : Prop :=
  |q - n| ≤ 1 / 2 ∧ (|q - n| = 1 / 2 → Even n)

variable {q : ℚ} {m n : ℤ}

theorem IsHalfEven.neg (h : IsHalfEven q n) : IsHalfEven (-q) (-n) := by
  have habs : |-q - ((-n : ℤ) : ℚ)| = |q - n| := by
    rw [← abs_neg (q - n)]
    push_cast
    ring_nf
  exact ⟨habs ▸ h.1, fun heq ↦ (h.2 (habs ▸ heq)).neg⟩

/-- **A number is rounded to one integer.** -/
theorem IsHalfEven.unique (hm : IsHalfEven q m) (hn : IsHalfEven q n) : m = n := by
  wlog hlt : m < n generalizing m n
  · rcases lt_trichotomy m n with h | h | h
    · exact absurd h hlt
    · exact h
    · exact (this hn hm h).symm
  -- both are half-way from the number, and they are neighbours
  have hnext : (m : ℚ) + 1 ≤ n := by exact_mod_cast hlt
  obtain ⟨hm₁, hm₂⟩ := abs_le.1 hm.1
  obtain ⟨hn₁, hn₂⟩ := abs_le.1 hn.1
  have hqm : q - m = 1 / 2 := by linarith
  have hqn : q - n = -(1 / 2) := by linarith
  have hsucc : n = m + 1 := by
    have : (n : ℚ) = m + 1 := by linarith
    exact_mod_cast this
  have hevenm := hm.2 (by rw [hqm, abs_of_pos (by norm_num)])
  have hevenn := hn.2 (by rw [hqn, abs_neg, abs_of_pos (by norm_num)])
  rw [hsucc, Int.even_add_one] at hevenn
  exact absurd hevenm hevenn

/-- **What is left over decides.** -/
theorem isHalfEven_add_div {n r d : ℕ} (hr : r < d) :
    IsHalfEven (n + r / d) (if d < 2 * r ∨ 2 * r = d ∧ n % 2 = 1 then n + 1 else n : ℕ) := by
  have hd : (0 : ℚ) < d := by exact_mod_cast Nat.zero_lt_of_lt hr
  have hfrac : (r : ℚ) / d < 1 := by
    rw [div_lt_one hd]
    exact_mod_cast hr
  have hhalf : ∀ c : ℚ, (r : ℚ) / d = c ↔ (r : ℚ) = c * d := fun c ↦ div_eq_iff hd.ne'
  split
  case isTrue hup =>
    have hle : (1 : ℚ) / 2 ≤ r / d := by
      rw [le_div_iff₀ hd]
      have : (d : ℚ) ≤ 2 * r := by exact_mod_cast (by omega : d ≤ 2 * r)
      linarith
    have habs : |(n : ℚ) + r / d - ((n + 1 : ℕ) : ℤ)| = 1 - r / d := by
      push_cast
      rw [abs_of_nonpos (by linarith)]
      ring
    refine ⟨by rw [habs]; linarith, fun heq ↦ ?_⟩
    rw [habs] at heq
    have hsame : 2 * r = d := by
      have := (hhalf (1 / 2)).1 (by linarith)
      have : (2 * r : ℚ) = d := by linarith
      exact_mod_cast this
    have hodd : n % 2 = 1 := by omega
    exact_mod_cast (Nat.even_iff.2 (by omega) : Even (n + 1))
  case isFalse hdown =>
    have hle : (r : ℚ) / d ≤ 1 / 2 := by
      rw [div_le_iff₀ hd]
      have : (2 * r : ℚ) ≤ d := by exact_mod_cast (by omega : 2 * r ≤ d)
      linarith
    have hnonneg : (0 : ℚ) ≤ r / d := by positivity
    have habs : |(n : ℚ) + r / d - (n : ℤ)| = r / d := by
      push_cast
      rw [add_sub_cancel_left, abs_of_nonneg hnonneg]
    refine ⟨by rw [habs]; exact hle, fun heq ↦ ?_⟩
    rw [habs] at heq
    have hsame : 2 * r = d := by
      have := (hhalf _).1 heq
      have : (2 * r : ℚ) = d := by linarith
      exact_mod_cast this
    exact_mod_cast (Nat.even_iff.2 (by omega) : Even n)

end Number
