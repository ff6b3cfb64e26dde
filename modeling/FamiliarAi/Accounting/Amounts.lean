import FamiliarAi.Text.Basic

/-!
# Amounts of money

An amount is kept as a number of nano dollars of the type `i64`. Amounts are integers here; the
operations that keep them within the type are the ones of `i64`. A provider writes an amount as a
decimal text, which is read exactly: what is beyond nine places is rounded half to even.
-/

namespace FamiliarAi

open Text Option

def maxI64 : ℤ := 2 ^ 63 - 1

def minI64 : ℤ := -2 ^ 63

/-- The number is one of the type. -/
def FitsI64 (a : ℤ) : Prop :=
  minI64 ≤ a ∧ a ≤ maxI64

instance : DecidablePred FitsI64 :=
  fun _ ↦ inferInstanceAs (Decidable (_ ∧ _))

/-- The nearest number of the type. -/
def saturateI64 (a : ℤ) : ℤ :=
  max minI64 (min a maxI64)

/-- `i64::abs`, which leaves the least number as it is. -/
def absI64 (a : ℤ) : ℤ :=
  if a = minI64 then minI64 else (a.natAbs : ℤ)

/-- `str::split_once` at a character. -/
def splitOnce (separator : Char) (text : List Char) : Option (List Char × List Char) :=
  if separator ∈ text then
    some (text.takeWhile (· ≠ separator), (text.dropWhile (· ≠ separator)).tail)
  else none

/-- The number that the digits write. -/
def digitsValue (digits : List Char) : ℕ :=
  digits.foldl (fun n c ↦ 10 * n + (c.toNat - '0'.toNat)) 0

def decimalParts (text : List Char) : Option (List Char × List Char) :=
  let parts := (splitOnce '.' text).getD (text, [])
  if parts.1 = [] ∨ ¬parts.1.all Char.isDigit ∨ ¬parts.2.all Char.isDigit then none else some parts

/-- The first nine places of a fraction. -/
def fractionNanos (fraction : List Char) : ℕ :=
  digitsValue (fraction.take 9) * 10 ^ (9 - (fraction.take 9).length)

/-- What is beyond the ninth place rounds up: it is more than half, or half of an odd number. -/
def roundsUp (n : ℕ) (rest : List Char) : Bool :=
  match rest with
  | [] => false
  | c :: rest => c > '5' || c = '5' && (rest.any (· ≠ '0') || n % 2 = 1)

/-- `decimal_nanousd` of the billing repository, which computes in `i128`. -/
def billingNanousd (value : String) : Option ℤ := do
  let value := trim value.toList
  let (negative, digits) := match stripPrefix? ['-'] value with
    | some digits => (true, digits)
    | none => (false, value)
  let (whole, fraction) ← decimalParts digits
  let base ← if digitsValue whole * 10 ^ 9 < 2 ^ 127 then some (digitsValue whole * 10 ^ 9) else none
  let nanos := fractionNanos fraction
  let nanos := if roundsUp nanos (fraction.drop 9) then nanos + 1 else nanos
  let total ← if base + nanos < 2 ^ 127 then some (base + nanos) else none
  let signed : ℤ := if negative then -total else total
  if FitsI64 signed then some signed else none

/-- `decimal_nanousd` of the accounting repository, which computes in `u64`. -/
def decimalNanousd (value : List Char) : Option ℕ := do
  let (whole, fraction) ← decimalParts value
  let n ← if digitsValue whole * 10 ^ 9 < 2 ^ 64 then some (digitsValue whole * 10 ^ 9) else none
  let n ← if n + fractionNanos fraction < 2 ^ 64 then some (n + fractionNanos fraction) else none
  let n := if roundsUp n (fraction.drop 9) then n + 1 else n
  if n ≤ maxI64 then some n else none

def signedDecimalNanousd (value : String) : Option ℤ :=
  match stripPrefix? ['-'] value.toList with
  | some magnitude => (decimalNanousd magnitude).map fun n ↦ -(n : ℤ)
  | none => (decimalNanousd value.toList).map fun n ↦ (n : ℤ)

example : billingNanousd "0.0000000015" = some 2 := by decide
example : billingNanousd "0.0000000025" = some 2 := by decide
example : billingNanousd "-1.25" = some (-1250000000) := by decide
example : billingNanousd "1e-3" = none := by decide

/-! ### What the parsers compute -/

/-- The number of nano dollars that a parser computes of the digits. -/
def nanosOf (whole fraction : List Char) : ℕ :=
  let n := digitsValue whole * 10 ^ 9 + fractionNanos fraction
  if roundsUp n (fraction.drop 9) then n + 1 else n

def signOf (text : List Char) : Bool × List Char :=
  match stripPrefix? ['-'] text with
  | some digits => (true, digits)
  | none => (false, text)

section

variable {text whole fraction : List Char}

theorem nanosOf_def : nanosOf whole fraction =
    if roundsUp (digitsValue whole * 10 ^ 9 + fractionNanos fraction) (fraction.drop 9) then
      digitsValue whole * 10 ^ 9 + fractionNanos fraction + 1
    else digitsValue whole * 10 ^ 9 + fractionNanos fraction :=
  rfl

theorem nanosOf_ge :
    digitsValue whole * 10 ^ 9 + fractionNanos fraction ≤ nanosOf whole fraction := by
  simp only [nanosOf]
  split <;> omega

theorem checks_eq {α : Type} {p q r : Prop} [Decidable p] [Decidable q] [Decidable r] {x : α}
    (h : r → p ∧ q) :
    (if p then if q then if r then some x else none else none else none) =
      if r then some x else none := by
  by_cases hr : r
  · rw [if_pos (h hr).1, if_pos (h hr).2]
  · simp [hr]

theorem bind_checked {α β : Type} {p : Prop} [Decidable p] (x : α) (f : α → Option β) :
    (if p then (do let y ← some x; f y) else (do let y ← none; f y)) =
      if p then f x else none := by
  split <;> rfl

/-- The accounting parser computes in `u64`, where an amount of the type does not overflow. -/
theorem decimalNanousd_eq (text : List Char) : decimalNanousd text =
    (decimalParts text).bind fun p ↦
      if (nanosOf p.1 p.2 : ℤ) ≤ maxI64 then some (nanosOf p.1 p.2) else none := by
  have hlt : ∀ {whole fraction : List Char}, (nanosOf whole fraction : ℤ) ≤ maxI64 →
      digitsValue whole * 10 ^ 9 < 2 ^ 64 ∧
        digitsValue whole * 10 ^ 9 + fractionNanos fraction < 2 ^ 64 := by
    intro whole fraction hfits
    have hmax : maxI64 = 2 ^ 63 - 1 := rfl
    have hsum := (@nanosOf_ge whole fraction).trans_lt (by omega : nanosOf whole fraction < 2 ^ 64)
    exact ⟨(Nat.le_add_right _ _).trans_lt hsum, hsum⟩
  unfold decimalNanousd
  rcases decimalParts text with _ | p
  · rw [bind_eq_bind, bind_none, bind_none]
  obtain ⟨whole, fraction⟩ := p
  rw [bind_eq_bind, bind_some, bind_some]
  dsimp only
  rw [bind_checked, bind_checked, ← nanosOf_def]
  rw [checks_eq hlt]

theorem nanosOf_eq : nanosOf whole fraction = digitsValue whole * 10 ^ 9 +
    if roundsUp (fractionNanos fraction) (fraction.drop 9) then fractionNanos fraction + 1
    else fractionNanos fraction := by
  have hparity : roundsUp (digitsValue whole * 10 ^ 9 + fractionNanos fraction) (fraction.drop 9) =
      roundsUp (fractionNanos fraction) (fraction.drop 9) := by
    have hmod : (digitsValue whole * 10 ^ 9 + fractionNanos fraction) % 2 =
        fractionNanos fraction % 2 := by
      omega
    unfold roundsUp
    rw [hmod]
  rw [nanosOf, hparity]
  split <;> omega

/-- The billing parser computes in `i128`. -/
theorem billingNanousd_eq (text : String) : billingNanousd text =
    (decimalParts (signOf (trim text.toList)).2).bind fun p ↦
      if FitsI64 (if (signOf (trim text.toList)).1 then -(nanosOf p.1 p.2 : ℤ) else nanosOf p.1 p.2)
      then some (if (signOf (trim text.toList)).1 then -(nanosOf p.1 p.2 : ℤ) else nanosOf p.1 p.2)
      else none := by
  have hlt : ∀ {negative : Bool} {whole fraction : List Char},
      FitsI64 (if negative then -(nanosOf whole fraction : ℤ) else nanosOf whole fraction) →
        digitsValue whole * 10 ^ 9 < 2 ^ 127 ∧ nanosOf whole fraction < 2 ^ 127 := by
    rintro negative whole fraction ⟨hlow, hhigh⟩
    have hge := @nanosOf_ge whole fraction
    have hmin : minI64 = -2 ^ 63 := rfl
    have hmax : maxI64 = 2 ^ 63 - 1 := rfl
    have hsum : nanosOf whole fraction < 2 ^ 127 := by
      rcases negative with _ | _
      · rw [if_neg Bool.false_ne_true] at hhigh
        omega
      rw [if_pos rfl] at hlow
      omega
    exact ⟨((Nat.le_add_right _ _).trans hge).trans_lt hsum, hsum⟩
  unfold billingNanousd signOf
  dsimp only
  generalize trim text.toList = value
  generalize stripPrefix? ['-'] value = stripped
  cases stripped with
  | some digits =>
    dsimp only
    rcases decimalParts digits with _ | p
    · rw [bind_eq_bind, bind_none, bind_none]
    obtain ⟨whole, fraction⟩ := p
    rw [bind_eq_bind, bind_some, bind_some]
    dsimp only
    rw [bind_checked, bind_checked, ← nanosOf_eq]
    rw [checks_eq (@hlt true _ _)]
  | none =>
    dsimp only
    rcases decimalParts value with _ | p
    · rw [bind_eq_bind, bind_none, bind_none]
    obtain ⟨whole, fraction⟩ := p
    rw [bind_eq_bind, bind_some, bind_some]
    dsimp only
    rw [bind_checked, bind_checked, ← nanosOf_eq]
    rw [checks_eq (@hlt false _ _)]

theorem signedDecimalNanousd_eq (text : String) : signedDecimalNanousd text =
    (decimalParts (signOf text.toList).2).bind fun p ↦
      if (nanosOf p.1 p.2 : ℤ) ≤ maxI64 then
        some (if (signOf text.toList).1 then -(nanosOf p.1 p.2 : ℤ) else nanosOf p.1 p.2)
      else none := by
  unfold signedDecimalNanousd signOf
  generalize stripPrefix? ['-'] text.toList = stripped
  cases stripped
  all_goals
    dsimp only
    rw [decimalNanousd_eq]
    generalize decimalParts _ = parts
    rcases parts with _ | p
    · rfl
    rw [bind_some, bind_some]
    by_cases hfits : (nanosOf p.1 p.2 : ℤ) ≤ maxI64
    · rw [if_pos hfits, if_pos hfits]
      rfl
    · rw [if_neg hfits, if_neg hfits]
      rfl

end

end FamiliarAi
