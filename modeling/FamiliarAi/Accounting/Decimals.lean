import FamiliarAi.Accounting.Reconcile
import FamiliarAi.Number.HalfEven
import Mathlib.Tactic.FieldSimp
import Mathlib.Tactic.LinearCombination

/-!
# What the decimal parsers read

A decimal text is an optional minus sign, digits, and possibly a point with more digits. Both
parsers return its value in nano dollars, rounded half to even, where the type holds it: the numbers
they compute with on the way do not overflow where the result does not. They differ at the ends. The
billing parser takes white space off the text, and only it returns the least number of the type.
-/

namespace FamiliarAi

open Text Number List Option

/-- The text is a decimal with this sign, these digits before the point and these after it. -/
structure IsDecimal (text : List Char) (negative : Bool) (whole fraction : List Char) : Prop where
  nonempty : whole ≠ []
  digits : ∀ c ∈ whole, c.isDigit
  places : ∀ c ∈ fraction, c.isDigit
  written : text = (if negative then ['-'] else []) ++ whole ++ '.' :: fraction ∨
    fraction = [] ∧ text = (if negative then ['-'] else []) ++ whole

def decimalValue (negative : Bool) (whole fraction : List Char) : ℚ :=
  (if negative then -1 else 1) * (digitsValue (whole ++ fraction) / 10 ^ fraction.length)

/-- The decimal in nano dollars, rounded half to even. -/
def IsNanousd (text : List Char) (n : ℤ) : Prop :=
  ∃ negative whole fraction, IsDecimal text negative whole fraction ∧
    IsHalfEven (decimalValue negative whole fraction * 10 ^ 9) n

section

variable {text whole fraction digits digits' : List Char} {negative : Bool} {n : ℕ} {a b : ℤ}

theorem digitsValue_append : digitsValue (digits ++ digits') =
    digitsValue digits * 10 ^ digits'.length + digitsValue digits' := by
  have hfold : ∀ n, digits'.foldl (fun n c ↦ 10 * n + (c.toNat - '0'.toNat)) n =
      n * 10 ^ digits'.length + digitsValue digits' := by
    induction digits' with
    | nil => simp [digitsValue]
    | cons c digits' ih =>
      intro n
      have hvalue : digitsValue (c :: digits') =
          (10 * 0 + (c.toNat - '0'.toNat)) * 10 ^ digits'.length + digitsValue digits' := ih _
      rw [foldl_cons, ih, hvalue, length_cons, pow_succ]
      ring
  rw [digitsValue, foldl_append, hfold]
  rfl

theorem digitsValue_cons (c : Char) : digitsValue (c :: digits) =
    (c.toNat - '0'.toNat) * 10 ^ digits.length + digitsValue digits := by
  rw [← singleton_append, digitsValue_append]
  simp [digitsValue]

theorem digit_le {c : Char} (hc : c.isDigit) : '0'.toNat ≤ c.toNat ∧ c.toNat ≤ '0'.toNat + 9 := by
  obtain ⟨hlow, hhigh⟩ := by simpa [Char.isDigit] using hc
  exact ⟨hlow, hhigh⟩

theorem digitsValue_lt (hdigits : ∀ c ∈ digits, c.isDigit) :
    digitsValue digits < 10 ^ digits.length := by
  induction digits with
  | nil => exact Nat.one_pos
  | cons c digits ih =>
    have htail := ih fun d hd ↦ hdigits d (mem_cons_of_mem _ hd)
    have hc : c.toNat - '0'.toNat ≤ 9 :=
      Nat.sub_le_iff_le_add'.2 (digit_le (hdigits c mem_cons_self)).2
    have hmul := Nat.mul_le_mul_right (10 ^ digits.length) hc
    rw [digitsValue_cons, length_cons, pow_succ]
    omega

theorem digitsValue_ne_zero_iff (hdigits : ∀ c ∈ digits, c.isDigit) :
    digits.any (· ≠ '0') = true ↔ digitsValue digits ≠ 0 := by
  induction digits with
  | nil => simp [digitsValue]
  | cons c digits ih =>
    have hc := (digit_le (hdigits c mem_cons_self)).1
    have hzero : c ≠ '0' ↔ c.toNat - '0'.toNat ≠ 0 := by
      rw [ne_eq, ← Char.toNat_inj]
      omega
    have hpow : 10 ^ digits.length ≠ 0 := by positivity
    rw [digitsValue_cons, any_cons, Bool.or_eq_true, decide_eq_true_eq, hzero,
      ih fun d hd ↦ hdigits d (mem_cons_of_mem _ hd), ne_eq, ne_eq, ne_eq,
      Nat.add_eq_zero_iff, Nat.mul_eq_zero, or_iff_left hpow]
    omega

/-- **The tenth digit, the digits after it and the number before it tell the way of rounding.** -/
theorem roundsUp_iff (hdigits : ∀ c ∈ digits, c.isDigit) :
    roundsUp n digits = true ↔ 10 ^ digits.length < 2 * digitsValue digits ∨
      2 * digitsValue digits = 10 ^ digits.length ∧ n % 2 = 1 := by
  rcases digits with _ | ⟨c, digits⟩
  · simp [roundsUp, digitsValue]
  have htail : ∀ d ∈ digits, d.isDigit := fun d hd ↦ hdigits d (mem_cons_of_mem _ hd)
  obtain ⟨hlow, hhigh⟩ := digit_le (hdigits c mem_cons_self)
  have hlt := digitsValue_lt htail
  have hany := digitsValue_ne_zero_iff htail
  have hfive : '5'.toNat = '0'.toNat + 5 := by decide
  have hgreater : c > '5' ↔ '5'.toNat < c.toNat := Iff.rfl
  have hequal : c = '5' ↔ c.toNat = '5'.toNat := Char.toNat_inj.symm
  rw [digitsValue_cons, length_cons, pow_succ]
  simp only [roundsUp, Bool.or_eq_true, Bool.and_eq_true, decide_eq_true_eq, hgreater, hequal,
    hfive, hany]
  generalize 10 ^ digits.length = p at *
  rcases Nat.lt_trichotomy (c.toNat - '0'.toNat) 5 with hd | hd | hd
  · have hmul := Nat.mul_le_mul_right p (Nat.le_of_lt_succ hd)
    omega
  · rw [hd]
    omega
  · have hmul := Nat.mul_le_mul_right p hd
    omega

theorem isHalfEven_nanosOf (hfraction : ∀ c ∈ fraction, c.isDigit) :
    IsHalfEven (digitsValue (whole ++ fraction) / 10 ^ fraction.length * 10 ^ 9)
      (nanosOf whole fraction : ℕ) := by
  have hrest : ∀ c ∈ fraction.drop 9, c.isDigit := fun c hc ↦ hfraction c (mem_of_mem_drop hc)
  have hround := isHalfEven_add_div
    (n := digitsValue whole * 10 ^ 9 + fractionNanos fraction) (digitsValue_lt hrest)
  simp only [← roundsUp_iff hrest] at hround
  rw [nanosOf]
  convert hround using 1
  -- the first nine digits, and what is left over
  have hlength : fraction.length = (fraction.take 9).length + (fraction.drop 9).length := by
    rw [← length_append, take_append_drop]
  have hvalue : digitsValue (whole ++ fraction) = digitsValue whole * 10 ^ fraction.length +
      (digitsValue (fraction.take 9) * 10 ^ (fraction.drop 9).length +
        digitsValue (fraction.drop 9)) := by
    rw [digitsValue_append, ← @digitsValue_append (fraction.take 9), take_append_drop]
  have hpow : (10 : ℚ) ^ 9 =
      10 ^ (fraction.take 9).length * 10 ^ (9 - (fraction.take 9).length) := by
    rw [← pow_add, Nat.add_sub_cancel' (length_take_le 9 fraction)]
  have hleft : (digitsValue (fraction.drop 9) : ℚ) * 10 ^ (9 - (fraction.take 9).length) =
      digitsValue (fraction.drop 9) := by
    rcases Nat.lt_or_ge fraction.length 9 with hshort | hlong
    · rw [drop_eq_nil_of_le hshort.le]
      simp [digitsValue]
    · rw [length_take_of_le hlong, Nat.sub_self, pow_zero, mul_one]
  have hkept : (10 : ℚ) ^ (fraction.take 9).length ≠ 0 := by positivity
  have hrest : (10 : ℚ) ^ (fraction.drop 9).length ≠ 0 := by positivity
  rw [hvalue, fractionNanos, hlength]
  push_cast
  rw [pow_add, hpow]
  generalize (10 : ℚ) ^ (9 - (fraction.take 9).length) = y at *
  generalize (10 : ℚ) ^ (fraction.take 9).length = x at *
  generalize (10 : ℚ) ^ (fraction.drop 9).length = z at *
  field_simp
  linear_combination hleft - (digitsValue whole : ℚ) * z * hpow

theorem splitOnce_eq_some {separator : Char}
    (h : splitOnce separator text = some (whole, fraction)) : text = whole ++ separator :: fraction := by
  rw [splitOnce] at h
  split_ifs at h with hmem
  obtain ⟨rfl, rfl⟩ := Prod.mk.inj (some.inj h)
  clear h
  induction text with
  | nil => cases hmem
  | cons c text ih =>
    by_cases hc : c = separator
    · simp [hc]
    · simpa [hc] using ih ((mem_cons.1 hmem).resolve_left (Ne.symm hc))

theorem splitOnce_point (hwhole : ∀ c ∈ whole, c.isDigit) :
    splitOnce '.' (whole ++ '.' :: fraction) = some (whole, fraction) := by
  have hne : ∀ c ∈ whole, decide (c ≠ '.') = true := by
    intro c hc
    refine decide_eq_true fun h ↦ ?_
    exact absurd (h ▸ hwhole c hc) (by decide)
  rw [splitOnce, if_pos (by simp), takeWhile_append_of_pos hne, dropWhile_append_of_pos hne]
  simp

theorem decimalParts_eq_some_iff :
    decimalParts text = some (whole, fraction) ↔ IsDecimal text false whole fraction := by
  constructor
  · intro h
    rw [decimalParts] at h
    simp only [ite_none_left_eq_some, not_or, not_not, List.all_eq_true] at h
    obtain ⟨⟨hnonempty, hwhole, hfraction⟩, hparts⟩ := h
    rw [some.inj hparts] at hnonempty hwhole hfraction
    refine ⟨hnonempty, hwhole, hfraction, ?_⟩
    have hparts := some.inj hparts
    rcases hsplit : splitOnce '.' text with _ | parts
    · rw [hsplit] at hparts
      obtain ⟨rfl, rfl⟩ := Prod.mk.inj hparts
      exact .inr ⟨rfl, rfl⟩
    obtain rfl : parts = (whole, fraction) := by rw [← hparts, hsplit, getD_some]
    exact .inl (splitOnce_eq_some hsplit)
  · rintro ⟨hnonempty, hwhole, hfraction, htext⟩
    have hsplit : (splitOnce '.' text).getD (text, []) = (whole, fraction) := by
      rcases htext with rfl | ⟨rfl, rfl⟩
      · show (splitOnce '.' (whole ++ '.' :: fraction)).getD _ = _
        rw [splitOnce_point hwhole]
        rfl
      · show (splitOnce '.' text).getD (text, []) = (text, [])
        rw [splitOnce, if_neg fun hpoint ↦ absurd (hwhole _ hpoint) (by decide)]
        rfl
    simp only [decimalParts, hsplit]
    rw [if_neg]
    simpa [hnonempty] using ⟨hwhole, hfraction⟩

/-! ### Signs -/

theorem isDecimal_iff : IsDecimal text negative whole fraction ↔
    (signOf text).1 = negative ∧ IsDecimal (signOf text).2 false whole fraction := by
  cases hsign : stripPrefix? ['-'] text with
  | some digits =>
    obtain rfl := stripPrefix?_eq_some hsign
    rw [signOf, hsign]
    cases negative with
    | true =>
      refine ⟨fun h ↦ ⟨rfl, h.nonempty, h.digits, h.places, ?_⟩,
        fun h ↦ ⟨h.2.nonempty, h.2.digits, h.2.places, ?_⟩⟩
      · simpa using h.written
      · simpa using h.2.written
    | false =>
      refine ⟨fun h ↦ ?_, fun h ↦ nomatch h.1⟩
      -- a decimal without a sign begins with a digit
      obtain ⟨c, tail, rfl⟩ := exists_cons_of_ne_nil h.nonempty
      have hc : c = '-' := by
        rcases h.written with htext | ⟨-, htext⟩ <;> exact (List.cons.inj htext).1.symm
      exact absurd (h.digits c mem_cons_self) (by rw [hc]; decide)
  | none =>
    rw [signOf, hsign]
    rcases negative with _ | _
    · exact ⟨fun h ↦ ⟨rfl, h⟩, fun h ↦ h.2⟩
    refine ⟨fun h ↦ ?_, fun h ↦ nomatch h.1⟩
    obtain ⟨rest, htext⟩ : ∃ rest, text = ['-'] ++ rest := by
      rcases h.written with htext | ⟨-, htext⟩
      · exact ⟨whole ++ '.' :: fraction, htext.trans (append_assoc _ _ _)⟩
      · exact ⟨whole, htext⟩
    rw [htext, stripPrefix?_append] at hsign
    cases hsign

theorem isHalfEven_iff (hfraction : ∀ c ∈ fraction, c.isDigit) :
    IsHalfEven (decimalValue negative whole fraction * 10 ^ 9) a ↔
      a = if negative then -(nanosOf whole fraction : ℤ) else nanosOf whole fraction := by
  have hround : IsHalfEven (decimalValue negative whole fraction * 10 ^ 9)
      (if negative then -(nanosOf whole fraction : ℤ) else nanosOf whole fraction) := by
    have hnanos := @isHalfEven_nanosOf whole _ hfraction
    rcases negative with _ | _
    · rw [if_neg Bool.false_ne_true]
      convert hnanos using 1
      simp [decimalValue]
    rw [if_pos rfl]
    convert hnanos.neg using 1
    simp [decimalValue]
  exact ⟨fun ha ↦ ha.unique hround, fun ha ↦ ha ▸ hround⟩

theorem isNanousd_iff : IsNanousd text a ↔ ∃ p ∈ decimalParts (signOf text).2,
    a = if (signOf text).1 then -(nanosOf p.1 p.2 : ℤ) else nanosOf p.1 p.2 := by
  constructor
  · rintro ⟨negative, whole, fraction, hdecimal, ha⟩
    obtain ⟨rfl, hparts⟩ := isDecimal_iff.1 hdecimal
    exact ⟨(whole, fraction), decimalParts_eq_some_iff.2 hparts,
      (isHalfEven_iff hparts.places).1 ha⟩
  · rintro ⟨⟨whole, fraction⟩, hparts, ha⟩
    have hdecimal := decimalParts_eq_some_iff.1 hparts
    exact ⟨_, whole, fraction, isDecimal_iff.2 ⟨rfl, hdecimal⟩,
      (isHalfEven_iff hdecimal.places).2 ha⟩

theorem decimalNanousd_eq_some_iff : decimalNanousd text = some n ↔
    (∃ whole fraction, IsDecimal text false whole fraction ∧
      IsHalfEven (decimalValue false whole fraction * 10 ^ 9) n) ∧ (n : ℤ) ≤ maxI64 := by
  rw [decimalNanousd_eq, bind_eq_some_iff]
  constructor
  · rintro ⟨⟨whole, fraction⟩, hparts, hn⟩
    obtain ⟨hfits, hn⟩ := ite_none_right_eq_some.1 hn
    obtain rfl := some.inj hn
    have hdecimal := decimalParts_eq_some_iff.1 hparts
    exact ⟨⟨whole, fraction, hdecimal, (isHalfEven_iff hdecimal.places).2 rfl⟩, hfits⟩
  · rintro ⟨⟨whole, fraction, hdecimal, hn⟩, hfits⟩
    obtain rfl : n = nanosOf whole fraction :=
      Int.ofNat_inj.1 ((isHalfEven_iff hdecimal.places).1 hn)
    exact ⟨(whole, fraction), decimalParts_eq_some_iff.2 hdecimal, if_pos hfits⟩

theorem abs_signed (negative : Bool) (n : ℕ) : |if negative then -(n : ℤ) else n| = n := by
  cases negative <;> simp

theorem signedDecimalNanousd_eq_some_iff {text : String} :
    signedDecimalNanousd text = some a ↔ IsNanousd text.toList a ∧ |a| ≤ maxI64 := by
  rw [signedDecimalNanousd_eq, bind_eq_some_iff, isNanousd_iff]
  constructor
  · rintro ⟨p, hparts, ha⟩
    obtain ⟨hfits, ha⟩ := ite_none_right_eq_some.1 ha
    obtain rfl := some.inj ha
    exact ⟨⟨p, hparts, rfl⟩, (abs_signed _ _).trans_le hfits⟩
  · rintro ⟨⟨p, hparts, rfl⟩, hfits⟩
    exact ⟨p, hparts, if_pos ((abs_signed _ _).ge.trans hfits)⟩

theorem billingNanousd_eq_some_iff {text : String} :
    billingNanousd text = some a ↔ IsNanousd (trim text.toList) a ∧ FitsI64 a := by
  rw [billingNanousd_eq, bind_eq_some_iff, isNanousd_iff]
  constructor
  · rintro ⟨p, hparts, ha⟩
    obtain ⟨hfits, ha⟩ := ite_none_right_eq_some.1 ha
    obtain rfl := some.inj ha
    exact ⟨⟨p, hparts, rfl⟩, hfits⟩
  · rintro ⟨⟨p, hparts, rfl⟩, hfits⟩
    exact ⟨p, hparts, if_pos hfits⟩

theorem billingNanousd_eq_signed {text : String} (htrim : trim text.toList = text.toList)
    (hleast : billingNanousd text ≠ some minI64) :
    billingNanousd text = signedDecimalNanousd text := by
  refine ext fun a ↦ ?_
  rw [billingNanousd_eq_some_iff, signedDecimalNanousd_eq_some_iff, htrim]
  refine and_congr_right fun ha ↦ ?_
  have hmin : minI64 = -maxI64 - 1 := rfl
  rw [abs_le]
  refine ⟨fun hfits ↦ ⟨?_, hfits.2⟩, fun hfits ↦ ⟨by omega, hfits.2⟩⟩
  have hne : a ≠ minI64 := fun h ↦
    hleast (billingNanousd_eq_some_iff.2 ⟨by rwa [htrim, ← h], h ▸ hfits⟩)
  have hle := hfits.1
  omega

theorem saturateI64_eq (hlow : minI64 < a) : saturateI64 a = min a maxI64 :=
  max_eq_right (le_min hlow.le (by decide))

theorem saturateI64_ne (hlow : minI64 < a) : saturateI64 a ≠ minI64 := by
  have hrange : minI64 < maxI64 := by decide
  rw [saturateI64_eq hlow]
  omega

/-- A difference is compared as it is, but for one that is too large for the type, which counts as
the largest number. -/
theorem classifyReconciliation_mismatch_iff {tolerance dayEnd horizonDays now : ℤ}
    (htolerance : 0 ≤ tolerance) (hlow : minI64 < b - a)
    (hhigh : b - a ≤ maxI64 ∨ tolerance < maxI64) :
    (classifyReconciliation (some a) (some b) tolerance dayEnd horizonDays now).1 = .mismatch ↔
      tolerance < |b - a| := by
  have hpositive : 0 < maxI64 := by decide
  have habs : absI64 (min (b - a) maxI64) = (min (b - a) maxI64).natAbs :=
    if_neg (saturateI64_eq hlow ▸ saturateI64_ne hlow)
  simp only [classifyReconciliation, saturateI64_eq hlow, habs, Int.abs_eq_natAbs]
  split_ifs with hzero hwithin
  · refine ⟨nofun, fun hlt ↦ ?_⟩
    omega
  · refine ⟨nofun, fun hlt ↦ ?_⟩
    omega
  · refine ⟨fun _ ↦ ?_, fun _ ↦ rfl⟩
    omega

end

/-- **Decimal texts and differences.** -/
theorem decimals_read :
    (∀ text n, decimalNanousd text = some n ↔
      (∃ whole fraction, IsDecimal text false whole fraction ∧
        IsHalfEven (decimalValue false whole fraction * 10 ^ 9) n) ∧ (n : ℤ) ≤ maxI64) ∧
    (∀ text a, signedDecimalNanousd text = some a ↔ IsNanousd text.toList a ∧ |a| ≤ maxI64) ∧
    (∀ text a, billingNanousd text = some a ↔ IsNanousd (trim text.toList) a ∧ FitsI64 a) ∧
    (∀ text, trim text.toList = text.toList → billingNanousd text ≠ some minI64 →
      billingNanousd text = signedDecimalNanousd text) ∧
    ∀ a b tolerance dayEnd horizonDays now, 0 ≤ tolerance → minI64 < b - a →
      saturateI64 (b - a) ≠ minI64 ∧ (b - a ≤ maxI64 ∨ tolerance < maxI64 →
        ((classifyReconciliation (some a) (some b) tolerance dayEnd horizonDays now).1 = .mismatch ↔
          tolerance < |b - a|)) :=
  ⟨fun _ _ ↦ decimalNanousd_eq_some_iff, fun _ _ ↦ signedDecimalNanousd_eq_some_iff,
    fun _ _ ↦ billingNanousd_eq_some_iff, fun _ ↦ billingNanousd_eq_signed,
    fun _ _ _ _ _ _ htolerance hlow ↦
      ⟨saturateI64_ne hlow, classifyReconciliation_mismatch_iff htolerance hlow⟩⟩

/-- Only one of the parsers takes white space off. -/
theorem decimals_disagree : signedDecimalNanousd " 1" ≠ billingNanousd " 1" := by
  decide

end FamiliarAi
