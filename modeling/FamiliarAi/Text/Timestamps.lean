import Mathlib.Algebra.BigOperators.Intervals
import Mathlib.Algebra.Order.BigOperators.Group.Finset
import Mathlib.Data.Prod.Lex
import Mathlib.Data.String.Basic
import Mathlib.Tactic.Linarith

/-!
# Timestamps and the order of their texts

A timestamp of RFC 3339 is a date and a time of day of some offset from UTC. Its text begins with
the year and ends with the offset, and every number but the fraction of the second has a fixed
width. Texts are compared character by character, so that the offset comes last, however much it
moves the instant.

We show that **texts that are written in one form are in the order of their instants**: with one
separator, one offset, and fractions that either have as many digits or are followed by a sign.
-/

namespace Text

open List

/-! ### Numbers of a fixed width -/

def padded : ℕ → ℕ → List Char
  | 0, _ => []
  | width + 1, n => padded width (n / 10) ++ [Nat.digitChar (n % 10)]

theorem length_padded (width n : ℕ) : (padded width n).length = width := by
  induction width generalizing n with
  | zero => rfl
  | succ width ih => rw [padded, length_append, ih, length_singleton]

theorem digitChar_lt_digitChar {d e : ℕ} (he : e < 10) (h : d < e) :
    Nat.digitChar d < Nat.digitChar e := by
  have hall : ∀ e < 10, ∀ d < e, Nat.digitChar d < Nat.digitChar e := by decide
  exact hall e he d h

theorem append_lt_append {a b x y : List Char} (hlength : a.length = b.length)
    (h : a < b ∨ a = b ∧ x < y) : a ++ x < b ++ y := by
  induction a generalizing b with
  | nil =>
    obtain rfl := length_eq_zero_iff.1 hlength.symm
    rcases h with h | ⟨-, h⟩
    · cases h
    · exact h
  | cons c a ih =>
    obtain ⟨d, b, rfl⟩ := exists_cons_of_length_eq_add_one hlength.symm
    rw [cons_append, cons_append, cons_lt_cons_iff]
    have htails : a.length = b.length := Nat.succ.inj hlength
    rcases h with h | ⟨h, hrest⟩
    · rcases cons_lt_cons_iff.1 h with hhead | ⟨rfl, htail⟩
      · exact .inl hhead
      · exact .inr ⟨rfl, ih htails (.inl htail)⟩
    · obtain ⟨rfl, rfl⟩ := cons.inj h
      exact .inr ⟨rfl, ih htails (.inr ⟨rfl, hrest⟩)⟩

theorem padded_lt_padded {width n m : ℕ} (hm : m < 10 ^ width) (h : n < m) :
    padded width n < padded width m := by
  induction width generalizing n m with
  | zero => omega
  | succ width ih =>
    have hlength : (padded width (n / 10)).length = (padded width (m / 10)).length := by
      rw [length_padded, length_padded]
    have hdiv : m / 10 < 10 ^ width := by
      rw [pow_succ] at hm
      omega
    rw [padded, padded]
    refine append_lt_append hlength ?_
    rcases Nat.lt_or_ge (n / 10) (m / 10) with hlt | hge
    · exact .inl (ih hdiv hlt)
    · have hsame : n / 10 = m / 10 := by omega
      refine .inr ⟨by rw [hsame], cons_lt_cons_iff.2 (.inl ?_)⟩
      exact digitChar_lt_digitChar (Nat.mod_lt _ (by decide)) (by omega)

def fixedFields : List (ℕ × List Char) → List ℕ → List Char
  | (width, after) :: layout, n :: ns => padded width n ++ (after ++ fixedFields layout ns)
  | _, _ => []

/-- The numbers are as many as the layout says, and not too wide. -/
def Fits (layout : List (ℕ × List Char)) (ns : List ℕ) : Prop :=
  List.Forall₂ (fun field n ↦ n < 10 ^ field.1) layout ns

theorem length_fixedFields {layout : List (ℕ × List Char)} {ns ms : List ℕ}
    (hns : Fits layout ns) (hms : Fits layout ms) :
    (fixedFields layout ns).length = (fixedFields layout ms).length := by
  induction hns generalizing ms with
  | nil =>
    cases hms
    rfl
  | cons _ _ ih =>
    cases hms with
    | cons _ hms =>
      simp only [fixedFields, length_append, length_padded, ih hms]

theorem fixedFields_lt {layout : List (ℕ × List Char)} {ns ms : List ℕ}
    (hns : Fits layout ns) (hms : Fits layout ms) (h : ns < ms) :
    fixedFields layout ns < fixedFields layout ms := by
  induction hns generalizing ms with
  | nil =>
    cases hms
    cases h
  | cons hn hns ih =>
    cases hms with
    | cons hm hms =>
      rw [fixedFields, fixedFields]
      refine append_lt_append (by rw [length_padded, length_padded]) ?_
      rcases cons_lt_cons_iff.1 h with hhead | ⟨rfl, htail⟩
      · exact .inl (padded_lt_padded hm hhead)
      · exact .inr ⟨rfl, append_lt_append rfl (.inr ⟨rfl, ih hms htail⟩)⟩

def isLeapYear (year : ℕ) : Bool :=
  year % 4 = 0 ∧ (year % 100 ≠ 0 ∨ year % 400 = 0)

def daysInMonth (year : ℕ) : ℕ → ℕ
  | 2 => if isLeapYear year then 29 else 28
  | 4 | 6 | 9 | 11 => 30
  | _ => 31

theorem daysInMonth_le (year month : ℕ) : daysInMonth year month ≤ 31 := by
  unfold daysInMonth
  split
  · split <;> omega
  all_goals omega

def daysBeforeMonth (year month : ℕ) : ℕ :=
  ∑ m ∈ Finset.Ico 1 month, daysInMonth year m

def daysBeforeYear (year : ℕ) : ℕ :=
  ∑ y ∈ Finset.range year, daysBeforeMonth y 13

def dayNumber (year month day : ℕ) : ℕ :=
  daysBeforeYear year + (daysBeforeMonth year month + day)

theorem daysBeforeMonth_add_le {year m m' : ℕ} (hm : 1 ≤ m) (h : m < m') :
    daysBeforeMonth year m + daysInMonth year m ≤ daysBeforeMonth year m' := by
  rw [daysBeforeMonth, ← Finset.sum_Ico_succ_top hm]
  exact Finset.sum_le_sum_of_subset (Finset.Ico_subset_Ico_right h)

theorem daysBeforeYear_add_le {y y' : ℕ} (h : y < y') :
    daysBeforeYear y + daysBeforeMonth y 13 ≤ daysBeforeYear y' := by
  rw [daysBeforeYear, ← Finset.sum_range_succ]
  exact Finset.sum_le_sum_of_subset (Finset.range_subset_range.2 h)

def IsDate (year month day : ℕ) : Prop :=
  (1 ≤ month ∧ month ≤ 12) ∧ 1 ≤ day ∧ day ≤ daysInMonth year month

instance (year month day : ℕ) : Decidable (IsDate year month day) :=
  inferInstanceAs (Decidable (_ ∧ _))

theorem dayNumber_lt {y m d y' m' d' : ℕ} (hdate : IsDate y m d) (hdate' : IsDate y' m' d')
    (h : y < y' ∨ y = y' ∧ (m < m' ∨ m = m' ∧ d < d')) :
    dayNumber y m d < dayNumber y' m' d' := by
  obtain ⟨hm, -, hd⟩ := hdate
  obtain ⟨-, hd', -⟩ := hdate'
  unfold dayNumber
  rcases h with hyear | ⟨rfl, hmonth | ⟨rfl, hday⟩⟩
  · have hyears := daysBeforeYear_add_le hyear
    have hmonths : daysBeforeMonth y m + daysInMonth y m ≤ daysBeforeMonth y 13 :=
      daysBeforeMonth_add_le hm.1 (by omega)
    omega
  · have hmonths : daysBeforeMonth y m + daysInMonth y m ≤ daysBeforeMonth y m' :=
      daysBeforeMonth_add_le hm.1 hmonth
    omega
  · omega

/-- An offset from UTC: `Z`, or hours and minutes ahead of it or behind it. -/
inductive Offset
  | zulu (capital : Bool)
  | numeric (behind : Bool) (hours : Fin 24) (minutes : Fin 60)

def Offset.Signed : Offset → Prop
  | zulu _ => False
  | numeric .. => True

def Offset.text : Offset → List Char
  | zulu capital => [if capital then 'Z' else 'z']
  | numeric behind hours minutes =>
    (if behind then '-' else '+') :: (padded 2 hours ++ ':' :: padded 2 minutes)

theorem Offset.Signed.text_eq {offset : Offset} (h : offset.Signed) :
    ∃ sign rest, offset.text = sign :: rest ∧ sign < '.' := by
  cases offset with
  | zulu capital => exact h.elim
  | numeric behind hours minutes => exact ⟨_, _, rfl, by cases behind <;> decide⟩

/-- How many minutes the time of day is ahead of UTC. -/
def Offset.minutesAhead : Offset → ℤ
  | zulu _ => 0
  | numeric behind hours minutes =>
    (if behind then -1 else 1) * (60 * (hours : ℤ) + (minutes : ℤ))

/-- A timestamp of RFC 3339. A minute may have a leap second. -/
structure Timestamp where
  year : ℕ
  month : ℕ
  day : ℕ
  hour : ℕ
  minute : ℕ
  second : ℕ
  /-- The digits behind the point. There is no point without them. -/
  fraction : List (Fin 10)
  separator : Char
  offset : Offset
  year_lt : year < 10000
  isDate : IsDate year month day
  hour_lt : hour < 24
  minute_lt : minute < 60
  second_le : second ≤ 60
  separator_eq : separator = 'T' ∨ separator = 't' ∨ separator = ' '

def fractionValue : List (Fin 10) → ℚ
  | [] => 0
  | d :: digits => ((d : ℕ) + fractionValue digits) / 10

def digitsText (digits : List (Fin 10)) : List Char :=
  digits.map fun d ↦ Nat.digitChar d

def fractionText : List (Fin 10) → List Char
  | [] => []
  | digits => '.' :: digitsText digits

namespace Timestamp

/-- The numbers of the text that have a fixed width. -/
def fields (t : Timestamp) : List ℕ :=
  [t.year, t.month, t.day, t.hour, t.minute, t.second]

def layout (separator : Char) : List (ℕ × List Char) :=
  [(4, ['-']), (2, ['-']), (2, [separator]), (2, [':']), (2, [':']), (2, [])]

def text (t : Timestamp) : String :=
  String.ofList (fixedFields (layout t.separator) t.fields ++
    (fractionText t.fraction ++ t.offset.text))

/-- The minutes since the beginning of the year 0, by the clock of the offset. -/
def localMinute (t : Timestamp) : ℕ :=
  (dayNumber t.year t.month t.day * 24 + t.hour) * 60 + t.minute

/-- The instant that is meant: the minute of UTC, and the seconds from its beginning on. A leap
second is later than the seconds of its minute, and before the next one. -/
def instant (t : Timestamp) : ℤ ×ₗ ℚ :=
  toLex ((t.localMinute : ℤ) - t.offset.minutesAhead, t.second + fractionValue t.fraction)

end Timestamp

/-! ### The order of the texts -/

theorem fractionValue_nonneg (digits : List (Fin 10)) : 0 ≤ fractionValue digits := by
  induction digits with
  | nil => exact le_rfl
  | cons d digits ih =>
    have hd : (0 : ℚ) ≤ (d : ℕ) := Nat.cast_nonneg _
    rw [fractionValue]
    linarith

theorem fractionValue_lt_one (digits : List (Fin 10)) : fractionValue digits < 1 := by
  induction digits with
  | nil => exact one_pos
  | cons d digits ih =>
    have hd : ((d : ℕ) : ℚ) ≤ 9 := by
      exact_mod_cast Nat.le_of_lt_succ d.isLt
    rw [fractionValue]
    linarith

/-- A whole number with a fraction is decided by the whole numbers first. -/
theorem lt_of_add_lt_add {a b : ℕ} {x y : ℚ} (hx : 0 ≤ x) (hy : y < 1)
    (h : (a : ℚ) + x < b + y) : a < b ∨ a = b ∧ x < y := by
  rcases Nat.lt_trichotomy a b with hlt | rfl | hgt
  · exact .inl hlt
  · exact .inr ⟨rfl, lt_of_add_lt_add_left h⟩
  · have hcast : (b : ℚ) + 1 ≤ a := by exact_mod_cast hgt
    linarith

theorem eq_of_add_eq_add {a b : ℕ} {x y : ℚ} (hx : 0 ≤ x) (hx' : x < 1) (hy : 0 ≤ y) (hy' : y < 1)
    (h : (a : ℚ) + x = b + y) : a = b ∧ x = y := by
  rcases Nat.lt_trichotomy a b with hlt | rfl | hgt
  · have hcast : (a : ℚ) + 1 ≤ b := by exact_mod_cast hlt
    linarith
  · exact ⟨rfl, add_left_cancel h⟩
  · have hcast : (b : ℚ) + 1 ≤ a := by exact_mod_cast hgt
    linarith

theorem fractionValue_cons_lt {d e : Fin 10} {ds es : List (Fin 10)}
    (h : fractionValue (d :: ds) < fractionValue (e :: es)) :
    (d : ℕ) < e ∨ d = e ∧ fractionValue ds < fractionValue es := by
  have hsum : ((d : ℕ) : ℚ) + fractionValue ds < (e : ℕ) + fractionValue es := by
    rw [fractionValue, fractionValue] at h
    linarith
  exact (lt_of_add_lt_add (fractionValue_nonneg ds) (fractionValue_lt_one es) hsum).imp_right
    fun h ↦ ⟨Fin.ext h.1, h.2⟩

theorem digitsText_lt {ds es : List (Fin 10)} {after : List Char}
    (hform : ds.length = es.length ∨ ∃ sign rest, after = sign :: rest ∧ sign < '.')
    (h : fractionValue ds < fractionValue es) :
    digitsText ds ++ after < digitsText es ++ after := by
  induction ds generalizing es with
  | nil =>
    rcases es with _ | ⟨e, es⟩
    · exact absurd h (lt_irrefl _)
    rcases hform with hlength | ⟨sign, rest, rfl, hsign⟩
    · cases hlength
    · have hdigit : ∀ e : Fin 10, '.' < Nat.digitChar e := by decide
      exact cons_lt_cons_iff.2 (.inl (lt_trans hsign (hdigit e)))
  | cons d ds ih =>
    rcases es with _ | ⟨e, es⟩
    · exact absurd h (not_lt_of_ge (fractionValue_nonneg _))
    refine cons_lt_cons_iff.2 ?_
    rcases fractionValue_cons_lt h with hlt | ⟨rfl, hlt⟩
    · exact .inl (digitChar_lt_digitChar e.isLt hlt)
    · exact .inr ⟨rfl, ih (hform.imp_left Nat.succ.inj) hlt⟩

theorem fractionText_lt {ds es : List (Fin 10)} {after : List Char}
    (hform : ds.length = es.length ∨ ∃ sign rest, after = sign :: rest ∧ sign < '.')
    (h : fractionValue ds < fractionValue es) :
    fractionText ds ++ after < fractionText es ++ after := by
  have hlt := digitsText_lt hform h
  rcases es with _ | ⟨e, es⟩
  · exact absurd h (not_lt_of_ge (fractionValue_nonneg _))
  cases ds with
  | nil =>
    rcases hform with hlength | ⟨sign, rest, rfl, hsign⟩
    · cases hlength
    · exact cons_lt_cons_iff.2 (.inl hsign)
  | cons d ds => exact cons_lt_cons_iff.2 (.inr ⟨rfl, hlt⟩)

theorem eq_of_fractionValue_eq {ds es : List (Fin 10)} (hlength : ds.length = es.length)
    (h : fractionValue ds = fractionValue es) : ds = es := by
  induction ds generalizing es with
  | nil => exact (length_eq_zero_iff.1 hlength.symm).symm
  | cons d ds ih =>
    obtain ⟨e, es, rfl⟩ := exists_cons_of_length_eq_add_one hlength.symm
    have hsum : ((d : ℕ) : ℚ) + fractionValue ds = (e : ℕ) + fractionValue es := by
      rw [fractionValue, fractionValue] at h
      linarith
    obtain ⟨hdigit, hrest⟩ := eq_of_add_eq_add (fractionValue_nonneg ds) (fractionValue_lt_one ds)
      (fractionValue_nonneg es) (fractionValue_lt_one es) hsum
    rw [Fin.ext hdigit, ih (Nat.succ.inj hlength) hrest]

namespace Timestamp

theorem fits (t : Timestamp) : Fits (layout t.separator) t.fields := by
  have hday := t.isDate.2.2.trans (daysInMonth_le t.year t.month)
  have hmonth := t.isDate.1.2
  have hhour := t.hour_lt
  have hminute := t.minute_lt
  have hsecond := t.second_le
  have hyear := t.year_lt
  refine .cons ?_ (.cons ?_ (.cons ?_ (.cons ?_ (.cons ?_ (.cons ?_ .nil))))) <;> norm_num <;> omega

theorem clock_lt {t t' : Timestamp} (h : t.fields < t'.fields) :
    t.localMinute < t'.localMinute ∨ t.localMinute = t'.localMinute ∧ t.second < t'.second := by
  have hhour := t.hour_lt
  have hminute := t.minute_lt
  simp only [fields, cons_lt_cons_iff, lt_irrefl, and_false, or_false] at h
  unfold localMinute
  have hdate : (t.year < t'.year ∨ t.year = t'.year ∧
      (t.month < t'.month ∨ t.month = t'.month ∧ t.day < t'.day)) →
      dayNumber t.year t.month t.day < dayNumber t'.year t'.month t'.day :=
    dayNumber_lt t.isDate t'.isDate
  by_cases hsame : t.year = t'.year ∧ t.month = t'.month ∧ t.day = t'.day
  · obtain ⟨hyear, hmonth, hday⟩ := hsame
    rw [hyear, hmonth, hday] at h ⊢
    omega
  · have hbefore := hdate (by omega)
    omega

theorem clock_eq {t t' : Timestamp} (h : t.fields = t'.fields) :
    t.localMinute = t'.localMinute ∧ t.second = t'.second := by
  simp only [fields, cons.injEq, and_true] at h
  obtain ⟨hyear, hmonth, hday, hhour, hminute, hsecond⟩ := h
  rw [localMinute, localMinute, hyear, hmonth, hday, hhour, hminute]
  exact ⟨rfl, hsecond⟩

theorem parts_lt {t t' : Timestamp} (hoffset : t.offset = t'.offset)
    (hlt : t.instant < t'.instant) :
    t.fields < t'.fields ∨
      t.fields = t'.fields ∧ fractionValue t.fraction < fractionValue t'.fraction := by
  have hclock : t.localMinute < t'.localMinute ∨ t.localMinute = t'.localMinute ∧
      (t.second < t'.second ∨
        t.second = t'.second ∧ fractionValue t.fraction < fractionValue t'.fraction) := by
    rcases Prod.Lex.toLex_lt_toLex.1 hlt with hminute | ⟨hminute, hseconds⟩
    · rw [hoffset] at hminute
      exact .inl (by omega)
    · rw [hoffset] at hminute
      refine .inr ⟨by omega, ?_⟩
      exact lt_of_add_lt_add (fractionValue_nonneg _) (fractionValue_lt_one _) hseconds
  rcases lt_trichotomy t.fields t'.fields with hfields | hfields | hfields
  · exact .inl hfields
  · obtain ⟨hminute, hsecond⟩ := clock_eq hfields
    refine .inr ⟨hfields, ?_⟩
    rcases hclock with hlt | ⟨-, hlt | ⟨-, hfraction⟩⟩
    · omega
    · omega
    · exact hfraction
  · have hlater := clock_lt hfields
    omega

/-- Two timestamps that are written in one form: their fractions have as many digits, or else a sign
follows them, and one instant is written with the same digits. -/
def SameForm (t t' : Timestamp) : Prop :=
  t.separator = t'.separator ∧ t.offset = t'.offset ∧
    (t.fraction.length = t'.fraction.length ∨
      t.offset.Signed ∧ (t.instant = t'.instant → t.fraction = t'.fraction))

theorem SameForm.symm {t t' : Timestamp} (h : t.SameForm t') : t'.SameForm t := by
  obtain ⟨hseparator, hoffset, hfraction⟩ := h
  refine ⟨hseparator.symm, hoffset.symm, hfraction.imp Eq.symm fun ⟨hsigned, hsame⟩ ↦ ?_⟩
  exact ⟨hoffset ▸ hsigned, fun hinstant ↦ (hsame hinstant.symm).symm⟩

theorem SameForm.text_lt {t t' : Timestamp} (h : t.SameForm t') (hlt : t.instant < t'.instant) :
    t.text < t'.text := by
  obtain ⟨hseparator, hoffset, hfraction⟩ := h
  have hform : t.fraction.length = t'.fraction.length ∨
      ∃ sign rest, t'.offset.text = sign :: rest ∧ sign < '.' :=
    hfraction.imp id fun hsigned ↦ hoffset ▸ hsigned.1.text_eq
  have hfits := t.fits
  rw [hseparator] at hfits
  rw [String.lt_iff_toList_lt, text, text, String.toList_ofList, String.toList_ofList, hseparator,
    hoffset]
  refine append_lt_append (length_fixedFields hfits t'.fits) ?_
  rcases parts_lt hoffset hlt with hfields | ⟨hfields, hvalue⟩
  · exact .inl (fixedFields_lt hfits t'.fits hfields)
  · exact .inr ⟨by rw [hfields], fractionText_lt hform hvalue⟩

theorem SameForm.text_eq {t t' : Timestamp} (h : t.SameForm t') (heq : t.instant = t'.instant) :
    t.text = t'.text := by
  obtain ⟨hseparator, hoffset, hfraction⟩ := h
  obtain ⟨hminute, hseconds⟩ := Prod.mk.inj (toLex_inj.1 heq)
  rw [hoffset] at hminute
  obtain ⟨hsecond, hvalue⟩ := eq_of_add_eq_add (fractionValue_nonneg _) (fractionValue_lt_one _)
    (fractionValue_nonneg _) (fractionValue_lt_one _) hseconds
  have hdigits : t.fraction = t'.fraction := by
    rcases hfraction with hlength | ⟨-, hsame⟩
    · exact eq_of_fractionValue_eq hlength hvalue
    · exact hsame heq
  have hfields : t.fields = t'.fields := by
    rcases lt_trichotomy t.fields t'.fields with hlt | hfields | hlt
    · have hclock := clock_lt hlt
      omega
    · exact hfields
    · have hclock := clock_lt hlt
      omega
  rw [text, text, hfields, hseparator, hdigits, hoffset]

/-- **Texts of one form are in the order of their instants.** -/
theorem SameForm.text_le_iff {t t' : Timestamp} (h : t.SameForm t') :
    t.text ≤ t'.text ↔ t.instant ≤ t'.instant := by
  rcases lt_trichotomy t.instant t'.instant with hlt | heq | hgt
  · exact iff_of_true (h.text_lt hlt).le hlt.le
  · exact iff_of_true (h.text_eq heq).le heq.le
  · exact iff_of_false (h.symm.text_lt hgt).not_ge hgt.not_ge

end Timestamp

end Text
