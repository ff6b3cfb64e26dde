import Mathlib.Data.List.Nodup
import Mathlib.Data.List.Range
import Mathlib.Data.String.Basic
import Mathlib.Tactic.Linarith

/-!
# Instants and days

Instants are counted in nanoseconds, and a day of UTC has always the same number of them. How an
instant is written and read, and where a month begins, is up to the library of dates: it is a
parameter. The store compares instants as texts. That the texts of midnights are in the order of the
days is a law of the library, for the years that it writes with four digits.
-/

namespace FamiliarAi

/-- `DateTime<Utc>`: the nanoseconds since the epoch. -/
abbrev Instant := ℤ

def hourNanos : ℤ := 3600 * 10 ^ 9

def dayNanos : ℤ := 24 * hourNanos

def dayOf (t : Instant) : ℤ :=
  t / dayNanos

def midnight (day : ℤ) : Instant :=
  day * dayNanos

/-- The library of dates. -/
structure Calendar where
  text : Instant → String
  /-- `parse_from_rfc3339`. -/
  parse : String → Except String Instant
  monthStart : Instant → Instant
  nextMonth : Instant → Instant
  firstDay : ℤ
  lastDay : ℤ
  text_lt : ∀ {d d' : ℤ}, firstDay ≤ d → d < d' → d' ≤ lastDay →
    text (midnight d) < text (midnight d')

inductive UsageBucket
  | hour
  | day
  | week
  | month

/-- `bucket_start`. Weeks begin on Monday, and the epoch is a Thursday. -/
def Calendar.bucketStart (C : Calendar) (t : Instant) : UsageBucket → Instant
  | .hour => t / hourNanos * hourNanos
  | .day => midnight (dayOf t)
  | .week => midnight (dayOf t - (dayOf t + 3) % 7)
  | .month => C.monthStart t

/-- The days that begin before `stop`, from the one of `start` on. -/
def coveredDays (start stop : Instant) : List ℤ :=
  (List.range ((stop - midnight (dayOf start) + dayNanos - 1) / dayNanos).toNat).map
    fun (i : ℕ) ↦ dayOf start + i

variable {start stop : Instant}

theorem mem_coveredDays {d : ℤ} :
    d ∈ coveredDays start stop ↔ dayOf start ≤ d ∧ midnight d < stop := by
  have hpos : (0 : ℤ) < dayNanos := by decide
  -- a day begins before `stop` if it is one of those that are counted
  have hbefore (i : ℕ) : midnight (dayOf start + i) < stop ↔
      (i : ℤ) < (stop - midnight (dayOf start) + dayNanos - 1) / dayNanos := by
    rw [Int.lt_iff_add_one_le, Int.lt_iff_add_one_le, Int.le_ediv_iff_mul_le hpos, midnight, midnight,
      add_mul, add_mul, one_mul]
    constructor
    · intro h
      linarith
    · intro h
      linarith
  rw [coveredDays, List.mem_map]
  constructor
  · rintro ⟨i, hi, rfl⟩
    refine ⟨by omega, (hbefore i).2 ?_⟩
    have hi := List.mem_range.1 hi
    omega
  · rintro ⟨hfirst, hlast⟩
    obtain ⟨i, rfl⟩ : ∃ i : ℕ, d = dayOf start + i := ⟨(d - dayOf start).toNat, by omega⟩
    refine ⟨i, List.mem_range.2 ?_, rfl⟩
    have hi := (hbefore i).1 hlast
    omega

theorem nodup_coveredDays : (coveredDays start stop).Nodup := by
  refine List.nodup_range.map fun i j hij ↦ ?_
  have hij : dayOf start + (i : ℤ) = dayOf start + j := hij
  omega

/-- A window within the years of four digits. -/
structure Window (C : Calendar) where
  start : Instant
  stop : Instant
  first_le : C.firstDay ≤ dayOf start
  le_last : stop ≤ midnight C.lastDay

namespace Calendar

variable (C : Calendar)

def InDay (d : ℤ) (text : String) : Prop :=
  C.text (midnight d) ≤ text ∧ text < C.text (midnight (d + 1))

instance (d : ℤ) : DecidablePred (C.InDay d) :=
  fun _ ↦ inferInstanceAs (Decidable (_ ∧ _))

/-- The day can be written, and so can its end. -/
def Writable (d : ℤ) : Prop :=
  C.firstDay ≤ d ∧ d < C.lastDay

variable {C} {d d' : ℤ} {text : String}

theorem writable_of_mem {w : Window C} (h : d ∈ coveredDays w.start w.stop) : C.Writable d := by
  obtain ⟨hfirst, hlast⟩ := mem_coveredDays.1 h
  refine ⟨w.first_le.trans hfirst, ?_⟩
  have hlt : midnight d < midnight C.lastDay := hlast.trans_le w.le_last
  exact lt_of_mul_lt_mul_right hlt (by decide)

/-- The end of a day is not after the beginning of a later one. -/
theorem text_le (hd : C.Writable d) (hd' : C.Writable d') (h : d < d') :
    C.text (midnight (d + 1)) ≤ C.text (midnight d') := by
  rcases (Int.add_one_le_iff.2 h).eq_or_lt with heq | hlt
  · rw [heq]
  · exact (C.text_lt (by have := hd.1; omega) hlt hd'.2.le).le

theorem InDay.unique (hd : C.Writable d) (hd' : C.Writable d') (h : C.InDay d text)
    (h' : C.InDay d' text) : d = d' := by
  rcases lt_trichotomy d d' with hlt | heq | hlt
  · exact absurd (h.2.trans_le ((text_le hd hd' hlt).trans h'.1)) (lt_irrefl _)
  · exact heq
  · exact absurd (h'.2.trans_le ((text_le hd' hd hlt).trans h.1)) (lt_irrefl _)

end Calendar

end FamiliarAi
