import FamiliarAi.Probation.Standing
import Mathlib.Algebra.Order.Field.Basic
import Mathlib.Data.Rat.Cast.Order

/-!
# What a score promises

A score compares ratios of counts with the limits of a policy. It does so in whole basis points and
in whole units of cost, rounded down, and points are cut to the width of their type. A ratio that
counts as reaching a limit reaches it; one that counts as within a limit can be above it by less
than a point, or by whole turns of the type.
-/

namespace FamiliarAi

/-! ### Ratios -/

/-- What a rate counts by: the numerator in ten-thousandths, in a `u64`. -/
def scaled (numerator : ℕ) : ℕ :=
  min (10000 * numerator) maxU64

/-- Up to whole turns of a `u32`, the ratio reaches the limit. -/
def CountsAsReaching (limit numerator denominator : ℕ) : Prop :=
  ∃ turns points, limit ≤ points ∧ points < 2 ^ 32 ∧
    (turns * 2 ^ 32 + points) * denominator ≤ scaled numerator ∧
    scaled numerator < (turns * 2 ^ 32 + points + 1) * denominator

/-- Up to whole turns of a `u32`, the ratio is less than one point above the limit. -/
def CountsAsWithin (limit numerator denominator : ℕ) : Prop :=
  ∃ turns, turns * 2 ^ 32 * denominator ≤ scaled numerator ∧
    scaled numerator < (turns * 2 ^ 32 + limit + 1) * denominator

def RatioSlips (limit numerator denominator : ℕ) : Prop :=
  limit * denominator < 10000 * numerator ∧ CountsAsWithin limit numerator denominator

variable {limit numerator denominator : ℕ}

theorem rate_eq (h : denominator ≠ 0) :
    rate numerator denominator = some (scaled numerator / denominator % 2 ^ 32) := by
  rw [rate, if_pos h, saturatingMul, scaled, Nat.mul_comm numerator]

theorem rate_zero : rate numerator 0 = none :=
  rfl

theorem any_le_rate_iff :
    (rate numerator denominator).any (fun v ↦ decide (limit ≤ v)) = true ↔
      CountsAsReaching limit numerator denominator := by
  rcases Nat.eq_zero_or_pos denominator with rfl | hpos
  · refine iff_of_false (by simp [rate_zero]) ?_
    rintro ⟨turns, points, -, -, -, hlt⟩
    exact Nat.not_lt_zero _ (Nat.mul_zero _ ▸ hlt)
  rw [rate_eq hpos.ne', Option.any_some, decide_eq_true_iff]
  constructor
  · intro hle
    have hdiv := Nat.div_add_mod' (scaled numerator / denominator) (2 ^ 32)
    refine ⟨scaled numerator / denominator / 2 ^ 32, _, hle, Nat.mod_lt _ (by decide), ?_, ?_⟩
    · rw [hdiv]
      exact Nat.div_mul_le_self _ _
    · rw [hdiv]
      exact Nat.lt_mul_of_div_lt (Nat.lt_succ_self _) hpos
  · rintro ⟨turns, points, hle, hpoints, hlow, hhigh⟩
    have hquotient : scaled numerator / denominator = turns * 2 ^ 32 + points :=
      Nat.div_eq_of_lt_le hlow hhigh
    rw [hquotient]
    omega

theorem any_rate_le_iff :
    (rate numerator denominator).any (fun v ↦ decide (v ≤ limit)) = true ↔
      CountsAsWithin limit numerator denominator := by
  rcases Nat.eq_zero_or_pos denominator with rfl | hpos
  · refine iff_of_false (by simp [rate_zero]) ?_
    rintro ⟨turns, -, hlt⟩
    exact Nat.not_lt_zero _ (Nat.mul_zero _ ▸ hlt)
  rw [rate_eq hpos.ne', Option.any_some, decide_eq_true_iff]
  constructor
  · intro hle
    have hdiv := Nat.div_add_mod' (scaled numerator / denominator) (2 ^ 32)
    refine ⟨scaled numerator / denominator / 2 ^ 32,
      (Nat.le_div_iff_mul_le hpos).1 (Nat.div_mul_le_self _ _), ?_⟩
    refine Nat.lt_mul_of_div_lt ?_ hpos
    omega
  · rintro ⟨turns, hlow, hhigh⟩
    have hlow' := (Nat.le_div_iff_mul_le hpos).2 hlow
    have hhigh' := (Nat.div_lt_iff_lt_mul hpos).2 hhigh
    omega

theorem CountsAsReaching.exact (h : CountsAsReaching limit numerator denominator) :
    (limit : ℚ) / 10000 ≤ numerator / denominator := by
  obtain ⟨turns, points, hle, -, hlow, hhigh⟩ := h
  have hpos : 0 < denominator := by
    rcases Nat.eq_zero_or_pos denominator with rfl | hpos
    · rw [Nat.mul_zero] at hhigh
      exact absurd hhigh (Nat.not_lt_zero _)
    · exact hpos
  have hexact : limit * denominator ≤ 10000 * numerator :=
    calc limit * denominator ≤ (turns * 2 ^ 32 + points) * denominator :=
          Nat.mul_le_mul_right _ (hle.trans (Nat.le_add_left _ _))
      _ ≤ scaled numerator := hlow
      _ ≤ 10000 * numerator := Nat.min_le_left _ _
  rw [div_le_div_iff₀ (by norm_num) (by exact_mod_cast hpos), mul_comm (numerator : ℚ)]
  exact_mod_cast hexact

theorem CountsAsWithin.denominator_pos (h : CountsAsWithin limit numerator denominator) :
    0 < denominator := by
  obtain ⟨turns, -, hhigh⟩ := h
  rcases Nat.eq_zero_or_pos denominator with rfl | hpos
  · rw [Nat.mul_zero] at hhigh
    exact absurd hhigh (Nat.not_lt_zero _)
  · exact hpos

theorem CountsAsWithin.exact_iff (h : CountsAsWithin limit numerator denominator) :
    (numerator : ℚ) / denominator ≤ limit / 10000 ↔ ¬RatioSlips limit numerator denominator := by
  have hpos := h.denominator_pos
  have hslips : ¬RatioSlips limit numerator denominator ↔
      10000 * numerator ≤ limit * denominator :=
    ⟨fun hslip ↦ Nat.le_of_not_lt fun hlt ↦ hslip ⟨hlt, h⟩,
      fun hle hslip ↦ absurd hslip.1 (Nat.not_lt.2 hle)⟩
  rw [hslips, div_le_div_iff₀ (by exact_mod_cast hpos) (by norm_num), mul_comm (numerator : ℚ)]
  exact_mod_cast Iff.rfl

def costLimit (maximum : ℕ) (unit : String) : Option ℕ :=
  if unit = "nanoUSD" then some (1000 * maximum)
  else if unit = "microUSD" then some maximum
  else none

def AveragesWithin (limit amount accepted : ℕ) : Prop :=
  amount < (limit + 1) * accepted

def AverageSlips (limit amount accepted : ℕ) : Prop :=
  limit * accepted < amount ∧ AveragesWithin limit amount accepted

theorem div_le_iff_averagesWithin {limit amount accepted : ℕ} (hpos : 0 < accepted) :
    amount / accepted ≤ limit ↔ AveragesWithin limit amount accepted := by
  rw [← Nat.lt_succ_iff, Nat.div_lt_iff_lt_mul hpos]
  exact Iff.rfl

/-- A limit that is cut to a `u64` is kept by the same averages. -/
theorem div_le_saturatingMul_iff {maximum factor amount accepted : ℕ} (h : amount ≤ maxU64) :
    amount / accepted ≤ saturatingMul maximum factor ↔ amount / accepted ≤ factor * maximum := by
  have hquotient : amount / accepted ≤ maxU64 := (Nat.div_le_self _ _).trans h
  rw [saturatingMul, Nat.mul_comm maximum, Nat.le_min]
  exact and_iff_left hquotient

theorem AveragesWithin.exact_iff {limit amount accepted : ℕ} (hpos : 0 < accepted)
    (h : AveragesWithin limit amount accepted) :
    (amount : ℚ) / accepted ≤ limit ↔ ¬AverageSlips limit amount accepted := by
  have hslips : ¬AverageSlips limit amount accepted ↔ amount ≤ limit * accepted :=
    ⟨fun hslip ↦ Nat.le_of_not_lt fun hlt ↦ hslip ⟨hlt, h⟩,
      fun hle hslip ↦ absurd hslip.1 (Nat.not_lt.2 hle)⟩
  rw [hslips, div_le_iff₀ (by exact_mod_cast hpos)]
  exact_mod_cast Iff.rfl

/-! ### Eligibility -/

/-- The exact ratios and averages of the history are within the limits of the policy. -/
structure WithinLimits (policy : ProbationPolicy) (metrics : EmpiricalMetrics) : Prop where
  accepted : policy.minimumAcceptedPrds ≤ metrics.acceptedPrds
  review : (policy.minimumReviewPassBasisPoints : ℚ) / 10000 ≤
    metrics.reviewPasses / metrics.reviewAttempts
  remediation : (metrics.remediatedPrds : ℚ) / metrics.completedPrds ≤
    policy.maximumRemediationBasisPoints / 10000
  failure : (metrics.failedPrds : ℚ) / metrics.completedPrds ≤
    policy.maximumFailureBasisPoints / 10000
  cost : ∀ maximum ∈ policy.maximumCostPerAcceptedPrdMicrousd,
    ∃ amount ∈ metrics.costAmount, ∃ unit ∈ metrics.costUnit, ∃ limit ∈ costLimit maximum unit,
      (amount : ℚ) / metrics.acceptedPrds ≤ limit

/-- The cost has an authority, and its average counts as within the limit. -/
def CostCounts (metrics : EmpiricalMetrics) (maximum : ℕ) : Prop :=
  metrics.costAuthority.isSome ∧ 0 < metrics.acceptedPrds ∧
    ∃ amount ∈ metrics.costAmount, ∃ unit ∈ metrics.costUnit, ∃ limit ∈ costLimit maximum unit,
      AveragesWithin limit amount metrics.acceptedPrds

/-- No check refuses the worker: what is known of it, its identity and the counts of its history. -/
structure ScoreAdmits (policy : ProbationPolicy) (metrics : EmpiricalMetrics)
    (trustedIdentity : Bool) : Prop where
  trusted : trustedIdentity = true
  accepted : policy.minimumAcceptedPrds ≤ metrics.acceptedPrds
  review : CountsAsReaching policy.minimumReviewPassBasisPoints metrics.reviewPasses
    metrics.reviewAttempts
  remediation : CountsAsWithin policy.maximumRemediationBasisPoints metrics.remediatedPrds
    metrics.completedPrds
  failure : CountsAsWithin policy.maximumFailureBasisPoints metrics.failedPrds metrics.completedPrds
  cost : ∀ maximum ∈ policy.maximumCostPerAcceptedPrdMicrousd, CostCounts metrics maximum

/-- No ratio and no average that is above its limit counts as one within it. -/
structure Slipless (policy : ProbationPolicy) (metrics : EmpiricalMetrics) : Prop where
  remediation : ¬RatioSlips policy.maximumRemediationBasisPoints metrics.remediatedPrds
    metrics.completedPrds
  failure : ¬RatioSlips policy.maximumFailureBasisPoints metrics.failedPrds metrics.completedPrds
  cost : ∀ maximum ∈ policy.maximumCostPerAcceptedPrdMicrousd, ∀ amount ∈ metrics.costAmount,
    ∀ unit ∈ metrics.costUnit, ∀ limit ∈ costLimit maximum unit,
      ¬AverageSlips limit amount metrics.acceptedPrds

variable {policy : ProbationPolicy} {metrics : EmpiricalMetrics} {trustedIdentity : Bool}

theorem costLimit_iff {amount accepted : ℕ} (maximum : ℕ) (unit : String) (hpos : 0 < accepted)
    (hamount : amount ≤ maxU64) :
    (if unit = "nanoUSD" then decide (amount / accepted ≤ saturatingMul maximum 1000)
      else if unit = "microUSD" then decide (amount / accepted ≤ maximum) else false) = true ↔
      ∃ limit ∈ costLimit maximum unit, AveragesWithin limit amount accepted := by
  rw [costLimit]
  split
  · rw [decide_eq_true_iff, div_le_saturatingMul_iff hamount, div_le_iff_averagesWithin hpos]
    simp
  · split
    · rw [decide_eq_true_iff, div_le_iff_averagesWithin hpos]
      simp
    · simp

theorem score_cost_iff (hamount : ∀ amount ∈ metrics.costAmount, amount ≤ maxU64)
    (maximum : ℕ) :
    (match metrics.costAmount, metrics.costUnit, metrics.costAuthority with
      | some amount, some unit, some _ =>
        if metrics.acceptedPrds ≠ 0 then some (amount / metrics.acceptedPrds, unit) else none
      | _, _, _ => none).any (fun (cost, unit) ↦
        if unit = "nanoUSD" then decide (cost ≤ saturatingMul maximum 1000)
        else if unit = "microUSD" then decide (cost ≤ maximum)
        else false) = true ↔ CostCounts metrics maximum := by
  unfold CostCounts
  rcases hcost : metrics.costAmount with _ | amount
  · simp
  rcases hunit : metrics.costUnit with _ | unit
  · simp
  rcases hauthority : metrics.costAuthority with _ | authority
  · simp
  rcases Nat.eq_zero_or_pos metrics.acceptedPrds with hzero | hpos
  · simp [hzero]
  · have hlimit := costLimit_iff maximum unit hpos (hamount amount hcost)
    dsimp only
    rw [if_pos hpos.ne', Option.any_some, hlimit]
    simp [hpos]

theorem score_eligible_iff (hamount : ∀ amount ∈ metrics.costAmount, amount ≤ maxU64) :
    (score policy metrics trustedIdentity).promotionEligible = true ↔
      ScoreAdmits policy metrics trustedIdentity := by
  unfold score
  simp only [Bool.and_eq_true, decide_eq_true_iff, any_le_rate_iff, any_rate_le_iff,
    Option.all_eq_true]
  constructor
  · rintro ⟨⟨⟨⟨⟨htrusted, haccepted⟩, hreview⟩, hremediation⟩, hfailure⟩, hcost⟩
    exact ⟨htrusted, haccepted, hreview, hremediation, hfailure,
      fun maximum h ↦ (score_cost_iff hamount maximum).1 (hcost maximum h)⟩
  · rintro ⟨htrusted, haccepted, hreview, hremediation, hfailure, hcost⟩
    exact ⟨⟨⟨⟨⟨htrusted, haccepted⟩, hreview⟩, hremediation⟩, hfailure⟩,
      fun maximum h ↦ (score_cost_iff hamount maximum).2 (hcost maximum h)⟩

theorem ScoreAdmits.withinLimits_iff (h : ScoreAdmits policy metrics trustedIdentity) :
    WithinLimits policy metrics ↔ Slipless policy metrics := by
  constructor
  · intro hwithin
    refine ⟨h.remediation.exact_iff.1 hwithin.remediation, h.failure.exact_iff.1 hwithin.failure,
      fun maximum hmaximum amount hamount unit hunit limit hlimit hslip ↦ ?_⟩
    obtain ⟨-, hpos, -⟩ := h.cost maximum hmaximum
    obtain ⟨amount', hamount', unit', hunit', limit', hlimit', hle⟩ :=
      hwithin.cost maximum hmaximum
    obtain rfl := Option.mem_unique hamount hamount'
    obtain rfl := Option.mem_unique hunit hunit'
    obtain rfl := Option.mem_unique hlimit hlimit'
    exact (hslip.2.exact_iff hpos).1 hle hslip
  · intro hslipless
    refine ⟨h.accepted, h.review.exact, h.remediation.exact_iff.2 hslipless.remediation,
      h.failure.exact_iff.2 hslipless.failure, fun maximum hmaximum ↦ ?_⟩
    obtain ⟨-, hpos, amount, hamount, unit, hunit, limit, hlimit, haverage⟩ :=
      h.cost maximum hmaximum
    exact ⟨amount, hamount, unit, hunit, limit, hlimit, (haverage.exact_iff hpos).2
      (hslipless.cost maximum hmaximum amount hamount unit hunit limit hlimit)⟩

/-- **What eligibility promises.** A worker that the score declares eligible is within the limits of
the policy exactly if none of its ratios and averages slips. -/
theorem eligible_withinLimits_iff (policy : ProbationPolicy) (metrics : EmpiricalMetrics)
    (trustedIdentity : Bool) (hamount : ∀ amount ∈ metrics.costAmount, amount ≤ maxU64) :
    ((score policy metrics trustedIdentity).promotionEligible = true →
        WithinLimits policy metrics) ↔
      ¬ScoreAdmits policy metrics trustedIdentity ∨ Slipless policy metrics := by
  rw [score_eligible_iff hamount, ← imp_iff_not_or]
  exact imp_congr_right fun h ↦ h.withinLimits_iff

namespace SampleScore

/-- No failure and no remediation is tolerated. -/
def strictPolicy : ProbationPolicy where
  policyId := "default"
  version := "1"
  minimumAcceptedPrds := 5
  minimumReviewPassBasisPoints := 9000
  maximumRemediationBasisPoints := 0
  maximumFailureBasisPoints := 0
  maximumCostPerAcceptedPrdMicrousd := some 5
  probationMaxExpectedFiles := 3
  requireIndependentReview := true

def history (failed : ℕ) : EmpiricalMetrics where
  completedPrds := 20000
  acceptedPrds := 20000 - failed
  reviewPasses := 20000 - failed
  reviewAttempts := 20000
  failedPrds := failed
  costAmount := some 80000
  costUnit := some "microUSD"
  costAuthority := some "provider"

end SampleScore

open SampleScore in
theorem eligible_withinLimits_iff_sample :
    ((score strictPolicy (history 0) true).promotionEligible = true →
        WithinLimits strictPolicy (history 0)) ↔
      ¬ScoreAdmits strictPolicy (history 0) true ∨ Slipless strictPolicy (history 0) :=
  eligible_withinLimits_iff strictPolicy (history 0) true (by decide)

open SampleScore in
/-- One failure in twenty thousand is above a limit of none, and no whole basis point. -/
theorem eligible_not_withinLimits :
    (score strictPolicy (history 1) true).promotionEligible = true ∧
      ¬WithinLimits strictPolicy (history 1) := by
  refine ⟨by decide, fun h ↦ absurd h.failure ?_⟩
  norm_num [strictPolicy, history]

end FamiliarAi
