import FamiliarAi.Review.Disclosure
import FamiliarAi.Transition.System

/-!
# The loops of the review package

Building a package has two loops, one in the other. The inner one writes the size of the prompt into
the manifest and renders again until the size is stated; the outer one evicts hunks until the
package fits. Here both are taken round by round (`settleRound`, `evictRound`).

The size of a prompt is a base with the digits of the two stated numbers
(`promptSize_requestOfSize`), so a larger stated size never makes a smaller prompt. The sizes that
the inner loop tries ascend from zero, they come to rest for every base, and for sizes that a `u64`
holds at most the digits are left to grow: the loop ends within 39 rounds. Each further round of the
outer loop takes one hunk that is not required out of the disclosed ones, so they bound its rounds.
-/

namespace FamiliarAi

open Transition

section Rounds

variable (sha256 : Sha256) (input : ReviewPackageInput)

/-- The size of the prompt that states a size: what the inner loop tries next. -/
def nextSize (disclosed : List Char) (omissions : List PackageOmission) (totalBytes : ℕ) : ℕ :=
  promptSize (requestOfSize sha256 input disclosed omissions totalBytes)

/-- A round of the inner loop. -/
def settleRound (disclosed : List Char) (omissions : List PackageOmission) (totalBytes : ℕ) :
    Round ℕ (Except PackageError ReviewRequest) :=
  match estimateTokens totalBytes with
  | .error e => .done (.error e)
  | .ok _ =>
    let actual := nextSize sha256 input disclosed omissions totalBytes
    if maxU64 < actual then .done (.error .overflow)
    else if actual = totalBytes then
      .done (.ok (requestOfSize sha256 input disclosed omissions totalBytes))
    else .next actual

/-- A round of the outer loop. -/
def evictRound (d : Disclosure) : Round Disclosure (Except PackageError ReviewRequest) :=
  let disclosed := flatten d.disclosed
  if input.captured.bytes ≠ [] ∧ disclosed = [] then .done (.error .requiredEvidenceOverBudget)
  else
    match settlePrompt sha256 input disclosed d.omissions 0
        (show 0 ≤ nextSize sha256 input disclosed d.omissions 0 from Nat.zero_le _) with
    | .error e => .done (.error e)
    | .ok request =>
      match fits input.budget (promptSize request) with
      | .error e => .done (.error e)
      | .ok true => .done (.ok request)
      | .ok false =>
        match removeLargest d.disclosed with
        | none => .done (.error .requiredEvidenceOverBudget)
        | some (hunk, rest) =>
          if hunkIsRequired input hunk.1 then .done (.error .requiredEvidenceOverBudget)
          else
            match omissionFor sha256 input hunk with
            | .error e => .done (.error e)
            | .ok omission =>
              .next { disclosed := rest, omissions := sortOmissions (d.omissions ++ [omission]) }

def spareHunks (d : Disclosure) : ℕ :=
  d.disclosed.countP fun hunk ↦ !hunkIsRequired input hunk.1

end Rounds

section Settle

variable {sha256 : Sha256} {input : ReviewPackageInput} {disclosed : List Char}
  {omissions : List PackageOmission} {totalBytes next : ℕ}

theorem nextSize_mono : Monotone (nextSize sha256 input disclosed omissions) :=
  fun _ _ h ↦ promptSize_mono sha256 input disclosed omissions h

theorem length_toDigits_le (n : ℕ) : (Nat.toDigits 10 n).length ≤ n / 10 + 1 := by
  rw [Nat.length_toDigits_le_iff (by decide) (Nat.succ_pos _)]
  calc n < 10 * (n / 10 + 1) := by omega
    _ ≤ 10 * 10 ^ (n / 10) := Nat.mul_le_mul_left 10 (Nat.lt_pow_self (by decide))
    _ = 10 ^ (n / 10 + 1) := by rw [Nat.pow_succ, Nat.mul_comm]

theorem nextSize_double_le :
    nextSize sha256 input disclosed omissions (2 * nextSize sha256 input disclosed omissions 0) ≤
      2 * nextSize sha256 input disclosed omissions 0 := by
  have hsize := promptSize_requestOfSize sha256 input disclosed omissions
    (2 * nextSize sha256 input disclosed omissions 0)
  have htotal := length_toDigits_le (2 * nextSize sha256 input disclosed omissions 0)
  have hestimated := length_toDigits_le ((2 * nextSize sha256 input disclosed omissions 0 + 3) / 4)
  rw [← nextSize, ← nextSize] at hsize
  omega

/-- As long as the sizes are those of a `u64`, at most 37 digits are added to the base. -/
theorem nextSize_le (h : totalBytes ≤ maxU64) :
    nextSize sha256 input disclosed omissions totalBytes ≤
      nextSize sha256 input disclosed omissions 0 + 37 := by
  have hsize := promptSize_requestOfSize sha256 input disclosed omissions totalBytes
  have hmax : maxU64 < 4 * 10 ^ 19 - 4 ∧ maxU64 < 10 ^ 20 := by decide
  have htotal : (Nat.toDigits 10 totalBytes).length ≤ 20 := by
    rw [Nat.length_toDigits_le_iff (by decide) (by decide)]
    omega
  have hestimated : (Nat.toDigits 10 ((totalBytes + 3) / 4)).length ≤ 19 := by
    rw [Nat.length_toDigits_le_iff (by decide) (by decide)]
    omega
  rw [← nextSize, ← nextSize] at hsize
  omega

theorem settlePrompt_of_done {outcome : Except PackageError ReviewRequest}
    (h : settleRound sha256 input disclosed omissions totalBytes = .done outcome)
    (hle : totalBytes ≤ promptSize (requestOfSize sha256 input disclosed omissions totalBytes)) :
    settlePrompt sha256 input disclosed omissions totalBytes hle = outcome := by
  rw [settlePrompt]
  rw [settleRound, nextSize] at h
  rcases hestimated : estimateTokens totalBytes with e | estimated
  · rw [hestimated] at h
    cases h
    rfl
  rw [hestimated] at h
  dsimp only at h ⊢
  split_ifs at h with hover heq
  · cases h
    rw [dif_pos hover]
  · cases h
    rw [dif_neg hover, dif_pos heq]

/-- A round that does not end the loop goes on with the size of the prompt, which is another one
that a `u64` holds. -/
theorem settlePrompt_of_next
    (h : settleRound sha256 input disclosed omissions totalBytes = .next next)
    (hle : totalBytes ≤ promptSize (requestOfSize sha256 input disclosed omissions totalBytes)) :
    next = nextSize sha256 input disclosed omissions totalBytes ∧ next ≤ maxU64 ∧
      next ≠ totalBytes ∧ ∀ hle', settlePrompt sha256 input disclosed omissions totalBytes hle =
        settlePrompt sha256 input disclosed omissions next hle' := by
  rw [settlePrompt]
  rw [settleRound, nextSize] at h
  rcases hestimated : estimateTokens totalBytes with e | estimated
  · rw [hestimated] at h
    cases h
  rw [hestimated] at h
  dsimp only at h ⊢
  split_ifs at h with hover hne
  injection h with hnext
  subst hnext
  refine ⟨rfl, Nat.not_lt.1 hover, hne, fun _ ↦ ?_⟩
  rw [dif_neg hover, dif_neg hne]

theorem exists_loop_settleRound (hbase : nextSize sha256 input disclosed omissions 0 ≤ totalBytes)
    (hmax : totalBytes ≤ maxU64)
    (hle : totalBytes ≤ promptSize (requestOfSize sha256 input disclosed omissions totalBytes)) :
    loop (settleRound sha256 input disclosed omissions) 38 totalBytes =
      some (settlePrompt sha256 input disclosed omissions totalBytes hle) := by
  let base := nextSize sha256 input disclosed omissions 0
  have hloop := exists_loop (settleRound sha256 input disclosed omissions)
    (fun size ↦ base ≤ size ∧ size ≤ maxU64 ∧ size ≤ nextSize sha256 input disclosed omissions size)
    (fun size outcome ↦ ∀ hle, settlePrompt sha256 input disclosed omissions size hle = outcome)
    (fun size ↦ base + 37 - size)
    (fun size outcome _ hround ↦ settlePrompt_of_done hround) ?_ ⟨hbase, hmax, hle⟩
    (show base + 37 - totalBytes < 38 by omega)
  · obtain ⟨outcome, hloop, hsettle⟩ := hloop
    rw [hloop, hsettle]
  · rintro size next ⟨hbase, hmax, hle⟩ hround
    obtain ⟨hnext, hmax', hne, hsettle⟩ := settlePrompt_of_next hround hle
    have hgrown : size < next := by
      rw [hnext] at hne ⊢
      exact lt_of_le_of_ne hle hne.symm
    have hbound : next ≤ base + 37 := hnext.trans_le (nextSize_le hmax)
    have hle' : next ≤ nextSize sha256 input disclosed omissions next := by
      rw [hnext]
      exact nextSize_mono hle
    refine ⟨⟨by omega, hmax', hle'⟩, by omega, fun outcome houtcome hle ↦ ?_⟩
    exact (hsettle hle').trans (houtcome hle')

/-- **The inner loop ends within 39 rounds.** -/
theorem loop_settleRound :
    loop (settleRound sha256 input disclosed omissions) 39 0 =
      some (settlePrompt sha256 input disclosed omissions 0 (Nat.zero_le _)) := by
  rw [loop]
  cases hround : settleRound sha256 input disclosed omissions 0 with
  | done outcome => rw [settlePrompt_of_done hround]
  | next size =>
    obtain ⟨hsize, hmax, -, hsettle⟩ := settlePrompt_of_next hround (Nat.zero_le _)
    have hle : size ≤ nextSize sha256 input disclosed omissions size := by
      rw [hsize]
      exact nextSize_mono (Nat.zero_le _)
    rw [hsettle hle]
    exact exists_loop_settleRound hsize.ge hmax hle

theorem settlePrompt_eq_error {e : PackageError}
    {hle : totalBytes ≤ promptSize (requestOfSize sha256 input disclosed omissions totalBytes)}
    (h : settlePrompt sha256 input disclosed omissions totalBytes hle = .error e) :
    e = .overflow ∧
      ∃ n, maxU64 < (nextSize sha256 input disclosed omissions)^[n] totalBytes + 3 := by
  fun_induction settlePrompt with
  | case1 totalBytes hle e' hestimated =>
    cases h
    rw [estimateTokens] at hestimated
    split at hestimated
    · cases hestimated
    · rename_i hover
      cases hestimated
      rw [checkedAdd, ite_eq_right_iff] at hover
      exact ⟨rfl, 0, Nat.lt_of_not_le fun hle ↦ by cases hover hle⟩
  | case2 totalBytes hle estimated hestimated actual hover =>
    cases h
    exact ⟨rfl, 1, Nat.lt_add_right 3 hover⟩
  | case3 => cases h
  | case4 totalBytes hle estimated hestimated actual hover hne ih =>
    obtain ⟨he, n, hn⟩ := ih h
    exact ⟨he, n + 1, hn⟩

end Settle

section Evict

variable {sha256 : Sha256} {input : ReviewPackageInput} {d d' : Disclosure}

theorem evict_eq (d : Disclosure) : evict sha256 input d =
    match evictRound sha256 input d with
    | .done outcome => outcome
    | .next d' => evict sha256 input d' := by
  rw [evict, evictRound]
  by_cases hempty : input.captured.bytes ≠ [] ∧ flatten d.disclosed = []
  · rw [if_pos hempty, if_pos hempty]
    rfl
  · rw [if_neg hempty, if_neg hempty]
    rcases settlePrompt sha256 input (flatten d.disclosed) d.omissions 0 (Nat.zero_le _) with e | request
    · simp only [bind, Except.bind]
    rcases hfits : fits input.budget (promptSize request) with e | fit
    · simp only [hfits, bind, Except.bind]
    simp only [hfits, bind, Except.bind]
    cases fit with
    | true => rfl
    | false =>
      simp only [Bool.false_eq_true, if_false]
      rcases removeLargest d.disclosed with _ | largest
      · rfl
      obtain ⟨hunk, rest⟩ := largest
      dsimp only
      by_cases hrequired : hunkIsRequired input hunk.1
      · rw [if_pos hrequired, if_pos hrequired]
        rfl
      · rw [if_neg hrequired, if_neg hrequired]
        cases omissionFor sha256 input hunk with
        | error e => rfl
        | ok omission => rfl

theorem evictRound_next (h : evictRound sha256 input d = .next d') :
    ∃ hunk, hunkIsRequired input hunk.1 = false ∧ (hunk :: d'.disclosed).Perm d.disclosed := by
  rw [evictRound] at h
  by_cases hempty : input.captured.bytes ≠ [] ∧ flatten d.disclosed = []
  · rw [if_pos hempty] at h
    cases h
  · rw [if_neg hempty] at h
    cases hsettled : settlePrompt sha256 input (flatten d.disclosed) d.omissions 0
        (Nat.zero_le _) with
    | error e =>
      rw [hsettled] at h
      cases h
    | ok request =>
      rcases hfits : fits input.budget (promptSize request) with e | fit
      · simp only [hsettled, hfits] at h
        cases h
      cases fit with
      | true =>
        simp only [hsettled, hfits] at h
        cases h
      | false =>
        simp only [hsettled, hfits] at h
        rcases hlargest : removeLargest d.disclosed with _ | largest
        · rw [hlargest] at h
          cases h
        obtain ⟨hunk, rest⟩ := largest
        rw [hlargest] at h
        dsimp only at h
        by_cases hrequired : hunkIsRequired input hunk.1
        · rw [if_pos hrequired] at h
          cases h
        · rw [if_neg hrequired] at h
          rcases homission : omissionFor sha256 input hunk with e | omission
          · rw [homission] at h
            cases h
          rw [homission] at h
          cases h
          exact ⟨hunk, Bool.eq_false_iff.2 hrequired, removeLargest_perm hlargest⟩

theorem spareHunks_next (h : evictRound sha256 input d = .next d') :
    spareHunks input d' + 1 = spareHunks input d := by
  obtain ⟨hunk, hspare, hperm⟩ := evictRound_next h
  rw [spareHunks, spareHunks, ← hperm.countP_eq, List.countP_cons_of_pos]
  rw [hspare]
  rfl

/-- **The outer loop ends within as many rounds as hunks may be evicted, and one more.** -/
theorem loop_evictRound (d : Disclosure) :
    loop (evictRound sha256 input) (spareHunks input d + 1) d = some (evict sha256 input d) := by
  have hloop := exists_loop (evictRound sha256 input) (fun _ ↦ True)
    (fun d outcome ↦ evict sha256 input d = outcome) (spareHunks input) ?_ ?_ trivial
    (Nat.lt_succ_self (spareHunks input d))
  · obtain ⟨outcome, hloop, hevict⟩ := hloop
    rw [hloop, hevict]
  · intro d outcome _ hround
    rw [evict_eq, hround]
  · intro d d' _ hround
    refine ⟨trivial, by have := spareHunks_next hround; omega, fun outcome houtcome ↦ ?_⟩
    rw [evict_eq, hround]
    exact houtcome

end Evict

/-- How the two loops of a package come to an end. -/
structure PackageLoopsEnd (sha256 : Sha256) (input : ReviewPackageInput) : Prop where
  /-- The sizes that the inner loop tries never swing back. -/
  ascending : ∀ disclosed omissions,
    Monotone fun n ↦ (nextSize sha256 input disclosed omissions)^[n] 0
  resting : ∀ disclosed omissions, ∃ n,
    (nextSize sha256 input disclosed omissions)^[n + 1] 0 =
      (nextSize sha256 input disclosed omissions)^[n] 0
  settles : ∀ disclosed omissions,
    loop (settleRound sha256 input disclosed omissions) 39 0 =
      some (settlePrompt sha256 input disclosed omissions 0 (Nat.zero_le _))
  stated : ∀ disclosed omissions request,
    settlePrompt sha256 input disclosed omissions 0 (Nat.zero_le _) = .ok request →
      ∃ size, request = requestOfSize sha256 input disclosed omissions size ∧
        nextSize sha256 input disclosed omissions size = size
  overflows : ∀ disclosed omissions e,
    settlePrompt sha256 input disclosed omissions 0 (Nat.zero_le _) = .error e →
      e = .overflow ∧ ∃ n, maxU64 < (nextSize sha256 input disclosed omissions)^[n] 0 + 3
  evicts : ∀ d d', evictRound sha256 input d = .next d' →
    (∃ hunk, hunkIsRequired input hunk.1 = false ∧ (hunk :: d'.disclosed).Perm d.disclosed) ∧
      spareHunks input d' < spareHunks input d
  ends : ∀ d, loop (evictRound sha256 input) (spareHunks input d + 1) d =
    some (evict sha256 input d)

/-- **Both loops of a package end, for every input.** -/
theorem packageLoops_end (sha256 : Sha256) (input : ReviewPackageInput) :
    PackageLoopsEnd sha256 input where
  ascending _ _ := monotone_iterate_zero nextSize_mono
  resting _ _ := ⟨_, iterate_eq_of_le_bound nextSize_mono nextSize_double_le⟩
  settles _ _ := loop_settleRound
  stated _ _ request h := by
    obtain ⟨size, hrequest, hsize, -⟩ := settlePrompt_eq_ok h
    exact ⟨size, hrequest, by rw [nextSize, ← hrequest, hsize]⟩
  overflows _ _ _ h := settlePrompt_eq_error h
  evicts _ _ h := ⟨evictRound_next h, by have := spareHunks_next h; omega⟩
  ends := loop_evictRound

end FamiliarAi
