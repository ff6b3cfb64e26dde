import FamiliarAi.Review.Containment
import FamiliarAi.Review.Rounds

/-!
# Attempts and budgets of a run

Whatever the parties do, a run leaves, having asked the reviewer and the implementer no more often
than its limits allow, and no action was started without room for its reservation.

That a clean cycle is within the ceilings is another matter. A candidate whose tier asks for checks
only, under a plan without checks, is never held against them, so the cycle is clean even where the
implementer alone had used more than is allowed.
-/

namespace FamiliarAi

open Interaction

namespace Account

theorem WithinCeilings.of_add {limits : WorkflowLimits} {a b : Account}
    (h : (a + b).WithinCeilings limits) : a.WithinCeilings limits := by
  have hpart {maximum x y : Option ℕ} (h : Within maximum (Option.map₂ (· + ·) x y)) :
      Within maximum x := by
    intro m hm
    obtain ⟨u, hu, hle⟩ := h m hm
    obtain ⟨v, w, hv, -, rfl⟩ := Option.mem_map₂_iff.1 hu
    exact ⟨v, hv, by omega⟩
  have hduration : Within limits.maxTotalDurationMs
      (Option.map₂ (· + ·) (some a.duration) (some b.duration)) := h.2.2
  exact ⟨hpart h.1, hpart h.2.1, hpart hduration⟩

end Account

/-- What was used only grows. -/
theorem Transcript.withinCeilings_initial {policy : BlockingPolicy} {limits : WorkflowLimits}
    {initial : Account} {t : Transcript}
    (h : (Transcript.account policy initial t).WithinCeilings limits) :
    initial.WithinCeilings limits := by
  induction t with
  | nil => exact h
  | cons event t ih => exact ih h.of_add

/-- **A run leaves, with the attempts kept.** The remediations of failing checks and those of findings
are counted together. -/
theorem run_asked_le (coordinator : ReviewCoordinator) (request : CoordinationRequest)
    (parties : Parties) :
    ∃ outcome t, coordinator.run request parties = (outcome, t) ∧
      (coordinate coordinator request).run parties [] = (.error outcome, t) ∧
      Transcript.asked .review t ≤ request.limits.maxReviewAttempts ∧
      Transcript.asked .remediation t ≤ request.limits.maxRemediationAttempts := by
  have h := (run_concluded coordinator request parties).1
  refine ⟨_, _, rfl, ?_, h.reviews_le, h.remediations_le⟩
  rcases (coordinate coordinator request).run parties [] with ⟨outcome | nothing, t⟩
  · rfl
  · exact nothing.elim

/-- The tier that is selected for the candidate. -/
def CoordinationRequest.tierOf (request : CoordinationRequest) (captured : CapturedDiff)
    (evidence : ScopeEvidence) : ReviewTier :=
  let o : Observation := ⟨captured, evidence⟩
  (selectReviewTier request.tierPolicy request.declaredRiskClasses captured.changedFiles
    captured.diff.byteSize (o.scopeCheck request.scopePolicy "initial")).tier

theorem Observed.tier {request : CoordinationRequest} {cycle : ReviewCycle} {o : Observation}
    {k : Knowledge} (h : Observed request cycle o k) :
    cycle.tierSelection.map (·.tier) = some (request.tierOf o.captured o.evidence) := by
  obtain ⟨phase, -, htier⟩ := h.recorded
  rw [htier]
  rfl

/-- **Budgets.** Every action of a run was started with room for its reservation, given what had been
used until then. A clean cycle accounts for all that was used, and it is within the ceilings exactly
when the implementer had been within them, when there was a check to run, or when the tier of the
candidate asked for a review. -/
theorem run_budget (coordinator : ReviewCoordinator) (request : CoordinationRequest)
    (parties : Parties) :
    ∃ outcome t, coordinator.run request parties = (outcome, t) ∧
      Transcript.Reserved coordinator.policy request.limits request.spent t ∧
      ∀ cycle, outcome = .ok cycle → .cleanReview ∈ cycle.stopReasons →
        cycle.account = Transcript.account coordinator.policy request.spent t ∧
        ∃ captured evidence, Transcript.lastCaptured t = some captured ∧
          Transcript.lastScopeEvidence t = some (captured.changedFiles, captured.bytes, evidence) ∧
          (cycle.account.WithinCeilings request.limits ↔
            request.spent.WithinCeilings request.limits ∨ request.verificationPlan.checks ≠ [] ∨
              request.tierOf captured evidence ≠ .checksOnly) := by
  obtain ⟨hlawful, hclean⟩ := run_concluded coordinator request parties
  refine ⟨_, _, rfl, hlawful.reserved, fun cycle hcycle hreason ↦ ?_⟩
  obtain ⟨-, hnone⟩ | ⟨o, h⟩ := hclean cycle hcycle
  · exact absurd hreason hnone
  have haccount : cycle.account =
      Transcript.account coordinator.policy request.spent (coordinator.run request parties).2 :=
    h.account.symm
  refine ⟨haccount, o.captured, o.evidence, h.observed.captured, h.observed.evidence, ?_, ?_⟩
  · intro hwithin
    rw [haccount] at hwithin
    exact .inl (Transcript.withinCeilings_initial hwithin)
  · intro hwhen
    cases h.judged with
    | checksOnly htier _ _ hbudget =>
      rw [h.observed.tier, Option.some.injEq] at htier
      rcases hwhen with hspent | hchecks | hreview
      · exact hbudget (.inl hspent)
      · exact hbudget (.inr hchecks)
      · exact absurd htier hreview
    | reviewed _ _ _ _ hbudget => exact hbudget

def sampleReference : EvidenceRef :=
  ⟨"hash", "text/x-diff", 2, "repo", "base", "diff", false, 0⟩

def sampleParties (files : List ChangedFile) : Parties := fun _ op ↦
  match op with
  | .loadCycle _ => .ok none
  | .saveCycle _ => .ok ()
  | .saveArtifact _ => .ok sampleReference
  | .capture baseRevision => .ok ⟨baseRevision, "tree", files, sampleReference, [97, 10]⟩
  | .collectScopeEvidence _ _ => .ok ⟨[], []⟩
  | .verify check identity => .ok
    { checkId := check.checkId
      argv := check.argv
      workingDirectory := check.workingDirectory
      environmentIdentity := []
      toolIdentity := none
      testedIdentity := identity
      startedAt := "t"
      endedAt := "t"
      durationMs := 1
      exitCode := some 0
      signal := none
      status := .passed
      required := check.required
      summary := ""
      stdout := none
      stderr := none
      truncated := false }
  | .isolationEvidence _ => none
  | .review _ package => .ok
    { reviewId := package.reviewId
      reviewer := ⟨package.reviewer, none, none, []⟩
      startedAt := "t"
      endedAt := "t"
      durationMs := 1
      findings := []
      reviewedManifestHash := package.manifest.manifestHash
      usage := { totalTokens := some 1 }
      disposition := .pending
      unavailableFields := [] }
  | .remediate _ => .error "no implementer"
  | .now => "t"
  | .elapsed => (0 : ℕ)

def sampleCoordinator : ReviewCoordinator where
  policy := ⟨[.critical], [], .critical⟩
  hasBatchReviewer := false
  sha256 := fun _ ↦ Vector.replicate 32 0

/-- A review with room for ten tokens, of what an implementer made with the given number of them. -/
def sampleRequest (used : ℕ) (checks : List VerificationCheck) : CoordinationRequest where
  cycleId := "c"
  repositoryKey := "repo"
  task := ⟨"t", "o", [], "base", [], [], "v"⟩
  implementation := ⟨⟨"a", "a", some "a", none, .implementation, none⟩, none, none, []⟩
  reviewer := ⟨"b", "b", some "b", none, .review, none⟩
  standardReviewer := none
  tierPolicy := ⟨[], [], [⟨"all", .checksOnly, [], none, none, [], []⟩]⟩
  declaredRiskClasses := []
  contracts := []
  invariants := []
  verificationPlan := ⟨"v", checks, false⟩
  packageBudget := ⟨10000, 10000⟩
  limits := ⟨1, 1, some 10, none, none, some 1, some 1, none, 1⟩
  allowSameModelFallback := false
  implementationUsage := { totalTokens := some used }
  implementationDurationMs := 0
  scopePolicy := linkSnapshot
  approvedScopeFindings := []

theorem run_budget_within :
    ∃ cycle, (sampleCoordinator.run (sampleRequest 5 [])
        (sampleParties [⟨"src/lib.rs", .modified, none, []⟩])).1 = .ok cycle ∧
      cycle.stopReasons = [.cleanReview] ∧
      cycle.account.WithinCeilings (sampleRequest 5 []).limits := by
  obtain ⟨outcome, t, hrun, -, hclean⟩ := run_budget sampleCoordinator (sampleRequest 5 [])
    (sampleParties [⟨"src/lib.rs", .modified, none, []⟩])
  have hresult : (sampleCoordinator.run (sampleRequest 5 [])
      (sampleParties [⟨"src/lib.rs", .modified, none, []⟩])).1.toOption.map (·.stopReasons) =
        some [.cleanReview] := by
    decide +kernel
  rw [hrun] at hresult ⊢
  rcases outcome with e | cycle
  · cases hresult
  have hreasons : cycle.stopReasons = [.cleanReview] := Option.some.inj hresult
  obtain ⟨-, _, _, -, -, hiff⟩ := hclean cycle rfl (hreasons ▸ List.mem_singleton_self _)
  exact ⟨cycle, rfl, hreasons, hiff.2 (.inl (by decide))⟩

theorem run_overspent_clean :
    (sampleCoordinator.run (sampleRequest 11 [])
        (sampleParties [⟨"src/lib.rs", .modified, none, []⟩])).1.toOption.map
      (fun cycle ↦ (cycle.stopReasons, cycle.disposition, cycle.account.tokens)) =
        some ([.cleanReview], .readyForHumanApproval, some 11) ∧
      (sampleRequest 11 []).limits.maxTotalTokens = some 10 := by
  decide +kernel

end FamiliarAi
