import FamiliarAi.Review.Limits

/-!
# What a clean review says

A cycle that is ready for approval speaks of the candidate as it was captured last. Its scope was let
pass, every required check passed on it, and unless its tier asked for checks only the last valid
review was made of it and left nothing to remediate. Nothing stale is carried over a remediation.
-/

namespace FamiliarAi

open Interaction

/-- The verifier returns the id of the check, whether it is required, and what it was run on. -/
def Echoes (parties : Parties) : Prop :=
  ∀ t check identity e, parties t (.verify check identity) = .ok e →
    e.checkId = check.checkId ∧ e.required = check.required ∧ e.testedIdentity = identity

section Candidate

variable {coordinator : ReviewCoordinator} {request : CoordinationRequest} {parties : Parties}
  {cycle : ReviewCycle} {o : Observation} {k : Knowledge}

/-- **A scope that lets the cycle go on prohibits nothing.** -/
theorem Passable.not_prohibited (h : Passable coordinator request o) {f : ScopeFinding}
    (hf : f ∈ (o.evaluation request.scopePolicy).findings) : f.decision ≠ .prohibitedChange := by
  rcases h with hcontained | ⟨-, hcovered⟩
  · rcases scopeDisposition_eq_contained_iff.1 hcontained f hf with h | h <;> rw [h] <;> decide
  · intro hprohibited
    have hf := hcovered f hf
    rw [ScopeFinding.Covered, hprohibited] at hf
    exact hf

theorem Clean.verificationFor (h : Clean coordinator request parties cycle o k) :
    cycle.verificationFor k.remediations = cycle.currentVerification ∨
      cycle.verificationFor k.remediations = [] := by
  unfold ReviewCycle.verificationFor ReviewCycle.currentVerification
  by_cases hremediations : k.remediations = 0
  · left
    rw [if_pos hremediations, if_pos (h.fresh hremediations)]
  · rw [if_neg hremediations]
    by_cases hafter : cycle.verificationAfterRemediation = []
    · exact .inr hafter
    · left
      rw [if_neg hafter]

/-- **Required checks passed on the candidate.** -/
theorem Clean.passed (h : Clean coordinator request parties cycle o k) (hechoes : Echoes parties)
    {check : VerificationCheck} (hcheck : check ∈ request.verificationPlan.checks)
    (hrequired : check.required = true) :
    ∃ e ∈ cycle.currentVerification, e.checkId = check.checkId ∧ e.required = true ∧
      e.status = .passed ∧ e.testedIdentity = o.captured.diff.contentHash := by
  obtain ⟨e, he, t, hanswer⟩ := h.verified.covers check hcheck hrequired
  obtain ⟨hid, hreq, hidentity⟩ := hechoes t check _ e hanswer
  have hpassed : e.status = .passed := by
    have hfailing := List.filter_eq_nil_iff.1 h.verified.passing e he
    by_contra hstatus
    exact hfailing (decide_eq_true ⟨hreq.trans hrequired, hstatus⟩)
  rcases h.verificationFor with hcurrent | hnil
  · rw [hcurrent] at he
    exact ⟨e, he, hid, hreq.trans hrequired, hpassed, hidentity⟩
  · rw [hnil] at he
    cases he

end Candidate

/-- **A clean review.** A completed cycle that stops for a clean review is ready for approval. The
candidate that was captured last was let pass, and nothing in it is prohibited. Each required check
passed on it. Either its tier asks for checks only, or the last valid review is of a package that was
built on it, and leaves no finding to remediate. No other cycle is ready for approval. -/
theorem run_clean_review (coordinator : ReviewCoordinator) (request : CoordinationRequest)
    (parties : Parties) (hechoes : Echoes parties) :
    ∃ outcome t, coordinator.run request parties = (outcome, t) ∧
      ∀ cycle, outcome = .ok cycle →
        (cycle.state = .completed ∧ .cleanReview ∈ cycle.stopReasons →
          ∃ captured evidence, Transcript.lastCaptured t = some captured ∧
            Transcript.lastScopeEvidence t =
              some (captured.changedFiles, captured.bytes, evidence) ∧
            let evaluation := evaluateScope request.scopePolicy captured.changedFiles evidence
            ((evaluation.disposition = .contained ∨
                humanReviewAbsorbed coordinator.sha256 evaluation request.approvedScopeFindings) ∧
              ∀ f ∈ evaluation.findings, f.decision ≠ .prohibitedChange) ∧
            (∀ check ∈ request.verificationPlan.checks, check.required = true →
              ∃ e ∈ cycle.currentVerification, e.checkId = check.checkId ∧ e.required = true ∧
                e.status = .passed ∧ e.testedIdentity = captured.diff.contentHash) ∧
            (cycle.tierSelection.map (·.tier) = some .checksOnly ∨
              ∃ package result, Transcript.lastReview coordinator.policy t = some (package, result) ∧
                (∃ input, buildReviewRequest coordinator.sha256 input = .ok package ∧
                  input.captured = captured) ∧
                cycle.reviewResult = some result ∧
                ∀ f ∈ result.findings, f.Actionable →
                  ScopeClaimAdjudicated (adjudicatedPaths coordinator.sha256 request cycle) f) ∧
            cycle.disposition = .readyForHumanApproval) ∧
        (cycle.disposition = .readyForHumanApproval →
          cycle.state = .completed ∧ cycle.stopReasons = [.cleanReview]) := by
  obtain ⟨-, hclean⟩ := run_concluded coordinator request parties
  refine ⟨_, _, rfl, fun cycle hcycle ↦ ?_⟩
  obtain ⟨hnotReady, hnone⟩ | ⟨o, h⟩ := hclean cycle hcycle
  · exact ⟨fun hcompleted ↦ absurd hcompleted.2 hnone, fun hready ↦ absurd hready hnotReady⟩
  refine ⟨fun _ ↦ ?_, fun _ ↦ ⟨h.state, h.stopReasons⟩⟩
  refine ⟨o.captured, o.evidence, h.observed.captured, h.observed.evidence,
    ⟨h.passable, fun f hf ↦ h.passable.not_prohibited hf⟩,
    fun check hcheck hrequired ↦ h.passed hechoes hcheck hrequired, ?_, h.disposition⟩
  cases h.judged with
  | checksOnly htier _ _ _ => exact .inl htier
  | reviewed package result hreview hcleared _ =>
    obtain ⟨input, hbuilt, hcaptured, -⟩ := hreview.built
    exact .inr ⟨package, result, hreview.last, ⟨input, hbuilt, hcaptured⟩, hreview.reviewResult,
      hcleared⟩

def sampleCheck : VerificationCheck :=
  ⟨"unit", ["cargo", "test"], ".", [], 1000, true, []⟩

/-- The candidate changes nothing that a rule covers, so it is reviewed. -/
theorem run_clean_review_sample :
    ∃ cycle t, sampleCoordinator.run (sampleRequest 5 [sampleCheck]) (sampleParties []) =
        (.ok cycle, t) ∧
      Transcript.asked .review t = 1 ∧
      ∃ e ∈ cycle.currentVerification, e.checkId = "unit" ∧ e.required = true ∧
        e.status = .passed := by
  have hresult :
      (sampleCoordinator.run (sampleRequest 5 [sampleCheck]) (sampleParties [])).map
          (fun outcome ↦ outcome.toOption.map fun cycle ↦ (cycle.state, cycle.stopReasons))
          (Transcript.asked .review) =
        (some (.completed, [.cleanReview]), 1) := by
    decide +kernel
  obtain ⟨outcome, t, hrun, hclean⟩ := run_clean_review sampleCoordinator
    (sampleRequest 5 [sampleCheck]) (sampleParties []) fun t check identity e h ↦ by
      cases h
      exact ⟨rfl, rfl, rfl⟩
  rw [hrun] at hresult ⊢
  obtain ⟨hcycle, hasked⟩ := Prod.mk.inj hresult
  rcases outcome with e | cycle
  · cases hcycle
  obtain ⟨hstate, hreasons⟩ := Prod.mk.inj (Option.some.inj hcycle)
  obtain ⟨_, _, -, -, -, hpassed, -⟩ :=
    (hclean cycle rfl).1 ⟨hstate, hreasons ▸ List.mem_singleton_self _⟩
  obtain ⟨e, he, hid, hrequired, hstatus, -⟩ := hpassed sampleCheck List.mem_cons_self rfl
  exact ⟨cycle, t, rfl, hasked, e, he, hid, hrequired, hstatus⟩

end FamiliarAi
