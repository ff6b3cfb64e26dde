import FamiliarAi.Review.Validation

/-!
# What a validated review says

A review that passes the validation says nothing that the program did not establish itself: its
disposition follows from the checks of the request and from its own findings, and whether a finding
blocks follows from its status, its category and its severity. What the reviewer set for these does
not come into it, so that a validated review is validated again as it is.
-/

namespace FamiliarAi

open Except List

section Validation

variable {policy : BlockingPolicy} {request : ReviewRequest} {result r : ReviewResult}
  {paths checks ids : List String} {findings checked : List ReviewFinding}

/-- The finding with another flag. -/
def ReviewFinding.flagged (blocking : ReviewFinding → Bool) (finding : ReviewFinding) :
    ReviewFinding :=
  { finding with blocking := blocking finding }

theorem checkFindings_flagged (blocking : ReviewFinding → Bool) :
    checkFindings policy paths checks ids (findings.map (·.flagged blocking)) =
      checkFindings policy paths checks ids findings := by
  induction findings generalizing ids with
  | nil => rfl
  | cons finding findings ih =>
    rw [map_cons, checkFindings, checkFindings]
    show (checkFinding paths checks ids finding >>= fun _ ↦
      checkFindings policy paths checks (finding.findingId :: ids)
        (findings.map (·.flagged blocking)) >>= _) = _
    rw [ih]
    rfl

theorem checkFindings_eq_ok (h : checkFindings policy paths checks ids findings = .ok checked) :
    checked = findings.map policy.apply ∧
      ∀ f ∈ checked, ∀ e ∈ f.evidence, e.ResolvableIn paths checks := by
  induction findings generalizing ids checked with
  | nil =>
    obtain rfl := Except.ok.inj h
    exact ⟨rfl, fun _ hmem ↦ absurd hmem not_mem_nil⟩
  | cons finding findings ih =>
    rw [checkFindings] at h
    obtain ⟨_, hcheck, h⟩ := bind_eq_ok.1 h
    obtain ⟨rest, hrest, h⟩ := bind_eq_ok.1 h
    obtain rfl := Except.ok.inj h
    obtain ⟨hmap, hresolve⟩ := ih hrest
    refine ⟨by rw [hmap, map_cons], forall_mem_cons.2 ⟨?_, hresolve⟩⟩
    rw [checkFinding] at hcheck
    obtain ⟨-, hcheck⟩ := ite_throw_eq_ok.1 hcheck
    obtain ⟨-, hcheck⟩ := ite_throw_eq_ok.1 hcheck
    obtain ⟨hevidence, -⟩ := ite_throw_eq_ok.1 hcheck
    exact not_not.1 hevidence

theorem checkFindings_again (h : checkFindings policy paths checks ids findings = .ok checked) :
    checkFindings policy paths checks ids checked = .ok checked := by
  obtain ⟨hmap, -⟩ := checkFindings_eq_ok h
  have hflagged : checked = findings.map (·.flagged fun f ↦ (policy.apply f).blocking) := hmap
  rw [← h]
  conv_lhs => rw [hflagged]
  exact checkFindings_flagged _

/-! ### Reviews -/

/-- A review that the validation accepts, with what it makes of it. -/
structure Accepts (policy : BlockingPolicy) (request : ReviewRequest) (result r : ReviewResult) :
    Prop where
  reviewId : result.reviewId = request.reviewId
  manifest : result.reviewedManifestHash = request.manifest.manifestHash
  fresh : ¬∃ e ∈ request.verification, e.testedIdentity ≠ request.diff.contentHash
  findings : checkFindings policy (request.changedFiles.map (·.path))
    (request.verification.map (·.checkId)) [] result.findings = .ok r.findings
  disposes : ∀ prior ∈ request.priorFindings, DisposesOf r.findings prior
  narrated : result.disposition = .pending ∨
    result.disposition = durableDisposition request.verification r.findings
  kept : r = { result with
    findings := r.findings
    disposition := durableDisposition request.verification r.findings }

theorem applyAndValidate_eq_ok_iff :
    policy.applyAndValidate request result = .ok r ↔ Accepts policy request result r := by
  rw [BlockingPolicy.applyAndValidate]
  constructor
  · intro h
    obtain ⟨hid, h⟩ := ite_throw_eq_ok.1 h
    obtain ⟨hmanifest, h⟩ := ite_throw_eq_ok.1 h
    obtain ⟨hfresh, h⟩ := ite_throw_eq_ok.1 h
    obtain ⟨findings, hfindings, h⟩ := bind_eq_ok.1 h
    obtain ⟨hdisposes, h⟩ := ite_throw_eq_ok.1 h
    obtain ⟨hnarrated, h⟩ := ite_throw_eq_ok.1 h
    obtain rfl := Except.ok.inj h
    exact ⟨not_not.1 hid, not_not.1 hmanifest, hfresh, hfindings, not_not.1 hdisposes,
      by tauto, rfl⟩
  · rintro ⟨hid, hmanifest, hfresh, hfindings, hdisposes, hnarrated, hkept⟩
    refine ite_throw_eq_ok.2 ⟨not_not.2 hid, ite_throw_eq_ok.2
      ⟨not_not.2 hmanifest, ite_throw_eq_ok.2 ⟨hfresh, bind_eq_ok.2
      ⟨r.findings, hfindings, ite_throw_eq_ok.2 ⟨not_not.2 hdisposes,
      ite_throw_eq_ok.2 ⟨by tauto, ?_⟩⟩⟩⟩⟩⟩
    exact congrArg Except.ok hkept.symm

theorem Accepts.again (h : Accepts policy request result r) : Accepts policy request r r where
  reviewId := by rw [h.kept]; exact h.reviewId
  manifest := by rw [h.kept]; exact h.manifest
  fresh := h.fresh
  findings := checkFindings_again h.findings
  disposes := h.disposes
  narrated := .inr (by conv_lhs => rw [h.kept])
  kept := by
    conv_lhs => rw [h.kept]
    conv_rhs => rw [h.kept]

theorem Accepts.flagged (h : Accepts policy request result r) (blocking : ReviewFinding → Bool) :
    Accepts policy request
      { result with findings := result.findings.map (·.flagged blocking) } r where
  reviewId := h.reviewId
  manifest := h.manifest
  fresh := h.fresh
  findings := (checkFindings_flagged blocking).trans h.findings
  disposes := h.disposes
  narrated := h.narrated
  kept := h.kept

theorem durableDisposition_eq_ready_iff {verification : List VerificationEvidence} :
    durableDisposition verification findings = .readyForHumanApproval ↔
      (¬∃ e ∈ verification, e.Failing) ∧ ¬∃ f ∈ findings, f.Actionable := by
  rw [durableDisposition]
  split_ifs with h
  · exact iff_of_false nofun fun hnone ↦ h.elim hnone.1 hnone.2
  · exact iff_of_true rfl (not_or.1 h)

def FindingEvidence.FoundIn (request : ReviewRequest) : FindingEvidence → Prop
  | fileRange path _ | diffHunk path _ => ∃ file ∈ request.changedFiles, file.path = path
  | verification checkId _ => ∃ e ∈ request.verification, e.checkId = checkId
  | invariant source sectionTitle sourceHash => ∃ i ∈ request.invariants,
    i.source = source ∧ i.sectionTitle = sectionTitle ∧ i.contentHash = sourceHash
  | contract source _ sourceHash => ∃ document ∈ request.contracts,
    document.source = source ∧ document.contentHash = sourceHash
  | artifact reference _ => reference = request.diff ∨
    ∃ e ∈ request.verification, e.stdout = some reference ∨ e.stderr = some reference

theorem FindingEvidence.ResolvableIn.foundIn {evidence : FindingEvidence}
    (h : evidence.ResolvableIn (request.changedFiles.map (·.path))
      (request.verification.map (·.checkId)))
    (hkind : evidence.isFile = true ∨ evidence.isCheck = true) : evidence.FoundIn request := by
  cases evidence with
  | fileRange path range => exact mem_map.1 h.2.1
  | diffHunk path hunk => exact mem_map.1 h.2.1
  | verification checkId output => exact mem_map.1 h.1
  | invariant | contract | artifact => exact hkind.elim nofun nofun

/-- What a validated review says. -/
structure Substantiated (policy : BlockingPolicy) (request : ReviewRequest) (r : ReviewResult) :
    Prop where
  ready_iff : r.disposition = .readyForHumanApproval ↔
    (¬∃ e ∈ request.verification, e.required = true ∧ e.status ≠ .passed) ∧
      ¬∃ f ∈ r.findings, f.status = .opened ∧
        (f.blocking = true ∨ f.acceptanceCriterionId.isSome = true)
  blocking : ∀ f ∈ r.findings, f.blocking =
    (decide (f.status = .opened) && policy.isBlocking f.category f.severity)
  disposed : ∀ prior ∈ request.priorFindings, ∃ f ∈ r.findings, f.findingId = prior.findingId ∧
    f.status ≠ .acceptedRisk ∧ (f.status = .superseded → f.supersedes.isSome = true)
  cited : ∀ f ∈ r.findings, ∀ e ∈ f.evidence,
    e.ResolvableIn (request.changedFiles.map (·.path)) (request.verification.map (·.checkId)) ∧
      (e.isFile = true ∨ e.isCheck = true → e.FoundIn request)
  again : policy.applyAndValidate request r = .ok r

theorem DisposesOf.exists_finding {prior : FindingReference} (h : DisposesOf findings prior) :
    ∃ f ∈ findings, f.findingId = prior.findingId ∧ f.status ≠ .acceptedRisk ∧
      (f.status = .superseded → f.supersedes.isSome = true) := by
  rw [DisposesOf] at h
  split at h
  · exact h.elim
  · next f hfind =>
    have hid := find?_some hfind
    exact ⟨f, mem_of_find?_eq_some hfind, of_decide_eq_true hid, h⟩

theorem Accepts.substantiated (h : Accepts policy request result r) :
    Substantiated policy request r where
  ready_iff := by
    conv_lhs => rw [h.kept]
    exact durableDisposition_eq_ready_iff
  blocking := by
    rw [(checkFindings_eq_ok h.findings).1]
    exact forall_mem_map.2 fun _ _ ↦ rfl
  disposed := fun prior hprior ↦ (h.disposes prior hprior).exists_finding
  cited := fun f hf e he ↦
    have hresolve := (checkFindings_eq_ok h.findings).2 f hf e he
    ⟨hresolve, hresolve.foundIn⟩
  again := applyAndValidate_eq_ok_iff.2 h.again

end Validation

namespace ResolvedFinding

def policy : BlockingPolicy where
  blockingSeverities := [.critical, .high]
  blockingCategories := [.invariantViolation, .architecturalDrift, .securityIssue, .scopeViolation]
  blockingCategoryFloor := .medium

def reviewer : AgentAssignment :=
  ⟨"codex", "codex", some "openai", none, .review, none⟩

def request : ReviewRequest where
  reviewId := "review"
  task := ⟨"task", "objective", [], "base", [], [], "plan"⟩
  implementation := ⟨"claude", "claude", some "anthropic", none, .implementation, none⟩
  reviewer
  baseRevision := "base"
  candidateRevision := none
  changedFiles := [⟨"src/lib.rs", .modified, none, []⟩]
  diff := ⟨"hash", "text/x-diff", 2, "repo", "base", "diff", false, 0⟩
  disclosedDiff := ""
  contracts := []
  invariants := []
  verification := []
  priorFindings := []
  budget := ⟨10000, 10000⟩
  manifest := ⟨"manifest", "hash", [], [], 0, 0⟩

/-- A violation that was resolved, of an invariant that the request does not hold. -/
def finding : ReviewFinding where
  findingId := "F-1"
  category := .invariantViolation
  severity := .high
  blocking := true
  title := "Layering"
  claim := "Resolved. The module imported the storage crate."
  evidence := [.fileRange "src/lib.rs" ⟨1, 2⟩, .invariant "docs/layers.md" "Layers" "hash"]
  remediation := "Import the trait."
  status := .resolved
  supersedes := none
  acceptanceCriterionId := none

def result : ReviewResult where
  reviewId := "review"
  reviewer := ⟨reviewer, none, none, []⟩
  startedAt := "2026-07-01T00:00:00Z"
  endedAt := "2026-07-01T00:01:00Z"
  durationMs := 60000
  findings := [finding]
  reviewedManifestHash := "manifest"
  usage := {}
  disposition := .readyForHumanApproval
  unavailableFields := []

theorem applyAndValidate_result : policy.applyAndValidate request result =
    .ok { result with findings := [{ finding with blocking := false }] } := by
  decide +kernel

end ResolvedFinding

end FamiliarAi
