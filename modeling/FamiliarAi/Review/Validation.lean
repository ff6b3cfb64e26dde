import FamiliarAi.Review.Scope

/-!
# Validating a review

What a reviewer returns is checked against the package that it was shown, and the program decides
anew which findings block. A finding needs the evidence that its category calls for, and nothing that
an earlier review left open may be passed over.
-/

namespace FamiliarAi

open Text

structure BlockingPolicy where
  blockingSeverities : List FindingSeverity
  blockingCategories : List FindingCategory
  blockingCategoryFloor : FindingSeverity

def BlockingPolicy.isBlocking (policy : BlockingPolicy) (category : FindingCategory)
    (severity : FindingSeverity) : Bool :=
  (category ∈ policy.blockingCategories &&
    decide (severity.ctorIdx ≤ policy.blockingCategoryFloor.ctorIdx)) ||
      severity ∈ policy.blockingSeverities

/-- Why a review is rejected. -/
inductive ReviewValidationError
  | reviewIdMismatch
  | manifestMismatch
  | staleVerification
  | duplicateFindingId
  | unsupportedFinding (findingId : String)
  | invalidEvidence
  | agentAcceptedRisk
  | priorFindingNotDisposed
  | categoryEvidenceMismatch (findingId : String)
  | narrationContradiction (checkId : String)
  deriving DecidableEq

/-- The text is white space only. -/
def Blank (text : String) : Prop :=
  trim text.toList = []

instance : DecidablePred Blank :=
  fun _ ↦ inferInstanceAs (Decidable (_ = _))

/-- The evidence can be looked up in the package. -/
def FindingEvidence.ResolvableIn (paths checks : List String) : FindingEvidence → Prop
  | fileRange path range =>
    ValidRepositoryPath path ∧ path ∈ paths ∧ 0 < range.start ∧ range.start ≤ range.stop
  | diffHunk path hunk => ValidRepositoryPath path ∧ path ∈ paths ∧ StartsWith hunk "@@"
  | verification checkId output => checkId ∈ checks ∧ output.contentHash ≠ ""
  | invariant source sectionTitle sourceHash | contract source sectionTitle sourceHash =>
    ValidRepositoryPath source ∧ ¬Blank sectionTitle ∧ sourceHash ≠ ""
  | artifact reference field => reference.contentHash ≠ "" ∧ ¬Blank field

instance (paths checks : List String) : DecidablePred (FindingEvidence.ResolvableIn paths checks) :=
  fun evidence ↦ by cases evidence <;> exact inferInstanceAs (Decidable (_ ∧ _))

def FindingEvidence.isFile : FindingEvidence → Bool
  | fileRange .. | diffHunk .. => true
  | _ => false

def FindingEvidence.isCheck : FindingEvidence → Bool
  | verification .. => true
  | _ => false

def FindingEvidence.isAuthority : FindingEvidence → Bool
  | invariant .. | contract .. => true
  | _ => false

def FindingEvidence.isArtifact : FindingEvidence → Bool
  | artifact .. => true
  | _ => false

def ReviewFinding.hasCategoryEvidence (finding : ReviewFinding) : Bool :=
  let hasFile := finding.evidence.any FindingEvidence.isFile
  let hasCheck := finding.evidence.any FindingEvidence.isCheck
  let hasAuthority := finding.evidence.any FindingEvidence.isAuthority
  let hasArtifact := finding.evidence.any FindingEvidence.isArtifact
  match finding.category with
  | .correctnessDefect => hasFile && hasCheck
  | .invariantViolation | .architecturalDrift => hasAuthority && (hasFile || hasCheck)
  | .securityIssue => hasFile || hasArtifact
  | .testGap => hasFile || hasCheck
  | .maintainabilityIssue => hasFile && (hasAuthority || hasCheck)
  | .scopeViolation => hasFile
  | .unverifiableClaim => hasCheck || hasArtifact

def checkFinding (paths checks ids : List String) (finding : ReviewFinding) :
    Except ReviewValidationError Unit := do
  if finding.findingId = "" ∨ finding.findingId ∈ ids then throw .duplicateFindingId
  if Blank finding.title ∨ Blank finding.claim ∨ Blank finding.remediation ∨
      finding.evidence = [] then
    throw (.unsupportedFinding finding.findingId)
  if ¬∀ evidence ∈ finding.evidence, evidence.ResolvableIn paths checks then throw .invalidEvidence
  if ¬finding.hasCategoryEvidence then throw (.categoryEvidenceMismatch finding.findingId)
  if finding.status = .acceptedRisk then throw .agentAcceptedRisk

def BlockingPolicy.apply (policy : BlockingPolicy) (finding : ReviewFinding) : ReviewFinding :=
  { finding with
    blocking := decide (finding.status = .opened) &&
      policy.isBlocking finding.category finding.severity }

def checkFindings (policy : BlockingPolicy) (paths checks : List String) :
    List String → List ReviewFinding → Except ReviewValidationError (List ReviewFinding)
  | _, [] => .ok []
  | ids, finding :: findings => do
    checkFinding paths checks ids finding
    let rest ← checkFindings policy paths checks (finding.findingId :: ids) findings
    return policy.apply finding :: rest

def DisposesOf (findings : List ReviewFinding) (prior : FindingReference) : Prop :=
  match findings.find? (·.findingId = prior.findingId) with
  | none => False
  | some finding =>
    finding.status ≠ .acceptedRisk ∧
      (finding.status = .superseded → finding.supersedes.isSome = true)

instance (findings : List ReviewFinding) : DecidablePred (DisposesOf findings) := fun prior ↦ by
  unfold DisposesOf
  split <;> infer_instance

/-- A required check that did not pass. -/
def VerificationEvidence.Failing (evidence : VerificationEvidence) : Prop :=
  evidence.required = true ∧ evidence.status ≠ .passed

instance : DecidablePred VerificationEvidence.Failing :=
  fun _ ↦ inferInstanceAs (Decidable (_ ∧ _))

def durableDisposition (verification : List VerificationEvidence) (findings : List ReviewFinding) :
    ReviewDisposition :=
  if (∃ e ∈ verification, e.Failing) ∨ ∃ f ∈ findings, f.Actionable then .remediationRequired
  else .readyForHumanApproval

def BlockingPolicy.applyAndValidate (policy : BlockingPolicy) (request : ReviewRequest)
    (result : ReviewResult) : Except ReviewValidationError ReviewResult := do
  if result.reviewId ≠ request.reviewId then throw .reviewIdMismatch
  if result.reviewedManifestHash ≠ request.manifest.manifestHash then throw .manifestMismatch
  if ∃ e ∈ request.verification, e.testedIdentity ≠ request.diff.contentHash then
    throw .staleVerification
  let findings ← checkFindings policy (request.changedFiles.map (·.path))
    (request.verification.map (·.checkId)) [] result.findings
  if ¬∀ prior ∈ request.priorFindings, DisposesOf findings prior then throw .priorFindingNotDisposed
  let disposition := durableDisposition request.verification findings
  if result.disposition ≠ .pending ∧ result.disposition ≠ disposition then
    throw (.narrationContradiction <|
      match request.verification.find? fun e ↦ e.Failing with
      | some e => e.checkId
      | none => "review findings")
  return { result with findings, disposition }

def checkIndependence (implementation reviewer : AgentAssignment) (allowSame : Bool)
    (isolation : Option AdapterIsolationEvidence) : Option ReviewerIndependence :=
  if implementation.adapterId = reviewer.adapterId ∧ implementation.sessionId.isSome = true ∧
      implementation.sessionId = reviewer.sessionId then none
  else if implementation.provider ≠ reviewer.provider ∨
      implementation.requestedModel ≠ reviewer.requestedModel then
    some ⟨.independentProviderOrModel, ["configured provider or model differs"]⟩
  else
    match isolation with
    | some evidence =>
      if allowSame = true ∧ evidence.freshProcessPerExecution = true ∧
          evidence.adapterId = reviewer.adapterId then
        some ⟨.isolatedSameModelFallback, [evidence.detail]⟩
      else none
    | none => none

end FamiliarAi
