import FamiliarAi.Core.Outcome
import FamiliarAi.Review.ExpectedFiles

/-!
# Records of the review crate

The data that the review of a candidate works on: the task, the captured change, the evidence of the
verification checks, the findings of the reviewer, the scope policy with its evaluation, and the
cycle in which a whole review is recorded.

Amounts of type `u64` are natural numbers. A map from names to texts is the list of its entries in
the order of the names, which is the order in which it is written out.
-/

namespace FamiliarAi

abbrev TextMap := List (String × String)

def TextMap.set (name text : String) : TextMap → TextMap
  | [] => [(name, text)]
  | entry :: entries =>
    if name < entry.1 then (name, text) :: entry :: entries
    else if name = entry.1 then (name, text) :: entries
    else entry :: TextMap.set name text entries

/-- The entries of both maps; the second one wins. -/
def TextMap.merge (m m' : TextMap) : TextMap :=
  m'.foldl (fun m entry ↦ TextMap.set entry.1 entry.2 m) m

inductive AgentRole
  | implementation
  | review
  | remediation
  deriving DecidableEq

structure AgentAssignment where
  adapterId : String
  agentId : String
  provider : Option String
  requestedModel : Option String
  role : AgentRole
  sessionId : Option String
  deriving DecidableEq

structure AgentObservation where
  assignment : AgentAssignment
  agentVersion : Option String
  reportedModel : Option String
  unavailableFields : TextMap
  deriving DecidableEq

/-- What an execution used. `none` is an amount that was not reported. -/
structure ExecutionUsage where
  inputTokens : Option ℕ := none
  outputTokens : Option ℕ := none
  cachedTokens : Option ℕ := none
  totalTokens : Option ℕ := none
  estimatedCostMicrousd : Option ℕ := none
  pricingProvenance : Option String := none
  unavailableFields : TextMap := []
  deriving DecidableEq

/-- Add two amounts. Adding an unknown amount gives an unknown one; an overflow is `none`. -/
def addAmounts : Option ℕ → Option ℕ → Option (Option ℕ)
  | some left, some right => (checkedAdd left right).map some
  | _, _ => some none

/-- Add two usages, unless an amount overflows. -/
def ExecutionUsage.checkedAdd (usage other : ExecutionUsage) : Option ExecutionUsage := do
  let inputTokens ← addAmounts usage.inputTokens other.inputTokens
  let outputTokens ← addAmounts usage.outputTokens other.outputTokens
  let cachedTokens ← addAmounts usage.cachedTokens other.cachedTokens
  let totalTokens ← addAmounts usage.totalTokens other.totalTokens
  let estimatedCostMicrousd ← addAmounts usage.estimatedCostMicrousd other.estimatedCostMicrousd
  some
    { inputTokens, outputTokens, cachedTokens, totalTokens, estimatedCostMicrousd
      pricingProvenance :=
        if usage.pricingProvenance = other.pricingProvenance then usage.pricingProvenance else none
      unavailableFields := TextMap.merge usage.unavailableFields other.unavailableFields }

/-! ### The task and the change -/

structure ReviewTask where
  taskId : String
  objective : String
  acceptanceCriteria : List String
  baseRevision : String
  allowedPaths : List String
  prohibitedChanges : List String
  verificationPlanId : String
  deriving DecidableEq

inductive GitChangeKind
  | added
  | modified
  | deleted
  | renamed
  | copied
  | typeChanged
  | unmerged
  deriving DecidableEq

structure LineRange where
  start : ℕ
  stop : ℕ
  deriving DecidableEq

structure ChangedFile where
  path : String
  kind : GitChangeKind
  oldPath : Option String
  lineSummary : List LineRange
  deriving DecidableEq

/-- A reference to retained evidence, such as an artifact of the store. -/
structure EvidenceRef where
  contentHash : String
  mediaType : String
  byteSize : ℕ
  repository : String
  revision : String
  storageRef : String
  truncated : Bool
  omittedBytes : ℕ
  deriving DecidableEq

/-- A diff as the collector captured it. -/
structure CapturedDiff where
  baseRevision : String
  resultingTree : String
  changedFiles : List ChangedFile
  diff : EvidenceRef
  bytes : List UInt8

structure BoundedDocument where
  source : String
  content : String
  contentHash : String
  selectionReason : String
  estimatedTokens : ℕ
  deriving DecidableEq

structure BoundedInvariant where
  source : String
  sectionTitle : String
  content : String
  contentHash : String
  selectionReason : String
  estimatedTokens : ℕ

structure VerificationCheck where
  checkId : String
  argv : List String
  workingDirectory : String
  environment : TextMap
  timeoutMs : ℕ
  required : Bool
  pathPrefixes : List String

structure VerificationPlan where
  planId : String
  checks : List VerificationCheck
  fullAfterRemediation : Bool

inductive VerificationStatus
  | passed
  | failed
  | environmentDenied
  | timedOut
  | signaled
  | unavailable
  | inconclusive
  | skipped
  deriving DecidableEq

structure VerificationEvidence where
  checkId : String
  argv : List String
  workingDirectory : String
  environmentIdentity : TextMap
  toolIdentity : Option String
  /-- What the check was run on. -/
  testedIdentity : String
  startedAt : String
  endedAt : String
  durationMs : ℕ
  exitCode : Option ℤ
  signal : Option ℤ
  status : VerificationStatus
  required : Bool
  summary : String
  stdout : Option EvidenceRef
  stderr : Option EvidenceRef
  truncated : Bool
  deriving DecidableEq

/-! ### Findings and reviews -/

inductive FindingCategory
  | correctnessDefect
  | invariantViolation
  | architecturalDrift
  | securityIssue
  | testGap
  | maintainabilityIssue
  | scopeViolation
  | unverifiableClaim
  deriving DecidableEq

/-- From the most severe one to the least. -/
inductive FindingSeverity
  | critical
  | high
  | medium
  | low
  | informational
  deriving DecidableEq

inductive FindingEvidence
  | fileRange (path : String) (range : LineRange)
  | diffHunk (path hunk : String)
  | verification (checkId : String) (output : EvidenceRef)
  | invariant (source sectionTitle sourceHash : String)
  | contract (source sectionTitle sourceHash : String)
  | artifact (artifact : EvidenceRef) (field : String)
  deriving DecidableEq

def FindingEvidence.path? : FindingEvidence → Option String
  | fileRange path _ | diffHunk path _ => some path
  | _ => none

def FindingEvidence.checkId? : FindingEvidence → Option String
  | verification checkId _ => some checkId
  | _ => none

inductive FindingStatus
  | opened
  | resolved
  | superseded
  | acceptedRisk
  | invalid
  deriving DecidableEq

structure ReviewFinding where
  findingId : String
  category : FindingCategory
  severity : FindingSeverity
  blocking : Bool
  title : String
  claim : String
  evidence : List FindingEvidence
  remediation : String
  status : FindingStatus
  supersedes : Option String
  acceptanceCriterionId : Option String
  deriving DecidableEq

/-- The finding is open, and it blocks or is linked to an acceptance criterion. -/
def ReviewFinding.Actionable (finding : ReviewFinding) : Prop :=
  finding.status = .opened ∧ (finding.blocking = true ∨ finding.acceptanceCriterionId.isSome = true)

instance : DecidablePred ReviewFinding.Actionable :=
  fun _ ↦ inferInstanceAs (Decidable (_ ∧ _))

/-- What a later review is told of a finding. -/
structure FindingReference where
  findingId : String
  status : FindingStatus
  claim : String
  category : FindingCategory
  evidence : List FindingEvidence

structure ReviewPackageBudget where
  maxBytes : ℕ
  maxEstimatedTokens : ℕ

structure PackageOmission where
  source : String
  contentHash : String
  byteSize : ℕ
  reason : String
  retainedRef : Option EvidenceRef
  deriving DecidableEq

structure ReviewPackageManifest where
  manifestHash : String
  diffHash : String
  includedSources : List String
  omissions : List PackageOmission
  totalBytes : ℕ
  estimatedTokens : ℕ

structure ReviewRequest where
  reviewId : String
  task : ReviewTask
  implementation : AgentAssignment
  reviewer : AgentAssignment
  baseRevision : String
  candidateRevision : Option String
  changedFiles : List ChangedFile
  diff : EvidenceRef
  disclosedDiff : String
  contracts : List BoundedDocument
  invariants : List BoundedInvariant
  verification : List VerificationEvidence
  priorFindings : List FindingReference
  budget : ReviewPackageBudget
  manifest : ReviewPackageManifest

inductive ReviewDisposition
  | pending
  | remediationRequired
  | readyForHumanApproval
  | humanReviewRequired
  | rejected
  deriving DecidableEq

structure ReviewResult where
  reviewId : String
  reviewer : AgentObservation
  startedAt : String
  endedAt : String
  durationMs : ℕ
  findings : List ReviewFinding
  reviewedManifestHash : String
  usage : ExecutionUsage
  disposition : ReviewDisposition
  unavailableFields : TextMap
  deriving DecidableEq

/-! ### Scope -/

inductive ScopeDisposition
  | contained
  | broadened
  | humanReviewRequired
  deriving DecidableEq

inductive ScopeFileClass
  | ordinarySource
  | dependencyManifest
  | dependencyLockfile
  | migration
  | configuration
  | test
  | generatedArtifact
  | ambiguous
  deriving DecidableEq

inductive ScopeDecision
  | allowedChange
  | justifiedExpectedFileChange
  | prohibitedChange
  | undeclaredScopeExpansion
  | ambiguousHumanReview
  deriving DecidableEq

inductive ScopeRuleSource
  | builtIn
  | configuration
  | expectedFiles
  | evidenceValidation
  deriving DecidableEq

structure ExpectedFileMatch where
  normalized : String
  sourceLine : ℕ
  matchKind : ExpectedMatchKind
  deriving DecidableEq

/-- What the policy says about one side of one change. -/
structure ScopeFinding where
  findingId : String
  changeId : String
  path : String
  oldPath : Option String
  changeKind : GitChangeKind
  fileClass : ScopeFileClass
  decision : ScopeDecision
  ruleId : String
  ruleSource : ScopeRuleSource
  ruleDetail : String
  expectedFileMatch : Option ExpectedFileMatch
  allowedPathMatch : Option String
  prohibitedRuleMatch : Option String
  policySnapshotHash : String
  deriving DecidableEq

/-- The check of the scope in one phase of a cycle, as it is recorded. -/
structure ScopeCheckResult where
  added : List String
  modified : List String
  deleted : List String
  renamed : List (String × String)
  disposition : ScopeDisposition
  findings : List ScopeFinding
  policySnapshotHash : String
  phase : String
  deriving DecidableEq

inductive ScopeDeclarationMode
  | expectedOrConfigured
  | expectedRequired
  deriving DecidableEq

inductive ScopeClassPolicy
  | deny
  | humanReview
  | allowWhenExpected
  | allowWhenConfigured
  | allow
  deriving DecidableEq

structure ScopeFileClassPolicies where
  dependencyManifest : ScopeClassPolicy := .humanReview
  dependencyLockfile : ScopeClassPolicy := .humanReview
  migration : ScopeClassPolicy := .humanReview
  configuration : ScopeClassPolicy := .humanReview
  test : ScopeClassPolicy := .allowWhenExpected
  generatedArtifact : ScopeClassPolicy := .humanReview
  deriving DecidableEq

structure ScopePathEntry where
  normalized : String
  matchKind : ExpectedMatchKind
  deriving DecidableEq

inductive ProhibitedRuleKind
  | path (entry : ScopePathEntry)
  | fileClass (fileClass : ScopeFileClass)
  deriving DecidableEq

structure ProhibitedRule where
  ruleId : String
  rule : ProhibitedRuleKind
  changeKinds : List GitChangeKind
  description : Option String
  deriving DecidableEq

structure ScopeClassificationRule where
  ruleId : String
  fileClass : ScopeFileClass
  entry : ScopePathEntry
  source : ScopeRuleSource
  precedence : Option ℕ
  deriving DecidableEq

/-- A compiled scope policy. -/
structure ScopePolicySnapshot where
  schemaVersion : String
  prdPath : String
  prdContentHash : String
  contract : List ExpectedFileEntry
  allowedPaths : List ScopePathEntry
  allowPrdExpectedFileExpansion : Bool
  declarationMode : ScopeDeclarationMode
  prohibitedRules : List ProhibitedRule
  fileClassPolicies : ScopeFileClassPolicies
  classificationRules : List ScopeClassificationRule
  builtinRulesVersion : String
  baselineRevision : String
  configProvenance : String
  snapshotHash : String
  deriving DecidableEq

structure ScopeEvaluation where
  findings : List ScopeFinding
  disposition : ScopeDisposition

/-- What the implementer is told of the policy. -/
structure ScopeRuleSummary where
  policySnapshotHash : String
  authorizedPaths : List ScopePathEntry
  expectedFiles : List ExpectedFileEntry
  prohibitedRules : List ProhibitedRule
  fileClassPolicies : ScopeFileClassPolicies
  blockingScopeFindings : List ScopeFinding

/-- A check that the implementer is told to satisfy. The text of the source is made of the command. -/
structure RemediationCheck where
  checkId : String
  argv : List String

structure RemediationBudget where
  maxTokens : Option ℕ
  maxCostMicrousd : Option ℕ
  maxDurationMs : ℕ

structure RemediationRequest where
  remediationId : String
  cycleId : String
  task : ReviewTask
  implementation : AgentAssignment
  baseRevision : String
  allowedPaths : List String
  prohibitedPaths : List String
  blockingFindings : List ReviewFinding
  relevantDiff : EvidenceRef
  relevantContracts : List BoundedDocument
  relevantInvariants : List BoundedInvariant
  verificationFailures : List VerificationEvidence
  acceptanceChecks : List RemediationCheck
  budget : RemediationBudget
  scopeRules : Option ScopeRuleSummary

structure ExecutionObservation where
  exitCode : Option ℤ
  signal : Option ℤ
  outcome : String
  deriving DecidableEq

structure FindingResolution where
  findingId : String
  claimedOutcome : String
  evidence : List FindingEvidence
  reviewerStatus : Option FindingStatus
  deriving DecidableEq

structure RemediationResult where
  remediationId : String
  implementation : AgentObservation
  startedAt : String
  endedAt : String
  durationMs : ℕ
  execution : ExecutionObservation
  addressedFindings : List FindingResolution
  changedFiles : List ChangedFile
  resultingDiff : EvidenceRef
  scopeCheck : ScopeCheckResult
  usage : ExecutionUsage
  unavailableFields : TextMap
  deriving DecidableEq

inductive ReviewTier
  | checksOnly
  | standard
  | batch
  | full
  deriving DecidableEq

structure ReviewTierRule where
  id : String
  tier : ReviewTier
  pathPrefixes : List String
  maxChangedFiles : Option ℕ
  maxChangedBytes : Option ℕ
  changeKinds : List GitChangeKind
  scopeClasses : List ScopeFileClass

structure ReviewTierPolicy where
  fullReviewRiskClasses : List String
  batchRiskClasses : List String
  rules : List ReviewTierRule

structure ReviewFootprint where
  changedFiles : ℕ
  changedBytes : ℕ
  files : List String
  changeKinds : List GitChangeKind
  scopeClasses : List ScopeFileClass
  deriving DecidableEq

structure ReviewTierSelection where
  tier : ReviewTier
  selectingRule : Option String
  reason : String
  footprint : ReviewFootprint
  deriving DecidableEq

inductive IndependenceKind
  | independentProviderOrModel
  | isolatedSameModelFallback
  deriving DecidableEq

structure ReviewerIndependence where
  kind : IndependenceKind
  evidence : List String
  deriving DecidableEq

structure AdapterIsolationEvidence where
  adapterId : String
  freshProcessPerExecution : Bool
  detail : String

/-- A human decision that excuses a finding. -/
structure ReviewWaiver where
  waiverId : String
  cycleId : String
  findingId : String
  actor : String
  reason : String
  createdAt : String
  deriving DecidableEq

inductive StageKind
  | implementation
  | verification
  | review
  | remediation
  deriving DecidableEq

structure StageExecution where
  stageId : String
  kind : StageKind
  startedAt : String
  endedAt : String
  durationMs : ℕ
  outcome : String
  usage : ExecutionUsage
  unavailableFields : TextMap
  requestArtifact : Option EvidenceRef
  responseArtifact : Option EvidenceRef
  deriving DecidableEq

inductive ReviewCycleState
  | collectingEvidence
  | verifying
  | awaitingReview
  | reviewed
  | remediating
  | reverifying
  | completed
  | humanReviewRequired
  | interrupted
  deriving DecidableEq

inductive ReviewStopReason
  | retryLimitExhausted
  | tokenLimitExhausted
  | costLimitExhausted
  | durationLimitExhausted
  | conflictingFindings
  | scopeBroadened
  | scopeAmbiguous
  | architecturalApprovalRequired
  | verificationUnsuccessful
  | environmentDenied
  | narrationContradiction
  | openFindingUnwaived
  | noIndependentReviewer
  | malformedReview
  | agentFailure
  | evidenceFailure
  | interrupted
  | cleanReview
  deriving DecidableEq

structure ReviewCycle where
  cycleId : String
  taskId : String
  repositoryKey : String
  attempt : ℕ
  state : ReviewCycleState
  implementation : AgentObservation
  implementationExecution : Option StageExecution
  reviewer : Option AgentObservation
  independence : Option ReviewerIndependence
  reviewRequest : Option EvidenceRef
  reviewResult : Option ReviewResult
  remediationRequest : Option EvidenceRef
  remediationResult : Option RemediationResult
  verificationBeforeReview : List VerificationEvidence
  verificationAfterRemediation : List VerificationEvidence
  verificationHistory : List VerificationEvidence
  waivers : List ReviewWaiver
  scopePolicySnapshot : Option EvidenceRef
  scopeEvaluations : List ScopeCheckResult
  tierSelection : Option ReviewTierSelection
  /-- The cycle waits for a review that was submitted to a provider as a batch. -/
  batchPending : Bool
  aggregateUsage : ExecutionUsage
  aggregateDurationMs : ℕ
  startedAt : String
  endedAt : Option String
  disposition : ReviewDisposition
  stopReasons : List ReviewStopReason
  stopDetail : Option String
  reviewAttempts : List StageExecution
  remediationAttempts : List StageExecution
  deriving DecidableEq

/-- The evidence that stands for the candidate as it is: what was found after the last remediation,
or before the review when nothing was. -/
def ReviewCycle.currentVerification (cycle : ReviewCycle) : List VerificationEvidence :=
  if cycle.verificationAfterRemediation = [] then cycle.verificationBeforeReview
  else cycle.verificationAfterRemediation

end FamiliarAi
