import FamiliarAi.Interaction.Basic
import FamiliarAi.Review.Package
import FamiliarAi.Review.Tier
import FamiliarAi.Review.Validation

/-!
# The review coordinator

One review of a candidate: its change is captured and held against the scope policy, the checks of
the verification plan are run, an independent reviewer looks at it, and what fails or is found goes
back to the implementer, within the attempts and the budget that the limits allow.

The coordinator is a program over the parties it talks to: the collector, the verifier, the reviewer,
the implementer and the store. It leaves early whenever the cycle stops; the loops never end in any
other way.
-/

namespace FamiliarAi

open Interaction

structure WorkflowLimits where
  maxReviewAttempts : ℕ
  maxRemediationAttempts : ℕ
  maxTotalTokens : Option ℕ
  maxTotalCostMicrousd : Option ℕ
  maxTotalDurationMs : Option ℕ
  reviewReservationTokens : Option ℕ
  remediationReservationTokens : Option ℕ
  actionReservationCostMicrousd : Option ℕ
  actionReservationDurationMs : ℕ

inductive CoordinatorError
  | invalidLimits
  | persistence (message : String)
  | remediation (message : String)
  | reviewCapabilityOutage (message : String)
  | accountingOverflow
  | unknownUsage
  | unknownCost
  | limit (reason : ReviewStopReason)

/-- The limits are usable: attempts are allowed, and at least one ceiling is finite. -/
def WorkflowLimits.validate (limits : WorkflowLimits) : Except CoordinatorError Unit :=
  if limits.maxReviewAttempts = 0 ∨ limits.maxRemediationAttempts = 0 then .error .invalidLimits
  else if limits.maxTotalTokens = none ∧ limits.maxTotalCostMicrousd = none ∧
      limits.maxTotalDurationMs = none then .error .invalidLimits
  else .ok ()

structure CoordinationRequest where
  cycleId : String
  repositoryKey : String
  task : ReviewTask
  implementation : AgentObservation
  reviewer : AgentAssignment
  standardReviewer : Option AgentAssignment
  tierPolicy : ReviewTierPolicy
  declaredRiskClasses : List String
  contracts : List BoundedDocument
  invariants : List BoundedInvariant
  verificationPlan : VerificationPlan
  packageBudget : ReviewPackageBudget
  limits : WorkflowLimits
  allowSameModelFallback : Bool
  implementationUsage : ExecutionUsage
  implementationDurationMs : ℕ
  scopePolicy : ScopePolicySnapshot
  approvedScopeFindings : List String

/-- How a run ends. -/
abbrev Outcome := Except CoordinatorError ReviewCycle

/-- Why a review was not made. -/
inductive ReviewExecutionError
  | agent (message : String)
  | capabilityIncompatible (worker : String) (reason : ReviewCapabilityReason)
  | parked (batchId : String)

/-- What is stored for a cycle beside the cycle. -/
inductive Artifact
  | scopePolicySnapshot (snapshot : ScopePolicySnapshot)
  | remediationRequest (request : RemediationRequest)
  | remediationResult (result : RemediationResult)
  | reviewRequest (request : ReviewRequest)
  | reviewResult (result : ReviewResult)

/-- Which reviewer is asked: the interactive one or the one for batches. -/
inductive ReviewerKind
  | interactive
  | batch

/-- What the coordinator asks of the parties. -/
inductive CoordinatorOp
  | loadCycle (cycleId : String)
  | saveCycle (cycle : ReviewCycle)
  | saveArtifact (artifact : Artifact)
  | capture (baseRevision : String)
  | collectScopeEvidence (files : List ChangedFile) (diff : List UInt8)
  | verify (check : VerificationCheck) (identity : String)
  | isolationEvidence (reviewer : ReviewerKind)
  | review (reviewer : ReviewerKind) (request : ReviewRequest)
  | remediate (request : RemediationRequest)
  /-- The current time, as a text. -/
  | now
  /-- The milliseconds since the execution of the agent was started. -/
  | elapsed

abbrev CoordinatorOp.Answer : CoordinatorOp → Type
  | loadCycle _ => Except String (Option ReviewCycle)
  | saveCycle _ => Except String Unit
  | saveArtifact _ => Except String EvidenceRef
  | capture _ => Except String CapturedDiff
  | collectScopeEvidence _ _ => Except String ScopeEvidence
  | verify _ _ => Except String VerificationEvidence
  | isolationEvidence _ => Option AdapterIsolationEvidence
  | review _ _ => Except ReviewExecutionError ReviewResult
  | remediate _ => Except String RemediationResult
  | now => String
  | elapsed => ℕ

/-- The coordinator leaves with the outcome of the run. -/
abbrev Coordination := Program CoordinatorOp CoordinatorOp.Answer Outcome

/-- What was asked and answered in a run, the last first. -/
abbrev Transcript := History CoordinatorOp CoordinatorOp.Answer

/-- What is behind the operations. -/
abbrev Parties := Environment CoordinatorOp CoordinatorOp.Answer

namespace Coordination

variable {α : Type}

def ask (op : CoordinatorOp) : Coordination op.Answer :=
  Program.perform op

def leave (outcome : Outcome) : Coordination α :=
  Program.exit outcome

end Coordination

open Coordination

section Stages

variable {α : Type}

def saveCycle (cycle : ReviewCycle) : Coordination Unit := do
  match ← ask (.saveCycle cycle) with
  | .ok _ => pure ()
  | .error message => leave (.error (.persistence message))

def saveArtifact (artifact : Artifact) (wrap : String → CoordinatorError) :
    Coordination EvidenceRef := do
  match ← ask (.saveArtifact artifact) with
  | .ok reference => pure reference
  | .error message => leave (.error (wrap message))

def ReviewCycle.stopped (cycle : ReviewCycle) (reason : ReviewStopReason) (endedAt : String) :
    ReviewCycle :=
  { cycle with
    state := if reason = .cleanReview then .completed else .humanReviewRequired
    disposition := if reason ≠ .cleanReview then .humanReviewRequired else cycle.disposition
    stopReasons := cycle.stopReasons ++ [reason]
    endedAt := some endedAt }

def stop (cycle : ReviewCycle) (reason : ReviewStopReason) : Coordination α := do
  let endedAt ← ask .now
  let cycle := cycle.stopped reason endedAt
  saveCycle cycle
  leave (.ok cycle)

def stopWithDetail (cycle : ReviewCycle) (reason : ReviewStopReason) (detail : String) :
    Coordination α :=
  stop (if Blank detail then cycle else { cycle with stopDetail := some detail }) reason

inductive Action
  | review
  | remediation
  | verification
  deriving DecidableEq

def WorkflowLimits.tokens (limits : WorkflowLimits) : Action → Option ℕ
  | .review => limits.reviewReservationTokens
  | .remediation => limits.remediationReservationTokens
  | .verification => some 0

def reserveAmount (maximum used reserved : Option ℕ) (unknown : CoordinatorError)
    (reason : ReviewStopReason) : Except CoordinatorError Unit :=
  match maximum with
  | none => .ok ()
  | some maximum =>
    match used, reserved with
    | some used, some reserved =>
      match checkedAdd used reserved with
      | some total => if maximum < total then .error (.limit reason) else .ok ()
      | none => .error .accountingOverflow
    | _, _ => .error unknown

/-- An action may start: its reservation is within every finite ceiling. -/
def reserve (limits : WorkflowLimits) (cycle : ReviewCycle) (action : Action) :
    Except CoordinatorError Unit := do
  reserveAmount limits.maxTotalTokens cycle.aggregateUsage.totalTokens (limits.tokens action)
    .unknownUsage .tokenLimitExhausted
  reserveAmount limits.maxTotalCostMicrousd cycle.aggregateUsage.estimatedCostMicrousd
    limits.actionReservationCostMicrousd .unknownCost .costLimitExhausted
  reserveAmount limits.maxTotalDurationMs (some cycle.aggregateDurationMs)
    (some limits.actionReservationDurationMs) .accountingOverflow .durationLimitExhausted

def limitReason : CoordinatorError → ReviewStopReason
  | .limit reason => reason
  | .unknownUsage => .tokenLimitExhausted
  | .unknownCost => .costLimitExhausted
  | .accountingOverflow => .durationLimitExhausted
  | _ => .evidenceFailure

def reserveOrStop (limits : WorkflowLimits) (cycle : ReviewCycle) (action : Action) :
    Coordination Unit :=
  match reserve limits cycle action with
  | .ok _ => pure ()
  | .error e => stop cycle (limitReason e)

def addUsage (cycle : ReviewCycle) (usage : ExecutionUsage) : Coordination ReviewCycle :=
  match cycle.aggregateUsage.checkedAdd usage with
  | some total => pure { cycle with aggregateUsage := total }
  | none => stop cycle .tokenLimitExhausted

def addDuration (cycle : ReviewCycle) (duration : ℕ) : Coordination ReviewCycle :=
  match FamiliarAi.checkedAdd cycle.aggregateDurationMs duration with
  | some total => pure { cycle with aggregateDurationMs := total }
  | none => stop cycle .durationLimitExhausted

/-- The known amount is within the ceiling. -/
def Within (maximum used : Option ℕ) : Prop :=
  ∀ m ∈ maximum, ∃ u ∈ used, u ≤ m

instance decidableWithinMaximum (maximum used : Option ℕ) : Decidable (Within maximum used) := by
  unfold Within
  infer_instance

def budgetViolation (limits : WorkflowLimits) (cycle : ReviewCycle) : Option ReviewStopReason :=
  if ¬Within limits.maxTotalTokens cycle.aggregateUsage.totalTokens then some .tokenLimitExhausted
  else if ¬Within limits.maxTotalCostMicrousd cycle.aggregateUsage.estimatedCostMicrousd then
    some .costLimitExhausted
  else if ¬Within limits.maxTotalDurationMs (some cycle.aggregateDurationMs) then
    some .durationLimitExhausted
  else none

/-- Stop when a ceiling is exceeded. -/
def checkBudget (limits : WorkflowLimits) (cycle : ReviewCycle) : Coordination Unit :=
  match budgetViolation limits cycle with
  | some reason => stop cycle reason
  | none => pure ()

/-- What a stage used is added to the aggregate. -/
def charge (cycle : ReviewCycle) (usage : ExecutionUsage) (duration : ℕ) :
    Coordination ReviewCycle := do
  let cycle ← addUsage cycle usage
  addDuration cycle duration

/-- The names of the amounts of a usage, in order. -/
def usageFields : List String :=
  ["cached_tokens", "estimated_cost_microusd", "input_tokens", "output_tokens", "total_tokens"]

/-- The record of a stage whose agent failed. What it used is not known. -/
def failedStage (stageId : String) (kind : StageKind) (startedAt outcome : String) :
    Coordination StageExecution := do
  let endedAt ← ask .now
  let elapsed ← ask .elapsed
  let unavailable := usageFields.map (·, outcome)
  return { stageId, kind, startedAt, endedAt
           durationMs := min elapsed maxU64
           outcome
           usage := { unavailableFields := unavailable }
           unavailableFields := unavailable
           requestArtifact := none
           responseArtifact := none }

/-! ### Capturing the candidate -/

/-- What was captured of the candidate. -/
structure Observation where
  captured : CapturedDiff
  evidence : ScopeEvidence

def Observation.evaluation (o : Observation) (policy : ScopePolicySnapshot) : ScopeEvaluation :=
  evaluateScope policy o.captured.changedFiles o.evidence

/-- The record of the evaluation. -/
def Observation.scopeCheck (o : Observation) (policy : ScopePolicySnapshot) (phase : String) :
    ScopeCheckResult :=
  scopeCheckResult o.captured.changedFiles (o.evaluation policy) policy phase

def captureScope (request : CoordinationRequest) (cycle : ReviewCycle) :
    Coordination Observation := do
  match ← ask (.capture request.task.baseRevision) with
  | .error _ => stop cycle .evidenceFailure
  | .ok captured =>
    match ← ask (.collectScopeEvidence captured.changedFiles captured.bytes) with
    | .error _ => stop cycle .evidenceFailure
    | .ok evidence => pure ⟨captured, evidence⟩

/-- The cycle with the evaluation of the candidate and the tier that follows from it. -/
def ReviewCycle.observed (cycle : ReviewCycle) (request : CoordinationRequest) (o : Observation)
    (phase : String) : ReviewCycle :=
  let scope := o.scopeCheck request.scopePolicy phase
  { cycle with
    scopeEvaluations := cycle.scopeEvaluations ++ [scope]
    tierSelection := some (selectReviewTier request.tierPolicy request.declaredRiskClasses
      o.captured.changedFiles o.captured.diff.byteSize scope) }

def ScopeFinding.Covered (sha256 : Sha256) (approved : List String) (finding : ScopeFinding) : Prop :=
  match finding.decision with
  | .prohibitedChange => False
  | .ambiguousHumanReview | .undeclaredScopeExpansion =>
    scopeFindingSubstanceHash sha256 finding ∈ approved
  | .allowedChange | .justifiedExpectedFileChange => True

instance (sha256 : Sha256) (approved : List String) :
    DecidablePred (ScopeFinding.Covered sha256 approved) := fun finding ↦ by
  unfold ScopeFinding.Covered
  split <;> infer_instance

def humanReviewAbsorbed (sha256 : Sha256) (evaluation : ScopeEvaluation) (approved : List String) :
    Prop :=
  approved ≠ [] ∧ ∀ finding ∈ evaluation.findings, finding.Covered sha256 approved

instance (sha256 : Sha256) (evaluation : ScopeEvaluation) (approved : List String) :
    Decidable (humanReviewAbsorbed sha256 evaluation approved) :=
  inferInstanceAs (Decidable (_ ∧ _))

/-- Go on only when the change is contained, or approvals cover what is not. -/
def requireScope (sha256 : Sha256) (request : CoordinationRequest) (cycle : ReviewCycle)
    (evaluation : ScopeEvaluation) : Coordination Unit :=
  match evaluation.disposition with
  | .contained => pure ()
  | .broadened =>
    if humanReviewAbsorbed sha256 evaluation request.approvedScopeFindings then pure ()
    else stop cycle .scopeBroadened
  | .humanReviewRequired =>
    if humanReviewAbsorbed sha256 evaluation request.approvedScopeFindings then pure ()
    else stop cycle .scopeAmbiguous

/-- Which of the two records of the cycle evidence belongs to. -/
inductive VerificationPhase
  | beforeReview
  | afterRemediation

def ReviewCycle.record (cycle : ReviewCycle) (phase : VerificationPhase)
    (evidence : VerificationEvidence) : ReviewCycle :=
  match phase with
  | .beforeReview =>
    { cycle with
      verificationBeforeReview := cycle.verificationBeforeReview ++ [evidence]
      verificationHistory := cycle.verificationHistory ++ [evidence] }
  | .afterRemediation =>
    { cycle with
      verificationAfterRemediation := cycle.verificationAfterRemediation ++ [evidence]
      verificationHistory := cycle.verificationHistory ++ [evidence] }

def runCheck (limits : WorkflowLimits) (phase : VerificationPhase) (captured : CapturedDiff)
    (cycle : ReviewCycle) (check : VerificationCheck) : Coordination ReviewCycle := do
  reserveOrStop limits cycle .verification
  match ← ask (.verify check captured.diff.contentHash) with
  | .error message =>
    stopWithDetail cycle .verificationUnsuccessful
      ("verification '" ++ check.checkId ++ "' could not run: " ++ message)
  | .ok evidence =>
    let cycle ← addDuration (cycle.record phase evidence) evidence.durationMs
    checkBudget limits cycle
    return cycle

def runChecks (limits : WorkflowLimits) (phase : VerificationPhase) (captured : CapturedDiff)
    (checks : List VerificationCheck) (cycle : ReviewCycle) : Coordination ReviewCycle :=
  checks.foldlM (runCheck limits phase captured) cycle

/-- The checks that are run again after a remediation. -/
def relevantChecks (plan : VerificationPlan) (changed cited unsuccessful : List String) :
    List VerificationCheck :=
  plan.checks.filter fun check ↦
    plan.fullAfterRemediation || check.required || check.checkId ∈ cited ||
      check.checkId ∈ unsuccessful ||
      check.pathPrefixes.any fun p ↦ changed.any fun f ↦ Text.StartsWith f p

def failing (verification : List VerificationEvidence) : List VerificationEvidence :=
  verification.filter fun e ↦ e.Failing

/-- Run the checks again that bear on the candidate. -/
def reverify (request : CoordinationRequest) (captured : CapturedDiff)
    (cited unsuccessful : List String) (cycle : ReviewCycle) : Coordination ReviewCycle :=
  runChecks request.limits .afterRemediation captured
    (relevantChecks request.verificationPlan (captured.changedFiles.map (·.path)) cited unsuccessful)
    { cycle with state := .reverifying, verificationAfterRemediation := [] }

/-! ### Remediation -/

def VerificationStatus.debugName : VerificationStatus → String
  | passed => "Passed"
  | failed => "Failed"
  | environmentDenied => "EnvironmentDenied"
  | timedOut => "TimedOut"
  | signaled => "Signaled"
  | unavailable => "Unavailable"
  | inconclusive => "Inconclusive"
  | skipped => "Skipped"

def debugExitCode : Option ℤ → String
  | some code => "Some(" ++ toString code ++ ")"
  | none => "None"

def synthesizeCheckFailureFinding (cycleId : String) (attempt : ℕ)
    (evidence : VerificationEvidence) : ReviewFinding where
  findingId := cycleId ++ "-check-" ++ evidence.checkId ++ "-" ++ toString attempt
  category := .correctnessDefect
  severity := .critical
  blocking := true
  title := "Required check '" ++ evidence.checkId ++ "' failed"
  claim := "Required verification check '" ++ evidence.checkId ++ "' did not pass (status " ++
    evidence.status.debugName ++ ", exit_code " ++ debugExitCode evidence.exitCode ++ "). " ++
    String.ofList (Text.trim evidence.summary.toList)
  evidence := (evidence.stdout.toList ++ evidence.stderr.toList).map fun output ↦
    .verification evidence.checkId output
  remediation := "Fix the failure in required check '" ++ evidence.checkId ++
    "'; see the captured output for details."
  status := .opened
  supersedes := none
  acceptanceCriterionId := none

/-- What the implementer is asked to do. -/
def remediationRequest (request : CoordinationRequest) (cycle : ReviewCycle) (count : ℕ)
    (captured : CapturedDiff) (blocking : List ReviewFinding)
    (failures : List VerificationEvidence) : RemediationRequest where
  remediationId := cycle.cycleId ++ "-remediation-" ++ toString count
  cycleId := cycle.cycleId
  task := request.task
  implementation := request.implementation.assignment
  baseRevision := request.task.baseRevision
  allowedPaths := request.scopePolicy.allowedPaths.map (·.normalized)
  prohibitedPaths := request.scopePolicy.prohibitedRules.map (·.ruleId)
  blockingFindings := blocking
  relevantDiff := captured.diff
  relevantContracts := request.contracts
  relevantInvariants := request.invariants
  verificationFailures := failures
  acceptanceChecks := request.verificationPlan.checks.map fun c ↦ ⟨c.checkId, c.argv⟩
  budget := ⟨request.limits.remediationReservationTokens,
    request.limits.actionReservationCostMicrousd, request.limits.actionReservationDurationMs⟩
  scopeRules := some <| scopeRuleSummary request.scopePolicy <|
    match cycle.scopeEvaluations.getLast? with
    | some evaluation => evaluation.findings.filter fun f ↦ ¬f.decision.Grants
    | none => []

/-- Ask the implementer once. Without an answer the cycle goes on, unless this was the last attempt. -/
def remediate (request : CoordinationRequest) (count : ℕ) (captured : CapturedDiff)
    (blocking : List ReviewFinding) (failures : List VerificationEvidence) (cycle : ReviewCycle) :
    Coordination (ReviewCycle × Option RemediationResult) := do
  reserveOrStop request.limits cycle .remediation
  let cycle := { cycle with state := .remediating }
  let remediation := remediationRequest request cycle count captured blocking failures
  let reference ← saveArtifact (.remediationRequest remediation) .persistence
  let cycle := { cycle with remediationRequest := some reference }
  saveCycle cycle
  let started ← ask .now
  match ← ask (.remediate remediation) with
  | .ok result =>
    let artifact ← saveArtifact (.remediationResult result) .remediation
    let stage : StageExecution :=
      { stageId := remediation.remediationId
        kind := .remediation
        startedAt := result.startedAt
        endedAt := result.endedAt
        durationMs := result.durationMs
        outcome := result.execution.outcome
        usage := result.usage
        unavailableFields := result.unavailableFields
        requestArtifact := cycle.remediationRequest
        responseArtifact := some artifact }
    return ({ cycle with remediationAttempts := cycle.remediationAttempts ++ [stage] }, some result)
  | .error _ =>
    let stage ← failedStage remediation.remediationId .remediation started "agent_failure"
    let stage := { stage with requestArtifact := cycle.remediationRequest }
    let cycle ← charge cycle stage.usage stage.durationMs
    let cycle := { cycle with remediationAttempts := cycle.remediationAttempts ++ [stage] }
    saveCycle cycle
    if request.limits.maxRemediationAttempts ≤ count then stop cycle .agentFailure
    else return (cycle, none)

/-- Capture the candidate again after a remediation, and evaluate it. -/
def recapture (request : CoordinationRequest) (count : ℕ) (result : RemediationResult)
    (cycle : ReviewCycle) : Coordination (ReviewCycle × Observation) := do
  let cycle ← charge cycle result.usage result.durationMs
  checkBudget request.limits cycle
  let o ← captureScope request cycle
  return (cycle.observed request o ("remediation-" ++ toString count), o)

def ReviewCycle.remediated (cycle : ReviewCycle) (request : CoordinationRequest) (count : ℕ)
    (result : RemediationResult) (o : Observation) : ReviewCycle :=
  { cycle with
    remediationResult := some
      { result with
        changedFiles := o.captured.changedFiles
        resultingDiff := o.captured.diff
        scopeCheck := o.scopeCheck request.scopePolicy ("remediation-" ++ toString count) } }

/-- What one remediation of failing checks came to. -/
inductive CheckRound
  /-- Checks are failing still. -/
  | again (cycle : ReviewCycle) (captured : CapturedDiff) (failures : List VerificationEvidence)
  | passed (cycle : ReviewCycle) (captured : CapturedDiff)

/-- Whether a required check was denied its environment, which no remediation changes. -/
def environmentDenied (verification : List VerificationEvidence) : Bool :=
  verification.any fun e ↦ e.required && e.status = .environmentDenied

def checkRound (sha256 : Sha256) (request : CoordinationRequest) (count : ℕ) (cycle : ReviewCycle)
    (captured : CapturedDiff) (failures : List VerificationEvidence) : Coordination CheckRound := do
  let blocking := failures.map (synthesizeCheckFailureFinding cycle.cycleId count)
  match ← remediate request count captured blocking failures cycle with
  | (cycle, none) => return .again cycle captured failures
  | (cycle, some result) =>
    let (cycle, o) ← recapture request count result cycle
    let cycle := cycle.remediated request count result o
    saveCycle cycle
    requireScope sha256 request cycle (o.evaluation request.scopePolicy)
    let cited := failures.map (·.checkId)
    let cycle ← reverify request o.captured cited cited cycle
    let after := cycle.verificationAfterRemediation
    if environmentDenied after then stop cycle .environmentDenied
    else
      -- A check that was not run again has not passed.
      match failures.filter fun e ↦ !after.any fun a ↦ a.checkId = e.checkId with
      | [] => if failing after = [] then return .passed cycle o.captured
              else return .again cycle o.captured (failing after)
      | missing =>
        stopWithDetail cycle .verificationUnsuccessful
          ("re-verification produced no evidence for required check(s): " ++
            ", ".intercalate (missing.map (·.checkId)))

/-- Where a run stands: the candidate as it was captured last, and the remediations that were asked
for. -/
structure Progress where
  cycle : ReviewCycle
  captured : CapturedDiff
  remediations : ℕ

/-- Let the implementer remediate failing checks until they pass. -/
def remediateChecks (sha256 : Sha256) (request : CoordinationRequest) (count : ℕ)
    (cycle : ReviewCycle) (captured : CapturedDiff) (failures : List VerificationEvidence) :
    Coordination Progress :=
  if _hlimit : request.limits.maxRemediationAttempts ≤ count then stop cycle .retryLimitExhausted
  else do
    match ← checkRound sha256 request (count + 1) cycle captured failures with
    | .again cycle captured failures =>
      remediateChecks sha256 request (count + 1) cycle captured failures
    | .passed cycle captured => return ⟨cycle, captured, count + 1⟩
termination_by request.limits.maxRemediationAttempts - count

/-! ### Reviewing -/

/-- The text that two findings on one piece of evidence share. -/
def evidenceIdentity (finding : ReviewFinding) : List Char :=
  (Json.arr [.str finding.category.asStr, Json.array FindingEvidence.json finding.evidence]).render

/-- Two open findings call for different remediations of one thing. -/
def findingsConflict (findings : List ReviewFinding) : Bool :=
  (firstPair (fun left right ↦
    evidenceIdentity left = evidenceIdentity right ∧ left.remediation ≠ right.remediation ∧
      left.status = .opened ∧ right.status = .opened) findings).isSome

/-- The first ones of findings that make one claim on one piece of evidence. -/
def deduplicateFindings (findings : List ReviewFinding) : List ReviewFinding :=
  findings.eraseDupsBy fun a b ↦
    a.category = b.category ∧ evidenceIdentity a = evidenceIdentity b ∧ a.claim = b.claim

def adjudicatedPaths (sha256 : Sha256) (request : CoordinationRequest) (cycle : ReviewCycle) :
    List String :=
  ((cycle.scopeEvaluations.flatMap (·.findings)).filter fun f ↦
    f.Covered sha256 request.approvedScopeFindings).map (·.path)

/-- The finding claims a violation of the scope by paths that the cycle has found covered. -/
def ScopeClaimAdjudicated (adjudicated : List String) (finding : ReviewFinding) : Prop :=
  finding.category = .scopeViolation ∧
    finding.evidence.filterMap FindingEvidence.path? ≠ [] ∧
    ∀ path ∈ finding.evidence.filterMap FindingEvidence.path?, path ∈ adjudicated

instance (adjudicated : List String) : DecidablePred (ScopeClaimAdjudicated adjudicated) :=
  fun _ ↦ inferInstanceAs (Decidable (_ ∧ _ ∧ _))

def blockingFindings (adjudicated : List String) (findings : List ReviewFinding) :
    List ReviewFinding :=
  deduplicateFindings <| findings.filter fun f ↦
    f.Actionable ∧ ¬ScopeClaimAdjudicated adjudicated f

def carryForward (findings : List ReviewFinding) : List FindingReference :=
  (findings.filter (·.status = .opened)).map fun f ↦
    ⟨f.findingId, f.status, f.claim, f.category, f.evidence⟩

end Stages

structure ReviewCoordinator where
  policy : BlockingPolicy
  hasBatchReviewer : Bool
  sha256 : Sha256

section Review

variable (coordinator : ReviewCoordinator) (request : CoordinationRequest)

def ReviewCoordinator.activeReviewer (cycle : ReviewCycle) : ReviewerKind :=
  if coordinator.hasBatchReviewer = true ∧ cycle.tierSelection.map (·.tier) = some .batch then .batch
  else .interactive

def CoordinationRequest.reviewerFor (cycle : ReviewCycle) : AgentAssignment :=
  if cycle.tierSelection.map (·.tier) = some .standard then
    request.standardReviewer.getD request.reviewer
  else request.reviewer

/-- Where the reviews stand: the progress, the reviewer, and the findings left open by the last one. -/
structure ReviewState extends Progress where
  reviewer : AgentAssignment
  prior : List FindingReference

def CoordinationRequest.reviewPackage (s : ReviewState) (cycle : ReviewCycle) :
    ReviewPackageInput where
  reviewId := cycle.cycleId ++ "-review-" ++ toString cycle.attempt
  task := request.task
  implementation := request.implementation.assignment
  reviewer := s.reviewer
  candidateRevision := some s.captured.resultingTree
  captured := s.captured
  contracts := request.contracts
  invariants := request.invariants
  verification :=
    if s.remediations = 0 then cycle.verificationBeforeReview
    else cycle.verificationAfterRemediation
  priorFindings := s.prior
  budget := request.packageBudget

/-- A review that came to nothing. The cycle goes on, unless this was the last attempt. -/
def failReview (cycle : ReviewCycle) (started outcome : String) (usage : Option ExecutionUsage)
    (reason : ReviewStopReason) : Coordination ReviewCycle := do
  let stage ← failedStage (cycle.cycleId ++ "-review-" ++ toString cycle.attempt) .review started
    outcome
  let stage := { stage with
    usage := usage.getD stage.usage
    requestArtifact := cycle.reviewRequest }
  let cycle ← charge cycle stage.usage stage.durationMs
  let cycle := { cycle with reviewAttempts := cycle.reviewAttempts ++ [stage] }
  saveCycle cycle
  if cycle.attempt < request.limits.maxReviewAttempts then return cycle
  else stop cycle reason

def acceptReview (cycle : ReviewCycle) (result : ReviewResult) : Coordination ReviewCycle := do
  let artifact ← saveArtifact (.reviewResult result) .persistence
  let stage : StageExecution :=
    { stageId := cycle.cycleId ++ "-review-" ++ toString cycle.attempt
      kind := .review
      startedAt := result.startedAt
      endedAt := result.endedAt
      durationMs := result.durationMs
      outcome := "completed"
      usage := result.usage
      unavailableFields := result.unavailableFields
      requestArtifact := cycle.reviewRequest
      responseArtifact := some artifact }
  let cycle := { cycle with reviewAttempts := cycle.reviewAttempts ++ [stage] }
  let cycle ← charge cycle result.usage result.durationMs
  checkBudget request.limits cycle
  let cycle := { cycle with
    reviewer := some result.reviewer
    state := .reviewed
    reviewResult := some result }
  saveCycle cycle
  return cycle

/-- Ask the reviewer once. -/
def performReview (cycle : ReviewCycle) (package : ReviewRequest) :
    Coordination (ReviewCycle × Option ReviewResult) := do
  let reference ← saveArtifact (.reviewRequest package) .persistence
  let cycle := { cycle with reviewRequest := some reference }
  saveCycle cycle
  let started ← ask .now
  match ← ask (.review (coordinator.activeReviewer cycle) package) with
  | .ok raw =>
    match coordinator.policy.applyAndValidate package raw with
    | .ok result => return (← acceptReview request cycle result, some result)
    | .error _ =>
      return (← failReview request cycle started "malformed_review" (some raw.usage)
        .malformedReview, none)
  | .error (.capabilityIncompatible worker reason) =>
    leave (.error (.reviewCapabilityOutage
      ("review capability incompatible for worker " ++ worker ++ ": " ++ reason.display)))
  | .error (.parked _) =>
    let cycle := { cycle with batchPending := true }
    saveCycle cycle
    leave (.ok cycle)
  | .error (.agent _) =>
    return (← failReview request cycle started "agent_failure" none .agentFailure, none)

/-- What a review comes to: the findings to remediate. Without any the candidate is ready. -/
def judge (cycle : ReviewCycle) (result : ReviewResult) : Coordination (List ReviewFinding) := do
  if findingsConflict result.findings then stop cycle .conflictingFindings
  else
    let blocking :=
      blockingFindings (adjudicatedPaths coordinator.sha256 request cycle) result.findings
    if blocking = [] then stop { cycle with disposition := .readyForHumanApproval } .cleanReview
    else if blocking.any fun f ↦
        f.category = .architecturalDrift ∨ f.category = .invariantViolation then
      stop cycle .architecturalApprovalRequired
    else return blocking

/-- Let the implementer remediate findings until it answers. -/
def remediateFindings (count : ℕ) (captured : CapturedDiff) (blocking : List ReviewFinding)
    (cycle : ReviewCycle) : Coordination (ReviewCycle × ℕ × RemediationResult) :=
  if _hlimit : request.limits.maxRemediationAttempts ≤ count then stop cycle .retryLimitExhausted
  else do
    match ← remediate request (count + 1) captured blocking [] cycle with
    | (cycle, some result) => return (cycle, count + 1, result)
    | (cycle, none) => remediateFindings (count + 1) captured blocking cycle
termination_by request.limits.maxRemediationAttempts - count

/-- Capture and check the candidate again after the findings of a review were remediated. -/
def recheck (s : ReviewState) (blocking : List ReviewFinding) (result : ReviewResult)
    (remediation : RemediationResult) : Coordination ReviewState := do
  let (cycle, o) ← recapture request s.remediations remediation s.cycle
  let reviewer := request.reviewerFor cycle
  let isolation ← ask (.isolationEvidence .interactive)
  let independence := checkIndependence request.implementation.assignment reviewer
    request.allowSameModelFallback isolation
  let cycle := { cycle with independence }
  if independence = none then stop cycle .noIndependentReviewer
  else
    let cycle := cycle.remediated request s.remediations remediation o
    saveCycle cycle
    requireScope coordinator.sha256 request cycle (o.evaluation request.scopePolicy)
    let cited := (blocking.flatMap (·.evidence)).filterMap FindingEvidence.checkId?
    let unsuccessful :=
      (cycle.verificationBeforeReview.filter (·.status ≠ .passed)).map (·.checkId)
    let cycle ← reverify request o.captured cited unsuccessful cycle
    match failing cycle.verificationAfterRemediation with
    | [] =>
      return { cycle, captured := o.captured, remediations := s.remediations, reviewer
               prior := carryForward result.findings }
    | failed =>
      stopWithDetail cycle .verificationUnsuccessful
        ("required check(s) ran and did not pass: " ++ "; ".intercalate (failed.map fun e ↦
          e.checkId ++ " (" ++ e.status.debugName ++ "): " ++ e.summary))

/-- One review, and the remediation of what it finds. -/
def reviewRound (attempt : ℕ) (s : ReviewState) : Coordination ReviewState := do
  reserveOrStop request.limits s.cycle .review
  let cycle := { s.cycle with attempt, state := .awaitingReview }
  match buildReviewRequest coordinator.sha256 (request.reviewPackage s cycle) with
  | .error _ => stop cycle .evidenceFailure
  | .ok package =>
    match ← performReview coordinator request cycle package with
    | (cycle, none) => return { s with cycle }
    | (cycle, some result) =>
      let blocking ← judge coordinator request cycle result
      let (cycle, remediations, remediation) ←
        remediateFindings request s.remediations s.captured blocking cycle
      recheck coordinator request { s with cycle, remediations } blocking result remediation

/-- Review the candidate until the cycle stops. `attempt` counts the reviews so far. -/
def reviewLoop (attempt : ℕ) (s : ReviewState) : Coordination Empty :=
  if _hlimit : request.limits.maxReviewAttempts ≤ attempt then stop s.cycle .retryLimitExhausted
  else do
    let s ← reviewRound coordinator request (attempt + 1) s
    reviewLoop (attempt + 1) s
termination_by request.limits.maxReviewAttempts - attempt

/-- The cycle at the beginning of a run. -/
def initialCycle (started : String) (waivers : List ReviewWaiver) : ReviewCycle where
  cycleId := request.cycleId
  taskId := request.task.taskId
  repositoryKey := request.repositoryKey
  attempt := 0
  state := .collectingEvidence
  implementation := request.implementation
  implementationExecution := some
    { stageId := request.cycleId ++ "-implementation"
      kind := .implementation
      startedAt := started
      endedAt := started
      durationMs := request.implementationDurationMs
      outcome := "completed"
      usage := request.implementationUsage
      unavailableFields := request.implementationUsage.unavailableFields
      requestArtifact := none
      responseArtifact := none }
  reviewer := none
  independence := none
  reviewRequest := none
  reviewResult := none
  remediationRequest := none
  remediationResult := none
  verificationBeforeReview := []
  verificationAfterRemediation := []
  verificationHistory := []
  waivers := waivers
  scopePolicySnapshot := none
  scopeEvaluations := []
  tierSelection := none
  batchPending := false
  aggregateUsage := request.implementationUsage
  aggregateDurationMs := request.implementationDurationMs
  startedAt := started
  endedAt := none
  disposition := .pending
  stopReasons := []
  stopDetail := none
  reviewAttempts := []
  remediationAttempts := []

/-- Open the cycle. Waivers of an earlier attempt are carried over. -/
def openCycle : Coordination ReviewCycle := do
  let started ← ask .now
  let earlier ← ask (.loadCycle request.cycleId)
  let waivers := match earlier with
    | .ok (some cycle) => cycle.waivers
    | _ => []
  let reference ← saveArtifact (.scopePolicySnapshot request.scopePolicy) .persistence
  let cycle := { initialCycle request started waivers with scopePolicySnapshot := some reference }
  saveCycle cycle
  return cycle

/-- Capture the candidate, and evaluate it. -/
def examine (cycle : ReviewCycle) : Coordination (ReviewCycle × Observation) := do
  let o ← captureScope request cycle
  let cycle := cycle.observed request o "initial"
  saveCycle cycle
  requireScope coordinator.sha256 request cycle (o.evaluation request.scopePolicy)
  let cycle := { cycle with state := .verifying }
  saveCycle cycle
  return (cycle, o)

/-- Run all checks, and let what fails be remediated. -/
def verifyCandidate (cycle : ReviewCycle) (captured : CapturedDiff) : Coordination Progress := do
  let cycle ← runChecks request.limits .beforeReview captured request.verificationPlan.checks cycle
  let before := cycle.verificationBeforeReview
  if failing before = [] then return ⟨cycle, captured, 0⟩
  else if environmentDenied before then stop cycle .environmentDenied
  else remediateChecks coordinator.sha256 request 0 cycle captured (failing before)

/-- Review the candidate, unless its tier asks for checks only. -/
def reviewCandidate (p : Progress) : Coordination Empty := do
  if p.cycle.tierSelection.map (·.tier) = some .checksOnly then
    stop { p.cycle with disposition := .readyForHumanApproval } .cleanReview
  else
    let reviewer := request.reviewerFor p.cycle
    let isolation ← ask (.isolationEvidence (coordinator.activeReviewer p.cycle))
    match checkIndependence request.implementation.assignment reviewer
        request.allowSameModelFallback isolation with
    | none => stop p.cycle .noIndependentReviewer
    | some independence =>
      reviewLoop coordinator request 0
        { p with
          cycle := { p.cycle with independence := some independence }
          reviewer
          prior := [] }

/-- The run of the coordinator. It ends by leaving. -/
def coordinate : Coordination Empty := do
  match request.limits.validate with
  | .error e => leave (.error e)
  | .ok _ =>
    let cycle ← openCycle request
    let (cycle, o) ← examine coordinator request cycle
    let p ← verifyCandidate coordinator request cycle o.captured
    reviewCandidate coordinator request p

def ReviewCoordinator.run (parties : Parties) : Outcome × Transcript :=
  match (coordinate coordinator request).run parties [] with
  | (.error outcome, transcript) => (outcome, transcript)
  | (.ok nothing, _) => nothing.elim

end Review

end FamiliarAi
