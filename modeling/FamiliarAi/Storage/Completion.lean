import FamiliarAi.Review.Wire
import FamiliarAi.Storage.Database

/-!
# The completion gate

What the backlog store demands of the review of a run before it completes the run: that the cycle
ended clean, that every open finding that counts is waived by a human, that the required checks have
passed on one candidate, and that the request, the evidence and the findings are in the tables as the
cycle has them. The store reads all of it back from the database and relies on nothing that the
coordinator says.

The digest function and the parser of review requests are parameters.
-/

namespace FamiliarAi

open Relational Text

def JsonColumn.require {α : Type} (context : String) : JsonColumn α → Except BacklogStoreError α
  | record a => .ok a
  | malformed error => .error (.storage (context ++ error))

/-! ### Waivers -/

def FindingEvidence.citation? : FindingEvidence → Option String
  | fileRange path _ | diffHunk path _ => some ("path:" ++ path)
  | verification checkId _ => some ("check:" ++ checkId)
  | invariant source sectionTitle _ => some ("invariant:" ++ source ++ "#" ++ sectionTitle)
  | contract .. | artifact .. => none

def ReviewFinding.substance (finding : ReviewFinding) : FindingSubstance where
  category := finding.category
  cited := ((finding.evidence.filterMap (·.citation?)).insertionSort (· ≤ ·)).eraseDups

/-- `waiver_covers`: the waived claim is of the same category, and the finding cites nothing that was
not visible in it. -/
def FindingSubstance.Covers (waived : FindingSubstance) (finding : ReviewFinding) : Prop :=
  waived.category = finding.category ∧ finding.substance.cited ≠ [] ∧
    ∀ item ∈ finding.substance.cited, item ∈ waived.cited

instance (waived : FindingSubstance) : DecidablePred waived.Covers :=
  fun _ ↦ inferInstanceAs (Decidable (_ ∧ _ ∧ _))

def WaiverRow.waiver (row : WaiverRow) : ReviewWaiver where
  waiverId := row.waiverId
  cycleId := row.cycleId
  findingId := row.findingId
  actor := row.actor
  reason := row.reason
  createdAt := row.createdAt

def WaiverRow.Matches (row : WaiverRow) (finding : ReviewFinding) : Prop :=
  row.findingId = finding.findingId ∨ ∃ waived ∈ row.substance, waived.Covers finding

instance (row : WaiverRow) : DecidablePred row.Matches :=
  fun _ ↦ inferInstanceAs (Decidable (_ ∨ _))

def ReviewWaiver.ByHuman (waiver : ReviewWaiver) : Prop :=
  StartsWith waiver.actor "human:" ∧ trim waiver.actor.toList ≠ "human:".toList ∧
    trim waiver.reason.toList ≠ []

instance : DecidablePred ReviewWaiver.ByHuman :=
  fun _ ↦ inferInstanceAs (Decidable (_ ∧ _ ∧ _))

/-- The waivers of a cycle. They are read through the index of their key, by finding id. -/
def Reviews.waiversOf (reviews : Reviews) (cycleId : String) : List WaiverRow :=
  (reviews.waivers.rows.filter (·.cycleId = cycleId)).insertionSort (·.findingId ≤ ·.findingId)

/-- An open finding has to be waived by a human, in the table and in the cycle. -/
def requireWaiver (cycle : ReviewCycle) (finding : ReviewFinding) : DatabaseQuery Unit := do
  let durable ← .read fun db ↦
    (db.reviews.waiversOf cycle.cycleId).find? fun row ↦ row.Matches finding
  .ensure (∃ row ∈ durable, row.waiver.ByHuman ∧ row.waiver ∈ cycle.waivers)
    (.storage ("terminal review retains open finding " ++ finding.findingId ++
      " without a durable human waiver"))

/-- Every required check has passed, all of them on the same candidate. `accepted` is what the checks
before were run on. -/
def requireChecks (current : List VerificationEvidence) :
    Option String → List String → Except BacklogStoreError Unit
  | _, [] => .ok ()
  | accepted, check :: checks =>
    match current.find? fun e ↦ e.checkId = check ∧ e.required = true ∧ e.status = .passed with
    | none => .error (.storage ("required verification check " ++ check ++ " is not passed"))
    | some evidence =>
      if ∃ identity ∈ accepted, identity ≠ evidence.testedIdentity then
        .error (.storage "required verification candidate identities differ")
      else if evidence.testedIdentity = "" then
        .error (.storage ("required verification check " ++ check ++ " has no candidate identity"))
      else requireChecks current (accepted.or (some evidence.testedIdentity)) checks

def ReviewCycle.EndedClean (cycle : ReviewCycle) (executionId : String) : Prop :=
  cycle.taskId = executionId ∧ cycle.cycleId = executionId ++ "-cycle" ∧
    cycle.state = .completed ∧ cycle.disposition = .readyForHumanApproval ∧
    cycle.stopReasons = [.cleanReview]

instance (cycle : ReviewCycle) : DecidablePred cycle.EndedClean :=
  fun _ ↦ inferInstanceAs (Decidable (_ ∧ _ ∧ _ ∧ _ ∧ _))

def requireResult (cycle : ReviewCycle) : Except BacklogStoreError ReviewResult :=
  match cycle.reviewResult with
  | some result => .ok result
  | none => .error (.storage "terminal review result is missing")

def validateCompletionCycle (cycle : ReviewCycle) (executionId : String)
    (requiredChecks : List String) : DatabaseQuery Unit := do
  .ensure (cycle.EndedClean executionId) (.storage "review cycle is not a clean terminal result")
  let result ← .ofExcept (requireResult cycle)
  .forEach (result.findings.filter fun finding ↦ finding.Actionable) (requireWaiver cycle)
  .ofExcept (requireChecks cycle.currentVerification none requiredChecks)

def EvidenceRef.IsStored (reference : EvidenceRef) : Prop :=
  reference.mediaType = "application/json" ∧
    reference.storageRef = "sqlite:review_artifacts/" ++ reference.contentHash ∧
    reference.truncated = false ∧ reference.omittedBytes = 0

instance : DecidablePred EvidenceRef.IsStored :=
  fun _ ↦ inferInstanceAs (Decidable (_ ∧ _ ∧ _ ∧ _))

def ArtifactRow.IsIntact (sha256 : Sha256) (row : ArtifactRow) (reference : EvidenceRef) : Prop :=
  row.kind = "review_request" ∧ row.mediaType = reference.mediaType ∧
    row.byteSize = reference.byteSize ∧ row.byteSize = Text.byteSize row.content ∧
    FamiliarAi.contentHash sha256 row.content = reference.contentHash

instance (sha256 : Sha256) (row : ArtifactRow) : DecidablePred (row.IsIntact sha256) :=
  fun _ ↦ inferInstanceAs (Decidable (_ ∧ _ ∧ _ ∧ _ ∧ _))

def ReviewRequest.IsAnsweredBy (request : ReviewRequest) (cycle : ReviewCycle)
    (result : ReviewResult) : Prop :=
  request.task.taskId = cycle.taskId ∧ result.reviewId = request.reviewId ∧
    result.reviewedManifestHash = request.manifest.manifestHash ∧
    request.verification = cycle.currentVerification ∧
    ∀ evidence ∈ request.verification, evidence.testedIdentity = request.diff.contentHash

instance (request : ReviewRequest) (cycle : ReviewCycle) :
    DecidablePred (request.IsAnsweredBy cycle) :=
  fun _ ↦ inferInstanceAs (Decidable (_ ∧ _ ∧ _ ∧ _ ∧ _))

def validatePersistedReviewRequest (sha256 : Sha256)
    (parseRequest : List Char → Except String ReviewRequest) (cycle : ReviewCycle) :
    DatabaseQuery Unit :=
  match cycle.reviewRequest with
  | none => .fail (.storage "terminal review request evidence is missing")
  | some reference => do
    .ensure reference.IsStored (.storage "terminal review request reference is invalid")
    let row ← requireRow noRows fun db ↦
      db.reviews.artifacts.find fun row ↦ row.contentHash = reference.contentHash
    .ensure (row.IsIntact sha256 reference)
      (.storage "persisted terminal review request is corrupt")
    let request ← .ofExcept ((parseRequest row.content).mapError fun error ↦
      .storage ("invalid persisted terminal review request: " ++ error))
    let result ← .ofExcept (requireResult cycle)
    .ensure (request.IsAnsweredBy cycle result)
      (.storage "terminal review request does not match accepted evidence")

def evidencePhase (index : ℕ) : String :=
  "attempt-" ++ toString index

def checkEvidence (rows : List EvidenceRow) :
    ℕ → List VerificationEvidence → Except BacklogStoreError Unit
  | _, [] => .ok ()
  | index, expected :: history =>
    match rows.find? fun row ↦ row.checkId = expected.checkId ∧ row.phase = evidencePhase index with
    | none => .error (.storage "persisted verification evidence is incomplete")
    | some row => do
      let persisted ← row.evidence.require "invalid persisted verification evidence: "
      if persisted = expected then checkEvidence rows (index + 1) history
      else .error (.storage "persisted verification evidence conflicts with terminal cycle")

def Reviews.evidenceOf (reviews : Reviews) (cycle : ReviewCycle) : List EvidenceRow :=
  reviews.evidence.rows.filter fun row ↦
    row.cycleId = cycle.cycleId ∧ row.repositoryKey = some cycle.repositoryKey

def validatePersistedEvidence (cycle : ReviewCycle) : DatabaseQuery Unit := do
  let rows ← .read fun db ↦ db.reviews.evidenceOf cycle
  .ensure (rows.length = cycle.verificationHistory.length)
    (.storage "persisted verification evidence is incomplete")
  .ofExcept (checkEvidence rows 0 cycle.verificationHistory)

def checkPersistedFinding (rows : List FindingRow) (finding : ReviewFinding) :
    Except BacklogStoreError Unit :=
  match rows.find? fun row ↦ row.findingId = finding.findingId with
  | none => .error (.storage "persisted review findings are incomplete")
  | some row => do
    let persisted ← row.finding.require "invalid persisted review finding: "
    if persisted = finding ∧ row.blocking = finding.blocking ∧ row.status = finding.status then .ok ()
    else .error (.storage "persisted review finding conflicts with terminal cycle")

def Reviews.findingsOf (reviews : Reviews) (cycleId : String) : List FindingRow :=
  reviews.findings.rows.filter (·.cycleId = cycleId)

def validatePersistedFindings (cycle : ReviewCycle) : DatabaseQuery Unit := do
  let expected := match cycle.reviewResult with
    | some result => result.findings
    | none => []
  let rows ← .read fun db ↦ db.reviews.findingsOf cycle.cycleId
  .ensure (rows.length = expected.length) (.storage "persisted review findings are incomplete")
  .ofExcept (expected.forM (checkPersistedFinding rows))
  -- a waiver does not lift this: the row of a waived finding is as open as any other
  .ensure (¬∃ row ∈ rows, row.blocking = true ∧ row.status = .opened)
    (.storage "terminal review has open blocking findings")

/-- The cycle of a task with the highest attempt; of several ones it is the last. -/
def Reviews.latestCycle (reviews : Reviews) (taskId : String) : Option ReviewCycleRow :=
  ((reviews.cycles.rows.filter (·.taskId = taskId)).insertionSort (·.attempt ≤ ·.attempt)).getLast?

def validateReview (sha256 : Sha256) (parseRequest : List Char → Except String ReviewRequest)
    (cycle : ReviewCycle) (executionId : String) (requiredChecks : List String) :
    DatabaseQuery Unit := do
  validateCompletionCycle cycle executionId requiredChecks
  validatePersistedReviewRequest sha256 parseRequest cycle
  validatePersistedEvidence cycle
  validatePersistedFindings cycle

/-- Find the review of a run, and validate it. -/
def requireReview (sha256 : Sha256) (parseRequest : List Char → Except String ReviewRequest)
    (executionId : String) (requiredChecks : List String) : DatabaseQuery Unit := do
  let row ← requireRow noRows fun db ↦ db.reviews.tasks.find fun row ↦ row.taskId = executionId
  let task ← .ofExcept (row.task.require "invalid review task: ")
  .ensure (task.taskId = executionId ∧ task.verificationPlanId = executionId ++ "-verification")
    (.storage "review task execution mismatch")
  let row ← requireRow noRows fun db ↦ db.reviews.latestCycle executionId
  let cycle ← .ofExcept (row.cycle.require "invalid review cycle: ")
  .ensure (row.state = .completed ∧ row.disposition = .readyForHumanApproval)
    (.storage "persisted review cycle columns are inconsistent")
  validateReview sha256 parseRequest cycle executionId requiredChecks

end FamiliarAi
