import FamiliarAi.Storage.Claims
import FamiliarAi.Storage.Reviews

/-!
# Waived findings at the completion gate

A human waives a finding so that its PRD can be completed in spite of it. The gate asks twice about the
findings: in the result of the cycle a waived one passes, but among the rows, which no waiver touches,
an open one that blocks does not. We show what follows: **a completion that meets every other condition
succeeds on waived findings exactly when none of them is open and blocking**, and one with an open
blocking finding that is not waived fails and changes nothing.
-/

namespace FamiliarAi

open Relational Text

def Reviews.WaiversRecorded (reviews : Reviews) (cycle : ReviewCycle) : Prop :=
  ∀ row ∈ reviews.waiversOf cycle.cycleId, row.waiver.ByHuman ∧ row.waiver ∈ cycle.waivers

theorem Reviews.WaiversRecorded.waives {reviews : Reviews} {cycle : ReviewCycle}
    (h : reviews.WaiversRecorded cycle) {finding : ReviewFinding}
    (hfinding : ∃ row ∈ reviews.waiversOf cycle.cycleId, row.Matches finding) :
    reviews.Waives cycle finding := by
  obtain ⟨row, hrow, hmatches⟩ := hfinding
  rcases hfound : (reviews.waiversOf cycle.cycleId).find? fun row ↦ row.Matches finding with _ | first
  · exact absurd (decide_eq_true hmatches) (List.find?_eq_none.1 hfound row hrow)
  · exact ⟨first, hfound, h first (List.mem_of_find?_eq_some hfound)⟩

/-! ### Completing a run -/

section Completion

variable {sha256 : Sha256} {parseRequest : List Char → Except String ReviewRequest}
  {repository : RepositoryIdentity} {target : DiscoveredPrd} {executionId actor : String}
  {requiredChecks : List String} {db : Database} {cycle : ReviewCycle} {result : ReviewResult}

theorem returns_onPrds {α : Type} {f : Table prdSchema → Option (α × Table prdSchema)} {a : α}
    {prds : Table prdSchema} (h : f db.backlog.prds = some (a, prds)) :
    (onPrds f).Returns db a { db with backlog := { db.backlog with prds } } :=
  .changePart h

theorem returns_setStatus {p : PrdRow → Bool} {next : BacklogStatus} {key : PrdKey} {row : PrdRow}
    (hrow : db.backlog.row key = some row) (hprow : p row = true)
    (hp : ∀ r, p r = true → r.key = key) :
    ∃ prds, (Backlog.row { db.backlog with prds } key).isSome = true ∧
      (setStatus p next).Returns db 1 { db with backlog := { db.backlog with prds } } := by
  obtain ⟨hmem, -⟩ := Table.find_some hrow
  have hcheck (r : PrdRow) (hr : r ∈ db.backlog.prds.rows) :
      prdSchema.check { r with status := next } = true := Table.check_of_mem (r := r) hr
  obtain ⟨prds, hprds⟩ := Table.exists_update (p := p) (f := fun row ↦ { row with status := next })
    (fun r hr _ ↦ hcheck r hr) fun _ _ _ _ ↦ rfl
  have hcount : db.backlog.prds.count p = 1 :=
    Table.count_eq_one hmem hprow fun r _ r' _ hr hr' ↦
      decide_eq_true ((hp r hr).trans (hp r' hr').symm)
  have hmodify : db.backlog.prds.modify p (fun row ↦ { row with status := next }) =
      some (1, prds) := by
    rw [Table.modify, hprds, Option.map_some, hcount]
  refine ⟨prds, ?_, returns_onPrds hmodify⟩
  have hfind : prds.find (·.key = key) =
      (db.backlog.row key).map fun r ↦ if p r then { r with status := next } else r :=
    Table.find_update hprds fun _ ↦ rfl
  show (prds.find _).isSome = true
  rw [hfind, hrow]
  rfl

theorem returns_recordTransition {key : PrdKey} {old new : BacklogStatus}
    (hrow : (db.backlog.row key).isSome = true) (hactor : sqlNonBlank actor = true) :
    ∃ statusEvents,
      db.backlog.statusEvents.insert ⟨db.backlog.nextEventId, key, old, new, actor⟩ =
        some statusEvents ∧
      (recordTransition key old new actor).Returns db db.backlog.nextEventId
        { db with backlog := { db.backlog with statusEvents } } := by
  obtain ⟨statusEvents, hinsert⟩ := Table.exists_insert (T := db.backlog.statusEvents)
    (r := ⟨db.backlog.nextEventId, key, old, new, actor⟩) hactor fun event hevent ↦
      decide_eq_false fun hsame ↦ absurd hsame (Backlog.lt_nextEventId hevent).ne
  refine ⟨statusEvents, hinsert, .change ?_⟩
  rw [if_pos hrow]
  exact Option.map_eq_some_iff.2 ⟨statusEvents, hinsert, rfl⟩

theorem IsRunActor.nonBlank (h : IsRunActor actor) : sqlNonBlank actor = true := by
  obtain ⟨id, hid, -⟩ := h
  have htext := stripPrefix?_eq_some hid
  have hsystem : "system:familiar-ai-run:".toList = 's' :: "ystem:familiar-ai-run:".toList := rfl
  rw [sqlNonBlank, htext, hsystem, List.cons_append, List.dropWhile_cons_of_neg (by decide)]
  rfl

variable (sha256 parseRequest repository target executionId actor requiredChecks db cycle result) in
/-- Everything that a completion asks for, but for the findings that are open and block. -/
structure MeetsOtherConditions : Prop where
  runActor : IsRunActor actor
  row : ∃ row, db.backlog.row (repository.prdKey target.path) = some row ∧
    row.status = .inProgress ∧ row.contentHash = target.contentHash ∧
    (row.missing = true → db.backlog.archivedTwinCompleted repository.key target.number = true)
  claim : ∃ latest, db.backlog.latestEvent (repository.prdKey target.path) = some latest ∧
    latest.IsClaim ∧ latest.actor = actor
  task : ∃ row task, db.reviews.tasks.find (·.taskId = executionId) = some row ∧
    row.task = .record task ∧ task.taskId = executionId ∧
    task.verificationPlanId = executionId ++ "-verification"
  latest : ∃ row, db.reviews.latestCycle executionId = some row ∧ row.cycle = .record cycle ∧
    row.state = .completed ∧ row.disposition = .readyForHumanApproval
  ended : cycle.EndedClean executionId
  reviewed : cycle.reviewResult = some result
  /-- An open finding about an acceptance criterion is waived even if it does not block. -/
  criteria : ∀ f ∈ result.findings, f.Actionable → f.blocking = false →
    ∃ row ∈ db.reviews.waiversOf cycle.cycleId, row.Matches f
  checks : requireChecks cycle.currentVerification none requiredChecks = .ok ()
  request : (validatePersistedReviewRequest sha256 parseRequest cycle).Returns db () db
  evidence : (validatePersistedEvidence cycle).Returns db () db
  findings : (db.reviews.findingsOf cycle.cycleId).Perm (result.findings.map (findingRow cycle))

theorem MeetsOtherConditions.runIsOpen
    (h : MeetsOtherConditions sha256 parseRequest repository target executionId actor requiredChecks db
      cycle result) :
    RunIsOpen repository target actor db :=
  have ⟨row, hrow, hstatus, hhash, harchived⟩ := h.row
  ⟨⟨h.runActor, ⟨row, hrow, hstatus, hhash⟩, h.claim⟩, fun ⟨_, hmissingRow, hmissing⟩ ↦
    harchived (Option.some.inj (hrow.symm.trans hmissingRow) ▸ hmissing)⟩

theorem inspects_missingIsLandingArchive {row : PrdRow} :
    (missingIsLandingArchive repository target row).Inspects := by
  rw [missingIsLandingArchive]
  split
  · exact .read
  · exact .pure

theorem returns_requireReview
    (h : MeetsOtherConditions sha256 parseRequest repository target executionId actor requiredChecks db
      cycle result)
    (hwaived : ∀ f ∈ result.findings, f.Actionable → db.reviews.Waives cycle f)
    (hclosed : ¬∃ f ∈ result.findings, f.status = .opened ∧ f.blocking = true) :
    (requireReview sha256 parseRequest executionId requiredChecks).Returns db () db := by
  obtain ⟨taskRow, task, htaskRow, htask, hid, hplan⟩ := h.task
  obtain ⟨cycleRow, hcycleRow, hcycle, hcolumns⟩ := h.latest
  have hholds : db.reviews.HoldsFindings cycle result :=
    holdsFindings_of_mem (by rw [h.findings.length_eq, List.length_map])
      fun f hf ↦ h.findings.mem_iff.2 (List.mem_map_of_mem hf)
  have hclosedRows : ¬∃ row ∈ db.reviews.findingsOf cycle.cycleId,
      row.blocking = true ∧ row.status = .opened := by
    rintro ⟨row, hrow, hblocking, hopen⟩
    obtain ⟨f, hf, rfl⟩ := List.mem_map.1 (h.findings.mem_iff.1 hrow)
    exact hclosed ⟨f, hf, hopen, hblocking⟩
  have hreview : (validateReview sha256 parseRequest cycle executionId requiredChecks).Returns
      db () db :=
    returns_validateReview.2 ⟨returns_validateCompletionCycle.2
      ⟨h.ended, result, h.reviewed, hwaived, h.checks⟩, h.request, h.evidence,
      (returns_validatePersistedFindings h.reviewed).2 ⟨hholds, hclosedRows⟩⟩
  refine returns_requireRow_bind.2 ⟨taskRow, htaskRow, Query.returns_ofExcept_bind.2 ⟨task, ?_, ?_⟩⟩
  · rw [htask]
    rfl
  refine Query.returns_ensure_bind.2 ⟨⟨hid, hplan⟩, ?_⟩
  refine returns_requireRow_bind.2
    ⟨cycleRow, hcycleRow, Query.returns_ofExcept_bind.2 ⟨cycle, ?_, ?_⟩⟩
  · rw [hcycle]
    rfl
  exact Query.returns_ensure_bind.2 ⟨hcolumns, hreview⟩

theorem completeRun_returns (h : RunIsOpen repository target actor db)
    (hreview : (requireReview sha256 parseRequest executionId requiredChecks).Returns db () db) :
    ∃ db', (completeRun sha256 parseRequest repository target executionId actor
      requiredChecks).Returns db ⟨target, .completed⟩ db' := by
  obtain ⟨row, hrow, hstatus, hhash⟩ := h.row
  obtain ⟨latest, hlatest, hclaim⟩ := h.claim
  obtain ⟨prds, hrow', hset⟩ := @returns_setStatus db (fun row ↦
      row.key = repository.prdKey target.path ∧ row.status = .inProgress) .completed _ _ hrow
    (decide_eq_true ⟨(Backlog.row_eq_some hrow).2, hstatus⟩) fun r hr ↦ (of_decide_eq_true hr).1
  obtain ⟨statusEvents, -, hrecord⟩ := @returns_recordTransition actor
    { db with backlog := { db.backlog with prds } } _ .inProgress .completed hrow' h.runActor.nonBlank
  refine ⟨{ db with backlog := { db.backlog with prds, statusEvents } },
    Query.returns_ofExcept_bind.2 ⟨(), if_pos h.runActor, .transaction ?_⟩⟩
  refine returns_requireRow_bind.2 ⟨row, hrow, ?_⟩
  refine inspects_missingIsLandingArchive.returns_bind.2 ⟨row.missing &&
    db.backlog.archivedTwinCompleted repository.key target.number, ?_, ?_⟩
  · rw [missingIsLandingArchive]
    split
    · rename_i hmissing
      rw [hmissing, Bool.true_and]
      exact .read
    · rename_i hpresent
      rw [Bool.eq_false_of_not_eq_true hpresent, Bool.false_and]
      exact .pure
  refine Query.returns_ensure_bind.2 ⟨⟨hstatus, hhash, fun hm ↦ ?_⟩, ?_⟩
  · rw [hm, h.archived ⟨row, hrow, hm⟩, Bool.and_true]
  refine returns_requireRow_bind.2 ⟨latest, hlatest, Query.returns_ensure_bind.2 ⟨hclaim, ?_⟩⟩
  refine inspects_requireReview.returns_bind.2 ⟨(), hreview, ?_⟩
  refine hset.bind (Query.returns_ensure_bind.2 ⟨rfl, hrecord.bind ?_⟩)
  exact .bind .pure .pure

structure AllWaived (reviews : Reviews) (cycle : ReviewCycle) (result : ReviewResult) : Prop where
  recorded : reviews.WaiversRecorded cycle
  waived : ∀ f ∈ result.findings, f.status = .opened → f.blocking = true →
    ∃ row ∈ reviews.waiversOf cycle.cycleId, row.Matches f

theorem MeetsOtherConditions.waives
    (h : MeetsOtherConditions sha256 parseRequest repository target executionId actor requiredChecks db
      cycle result)
    (hwaived : AllWaived db.reviews cycle result) :
    ∀ f ∈ result.findings, f.Actionable → db.reviews.Waives cycle f := by
  intro f hf hactionable
  refine hwaived.recorded.waives ?_
  rcases hblocking : f.blocking with _ | _
  · exact h.criteria f hf hactionable hblocking
  · exact hwaived.waived f hf hactionable.1 hblocking

theorem validateReview_of_requireReview
    (h : (requireReview sha256 parseRequest executionId requiredChecks).Returns db () db) :
    ∃ row cycle, db.reviews.latestCycle executionId = some row ∧ row.cycle = .record cycle ∧
      (validateReview sha256 parseRequest cycle executionId requiredChecks).Returns db () db := by
  obtain ⟨taskRow, -, h⟩ := returns_requireRow_bind.1 h
  obtain ⟨task, -, h⟩ := Query.returns_ofExcept_bind.1 h
  obtain ⟨-, h⟩ := Query.returns_ensure_bind.1 h
  obtain ⟨row, hrow, h⟩ := returns_requireRow_bind.1 h
  obtain ⟨cycle, hcycle, h⟩ := Query.returns_ofExcept_bind.1 h
  obtain ⟨-, h⟩ := Query.returns_ensure_bind.1 h
  refine ⟨row, cycle, hrow, ?_, h⟩
  cases hrecord : row.cycle with
  | record found =>
    rw [hrecord] at hcycle
    rw [Except.ok.inj hcycle]
  | malformed error =>
    rw [hrecord] at hcycle
    cases hcycle

theorem completeRun_validates {entry : BacklogEntry} {c c' : Connection Database BacklogStoreError}
    {row : ReviewCycleRow} (hrow : c.store.reviews.latestCycle executionId = some row)
    (hcycle : row.cycle = .record cycle)
    (h : (completeRun sha256 parseRequest repository target executionId actor requiredChecks).Runs c
      entry c') :
    (validateReview sha256 parseRequest cycle executionId requiredChecks).Returns c.store ()
      c.store := by
  obtain ⟨row', cycle', hrow', hcycle', hvalid⟩ :=
    validateReview_of_requireReview (completeRunWith_gates h).2
  obtain rfl := Option.some.inj (hrow.symm.trans hrow')
  obtain rfl := JsonColumn.record.inj (hcycle.symm.trans hcycle')
  exact hvalid

/-- **A finding that is open and blocks, and is not waived, keeps the run from being completed**, and
nothing is changed. -/
theorem completeRun_unwaived {row : ReviewCycleRow}
    (hrow : db.reviews.latestCycle executionId = some row) (hcycle : row.cycle = .record cycle)
    (hresult : cycle.reviewResult = some result)
    (hunwaived : ∃ f ∈ result.findings, f.status = .opened ∧ f.blocking = true ∧
      ∀ row ∈ db.reviews.waiversOf cycle.cycleId, ¬row.Matches f)
    (faults : List (Option BacklogStoreError)) :
    ∃ e c', (completeRun sha256 parseRequest repository target executionId actor
      requiredChecks).Fails ⟨db, faults⟩ e c' ∧ c'.store = db := by
  rcases hrun : (completeRun sha256 parseRequest repository target executionId actor
    requiredChecks).run ⟨db, faults⟩ with ⟨e | entry, c'⟩
  · exact ⟨e, c', hrun, completeRunWith_atomic repository target executionId actor requiredChecks _
      _ _ _ hrun⟩
  · have hvalid := completeRun_validates hrow hcycle hrun
    obtain ⟨hcompletion, -⟩ := returns_validateReview.1 hvalid
    obtain ⟨-, result', hresult', hwaived, -⟩ := returns_validateCompletionCycle.1 hcompletion
    obtain rfl := Option.some.inj (hresult.symm.trans hresult')
    obtain ⟨f, hf, hopen, hblocking, hnone⟩ := hunwaived
    obtain ⟨waiver, hfound, -⟩ := hwaived f hf ⟨hopen, .inl hblocking⟩
    have hmatches := List.find?_some hfound
    exact absurd (of_decide_eq_true hmatches) (hnone waiver (List.mem_of_find?_eq_some hfound))

theorem not_completeRun_of_open {entry : BacklogEntry} {db' : Database}
    (h : MeetsOtherConditions sha256 parseRequest repository target executionId actor requiredChecks db
      cycle result)
    (hopen : ∃ f ∈ result.findings, f.status = .opened ∧ f.blocking = true) :
    ¬(completeRun sha256 parseRequest repository target executionId actor requiredChecks).Returns db
      entry db' := by
  intro hreturns
  obtain ⟨row, hrow, hcycle, -⟩ := h.latest
  have hvalid := completeRun_validates hrow hcycle hreturns
  obtain ⟨-, -, -, hfindings⟩ := returns_validateReview.1 hvalid
  obtain ⟨-, hclosed⟩ := (returns_validatePersistedFindings h.reviewed).1 hfindings
  obtain ⟨f, hf, hstatus, hblocking⟩ := hopen
  exact hclosed ⟨findingRow cycle f, h.findings.mem_iff.2 (List.mem_map_of_mem hf), hblocking, hstatus⟩

variable (sha256 parseRequest repository target executionId actor requiredChecks db cycle result) in
/-- **When a waived finding does not strand its PRD.** Where all else is in order, a completion with
every open and blocking finding waived succeeds exactly when there is no such finding; one with such a
finding that is not waived always fails and changes nothing. -/
theorem completeRun_waived_iff :
    ((MeetsOtherConditions sha256 parseRequest repository target executionId actor requiredChecks db
            cycle result →
          AllWaived db.reviews cycle result →
          ∃ db', (completeRun sha256 parseRequest repository target executionId actor
            requiredChecks).Returns db ⟨target, .completed⟩ db') ∧
        ∀ row, db.reviews.latestCycle executionId = some row → row.cycle = .record cycle →
          cycle.reviewResult = some result →
          (∃ f ∈ result.findings, f.status = .opened ∧ f.blocking = true ∧
            ∀ row ∈ db.reviews.waiversOf cycle.cycleId, ¬row.Matches f) →
          ∀ faults, ∃ e c', (completeRun sha256 parseRequest repository target executionId actor
            requiredChecks).Fails ⟨db, faults⟩ e c' ∧ c'.store = db) ↔
      ¬(MeetsOtherConditions sha256 parseRequest repository target executionId actor requiredChecks db
          cycle result ∧ AllWaived db.reviews cycle result ∧
        ∃ f ∈ result.findings, f.status = .opened ∧ f.blocking = true) := by
  constructor
  · rintro ⟨hcompletes, -⟩ ⟨hmeets, hwaived, hopen⟩
    obtain ⟨db', hreturns⟩ := hcompletes hmeets hwaived
    exact not_completeRun_of_open hmeets hopen hreturns
  · intro hnot
    refine ⟨fun hmeets hwaived ↦ completeRun_returns hmeets.runIsOpen ?_, ?_⟩
    · exact returns_requireReview hmeets (hmeets.waives hwaived) fun hopen ↦
        hnot ⟨hmeets, hwaived, hopen⟩
    · intro row hrow hcycle hresult hunwaived faults
      exact completeRun_unwaived hrow hcycle hresult hunwaived faults

end Completion

/-! ### A waived finding that strands its PRD -/

namespace Stranded

def repository : RepositoryIdentity :=
  ⟨"repo"⟩

theorem target_valid : IsRepositoryPath "prd.md" := by
  decide

def target : DiscoveredPrd where
  id := ⟨1, none, .canonical⟩
  number := 1
  path := ⟨"prd.md", target_valid⟩
  location := .active
  dependencies := []
  metadata := {}
  contentHash := "prd"

def actor : String :=
  "system:familiar-ai-run:00000000000000000001-0000000001-000001"

def task : ReviewTask :=
  ⟨"t", "o", [], "base", [], [], "t-verification"⟩

def author : AgentAssignment :=
  ⟨"a", "a", some "a", none, .implementation, none⟩

def reviewer : AgentAssignment :=
  ⟨"b", "b", some "b", none, .review, none⟩

def diff : EvidenceRef :=
  ⟨"hash", "text/x-diff", 2, "repo", "base", "diff", false, 0⟩

def request : ReviewRequest where
  reviewId := "t-review"
  task
  implementation := author
  reviewer
  baseRevision := "base"
  candidateRevision := none
  changedFiles := []
  diff
  disclosedDiff := ""
  contracts := []
  invariants := []
  verification := []
  priorFindings := []
  budget := ⟨10000, 10000⟩
  manifest := ⟨"manifest", "hash", [], [], 0, 0⟩

def finding : ReviewFinding where
  findingId := "f"
  category := .correctnessDefect
  severity := .critical
  blocking := true
  title := "title"
  claim := "claim"
  evidence := [.fileRange "src/lib.rs" ⟨1, 2⟩]
  remediation := "remediation"
  status := .opened
  supersedes := none
  acceptanceCriterionId := none

def result : ReviewResult where
  reviewId := "t-review"
  reviewer := ⟨reviewer, none, none, []⟩
  startedAt := "t"
  endedAt := "t"
  durationMs := 1
  findings := [finding]
  reviewedManifestHash := "manifest"
  usage := {}
  disposition := .readyForHumanApproval
  unavailableFields := []

def sha256 : Sha256 :=
  fun _ ↦ Vector.replicate 32 0

/-- The cycle as it is kept before the waiver. -/
def reviewed : ReviewCycle where
  cycleId := "t-cycle"
  taskId := "t"
  repositoryKey := "repo"
  attempt := 1
  state := .completed
  implementation := ⟨author, none, none, []⟩
  implementationExecution := none
  reviewer := some ⟨reviewer, none, none, []⟩
  independence := none
  reviewRequest := some (artifactReference sha256 request.json.render)
  reviewResult := some result
  remediationRequest := none
  remediationResult := none
  verificationBeforeReview := []
  verificationAfterRemediation := []
  verificationHistory := []
  waivers := []
  scopePolicySnapshot := none
  scopeEvaluations := []
  tierSelection := none
  batchPending := false
  aggregateUsage := {}
  aggregateDurationMs := 0
  startedAt := "t"
  endedAt := some "t"
  disposition := .readyForHumanApproval
  stopReasons := [.cleanReview]
  stopDetail := none
  reviewAttempts := []
  remediationAttempts := []

def parseRequest (text : List Char) : Except String ReviewRequest :=
  if text = request.json.render then .ok request else .error "expected value"

/-- The PRD is claimed, and its request is kept. -/
def claimed : Database where
  backlog :=
    { prds := ⟨[⟨⟨"repo", "prd.md"⟩, 1, none, "prd", .inProgress, false⟩], by simp [prdSchema],
        List.pairwise_singleton _ _⟩
      statusEvents := ⟨[⟨1, ⟨"repo", "prd.md"⟩, .pending, .inProgress, actor⟩],
        fun r hr ↦ by
          rw [List.mem_singleton.1 hr]
          decide,
        List.pairwise_singleton _ _⟩
      recoveryEvents := .empty }
  checkpoints := .empty
  reviews :=
    { Reviews.empty with
      tasks := ⟨[⟨"t", .record task⟩], by simp [reviewTaskSchema], List.pairwise_singleton _ _⟩
      artifacts := ⟨[artifactRow sha256 "review_request" request.json.render],
        by simp [artifactSchema], List.pairwise_singleton _ _⟩ }
  orchestration := .empty

/-- The cycle is saved, and its finding is waived. -/
def waive : ReviewQuery ReviewWaiver := do
  ReviewRepository.saveCycle reviewed
  ReviewRepository.waiveFinding "t-cycle" "f" "human:reviewer" "known" "t"

def waiver : ReviewWaiver :=
  ⟨"t-cycle:f", "t-cycle", "f", "human:reviewer", "known", "t"⟩

def waiverRow : WaiverRow where
  waiverId := "t-cycle:f"
  cycleId := "t-cycle"
  findingId := "f"
  substance := some ⟨.correctnessDefect, ["path:src/lib.rs"]⟩
  actor := "human:reviewer"
  reason := "known"
  createdAt := "t"

def cycleRow : ReviewCycleRow :=
  ⟨"t-cycle", "t", 1, .completed, .readyForHumanApproval, .record (reviewed.waived waiver)⟩

/-- What that leaves. -/
def db : Database :=
  { claimed with
    reviews := { claimed.reviews with
      cycles := ⟨[cycleRow], by simp [reviewCycleSchema], List.pairwise_singleton _ _⟩
      findings := ⟨[findingRow reviewed finding], by simp [findingSchema],
        List.pairwise_singleton _ _⟩
      waivers := ⟨[waiverRow], by decide, List.pairwise_singleton _ _⟩ } }

theorem waive_returns : waive.Returns claimed waiver db := by
  rcases hrun : waive.run ⟨claimed, []⟩ with ⟨answer, store, faults⟩
  have hresult : (waive.run ⟨claimed, []⟩).1.toOption = some waiver ∧
      (waive.run ⟨claimed, []⟩).2.store = db ∧ (waive.run ⟨claimed, []⟩).2.faults.length = 0 := by
    decide +kernel
  rw [hrun] at hresult
  obtain ⟨hanswer, rfl, hfaults⟩ := hresult
  obtain rfl := List.eq_nil_of_length_eq_zero hfaults
  obtain rfl := Except.toOption_eq_some.1 hanswer
  exact hrun

theorem isRunActor : IsRunActor actor := by
  refine ⟨"00000000000000000001-0000000001-000001".toList, rfl, rfl, ?_⟩
  have hparts : splitOn '-' "00000000000000000001-0000000001-000001".toList =
      ["00000000000000000001".toList, "0000000001".toList, "000001".toList] := rfl
  rw [hparts]
  simp

theorem waiversOf_db : db.reviews.waiversOf "t-cycle" = [waiverRow] := by
  decide

theorem meetsOtherConditions :
    MeetsOtherConditions sha256 parseRequest repository target "t" actor [] db
      (reviewed.waived waiver) result where
  runActor := isRunActor
  row := ⟨⟨⟨"repo", "prd.md"⟩, 1, none, "prd", .inProgress, false⟩, by decide, rfl, rfl, by decide⟩
  claim := ⟨⟨1, ⟨"repo", "prd.md"⟩, .pending, .inProgress, actor⟩, by decide, by decide, rfl⟩
  task := ⟨⟨"t", .record task⟩, task, by decide, rfl, rfl, by decide⟩
  latest := ⟨cycleRow, rfl, rfl, rfl, rfl⟩
  ended := by decide
  reviewed := rfl
  criteria f hf _ hblocking := by
    rw [List.mem_singleton.1 hf] at hblocking
    cases hblocking
  checks := rfl
  request := by
    rw [returns_validatePersistedReviewRequest]
    exact ⟨_, rfl, ⟨rfl, rfl, rfl, rfl⟩, _, find_artifactRow (List.mem_singleton_self _),
      ⟨rfl, rfl, rfl, rfl, rfl⟩, request, if_pos rfl, result, rfl, by decide⟩
  evidence := by
    rw [returns_validatePersistedEvidence]
    decide
  findings := by decide

theorem allWaived : AllWaived db.reviews (reviewed.waived waiver) result where
  recorded row hrow := by
    have hrow : row ∈ db.reviews.waiversOf "t-cycle" := hrow
    rw [waiversOf_db, List.mem_singleton] at hrow
    rw [hrow]
    decide
  waived f hf _ _ := by
    rw [List.mem_singleton.1 hf]
    show ∃ row ∈ db.reviews.waiversOf "t-cycle", _
    rw [waiversOf_db]
    exact ⟨waiverRow, List.mem_singleton_self _, by decide⟩

end Stranded

theorem completeRun_stranded :
    Stranded.waive.Returns Stranded.claimed Stranded.waiver Stranded.db ∧
      MeetsOtherConditions Stranded.sha256 Stranded.parseRequest Stranded.repository Stranded.target "t"
        Stranded.actor [] Stranded.db (Stranded.reviewed.waived Stranded.waiver) Stranded.result ∧
      AllWaived Stranded.db.reviews (Stranded.reviewed.waived Stranded.waiver) Stranded.result ∧
      ¬∃ entry db', (completeRun Stranded.sha256 Stranded.parseRequest Stranded.repository
        Stranded.target "t" Stranded.actor []).Returns Stranded.db entry db' := by
  refine ⟨Stranded.waive_returns, Stranded.meetsOtherConditions, Stranded.allWaived, ?_⟩
  rintro ⟨entry, db', hreturns⟩
  exact not_completeRun_of_open Stranded.meetsOtherConditions
    ⟨Stranded.finding, List.mem_singleton_self _, rfl, rfl⟩ hreturns

end FamiliarAi
