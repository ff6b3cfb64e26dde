import FamiliarAi.Batch.Repository
import FamiliarAi.Transition.System

/-!
# Reviews by batch and their poller

A call of `review` reads the row of its review id and goes on from what it finds: it submits a batch,
polls the provider, takes over a completed result, or hands the review to the interactive agent. A pass
of the poller looks after submitted rows on its own. Calls and passes act on one row at any time and in
any order, and between two of their statements, or between a statement and an answer of the provider,
anything can happen, a crash included: each step below is one of these.

The batches that the provider accepted, what the calls returned and the state of the row whenever the
interactive review was run are kept for the statements about them.
-/

namespace FamiliarAi

open Transition

/-- A message batch as it is retrieved. -/
structure BatchStatus where
  ended : Bool
  resultsUrl : Option String

/-- The message of a member that succeeded. -/
structure BatchMessage where
  text : String
  model : Option String
  inputTokens : Option ℕ
  outputTokens : Option ℕ

inductive BatchResult
  | succeeded (message : BatchMessage)
  | errored (error : String)
  | canceled
  | expired

structure BatchResultLine where
  customId : String
  result : BatchResult

/-- What a completed row keeps of a result. -/
structure BatchMessagePayload where
  message : BatchMessage
  submittedAt : ℕ
  completedAt : ℕ

/-- A review id with what its calls use of the configuration and of the libraries: the longest wait, a
payload as JSON, the estimate of its cost, and the accounting and parsing of a payload. -/
structure BatchReviewing (R : Type) where
  reviewId : String
  maxWaitMs : ℕ
  payloadJson : BatchMessagePayload → String
  lexicalCost : BatchMessagePayload → Option String
  parseCompletedResult : String → Except String R

/-- What a call of `review` is about to do. -/
inductive ReviewPhase (R : Type)
  | idle
  | submitting
  | inserting (batchId : String)
  /-- Compare the deadline. -/
  | polling (row : BatchReviewRow)
  | retrieving (row : BatchReviewRow)
  | polled (row : BatchReviewRow) (status : BatchStatus)
  | fetching (row : BatchReviewRow)
  | completing (payload : BatchMessagePayload)
  | expiring (reason : String)
  | reentering
  /-- Look for the result of a completed row. -/
  | consuming
  | accounting (resultJson : String)
  | applying (result : R)
  /-- Read the batch id to park with. -/
  | parking
  /-- Run the interactive review. -/
  | fallingBack

/-- What a pass of the poller is about to do with the row. -/
inductive PassPhase
  | idle
  | polling (row : BatchReviewRow)
  | retrieving (row : BatchReviewRow)
  | polled
  | fetching (row : BatchReviewRow)
  | completing (payload : BatchMessagePayload)
  | expiring (reason : String)

/-- How a call of `review` returns. -/
inductive ReviewReturn (R : Type)
  | reviewed (result : R)
  | parked (batchId : String)
  /-- What the interactive review returned. -/
  | fellBack
  | failed

/-- What a step meets. -/
inductive BatchInput
  /-- The clock. -/
  | now (ms : ℕ)
  | accepted (batchId : String)
  | lost (batchId : String)
  | status (status : BatchStatus)
  | lines (lines : List BatchResultLine) (ms : ℕ)
  | failed

/-! ### Steps of a call and of a pass -/

/-- What a step of a call does. -/
structure ReviewMove (R : Type) where
  phase : ReviewPhase R
  row : Option BatchReviewRow
  /-- A batch that the provider accepted. -/
  batch : Option String := none
  returns : Option (ReviewReturn R) := none
  /-- The interactive review was run. -/
  fallsBack : Bool := false

structure PassMove where
  phase : PassPhase
  row : Option BatchReviewRow

/-- The reason why a member that did not succeed falls back. -/
def canceledOrExpired : String := "batch_member_canceled_or_expired"

namespace BatchReviewing

variable {R : Type} (B : BatchReviewing R)

/-- What `review` makes of the row that it finds. -/
def begun (row : Option BatchReviewRow) : ReviewPhase R :=
  match row with
  | none => .submitting
  | some found =>
    match found.state with
    | .completed => .consuming
    | .applied => .reentering
    | .expiredFallback => .fallingBack
    | .submitted => .polling found

def phaseOfResult (row : BatchReviewRow) (ms : ℕ) : BatchResult → ReviewPhase R
  | .succeeded message => .completing ⟨message, row.submittedAt, ms⟩
  | .errored error => .expiring ("batch_member_errored: " ++ error)
  | .canceled | .expired => .expiring canceledOrExpired

def returning (row : Option BatchReviewRow) (answer : ReviewReturn R) : ReviewMove R :=
  { phase := .idle, row := row, returns := some answer }

/-- One step of `BatchReviewAgent::review`. -/
def reviewStep (row : Option BatchReviewRow) :
    ReviewPhase R → BatchInput → Option (ReviewMove R)
  | .idle, .now _ => some ⟨begun row, row, none, none, false⟩
  | .submitting, .accepted batchId => some ⟨.inserting batchId, row, some batchId, none, false⟩
  | .submitting, .lost batchId => some ⟨.idle, row, some batchId, some .failed, false⟩
  | .inserting batchId, .now ms =>
    match BatchReviewRepository.submit batchId B.maxWaitMs ms row with
    | .error _ => some (returning row .failed)
    | .ok (_, row) => some (returning row (.parked batchId))
  | .polling found, .now ms =>
    if found.deadlineAt ≤ ms then
      some ⟨.expiring "max_batch_wait_exceeded", row, none, none, false⟩
    else some ⟨.retrieving found, row, none, none, false⟩
  | .retrieving found, .status status => some ⟨.polled found status, row, none, none, false⟩
  | .polled found status, .now ms =>
    let row := (BatchReviewRepository.markPolled ms row).2
    if status.ended ∧ status.resultsUrl.isSome then
      some ⟨.fetching found, row, none, none, false⟩
    else some (returning row (.parked found.providerBatchId))
  | .fetching found, .lines lines ms =>
    match lines.find? (·.customId = B.reviewId) with
    | none => some (returning row .failed)
    | some line => some ⟨phaseOfResult found ms line.result, row, none, none, false⟩
  | .completing payload, .now ms =>
    some ⟨.consuming, (BatchReviewRepository.markCompleted (B.payloadJson payload)
      (B.lexicalCost payload) ms row).2, none, none, false⟩
  | .expiring reason, .now _ =>
    some ⟨.fallingBack, (BatchReviewRepository.markExpiredFallback reason row).2, none, none, false⟩
  | .reentering, .now _ =>
    some ⟨.fallingBack, (BatchReviewRepository.markAppliedReentryFallback
      "resumed_after_applied_with_no_recorded_disposition" row).2, none, none, false⟩
  | .consuming, .now _ =>
    match BatchReviewRepository.peekCompleted row with
    | .error _ => some (returning row .failed)
    | .ok none => some ⟨.parking, row, none, none, false⟩
    | .ok (some resultJson) => some ⟨.accounting resultJson, row, none, none, false⟩
  | .accounting resultJson, .now _ =>
    match B.parseCompletedResult resultJson with
    | .error _ => some (returning row .failed)
    | .ok result => some ⟨.applying result, row, none, none, false⟩
  | .applying result, .now _ =>
    let applied := BatchReviewRepository.markApplied row
    if applied.1 then some (returning applied.2 (.reviewed result))
    else some ⟨.parking, applied.2, none, none, false⟩
  | .parking, .now _ =>
    some (returning row (.parked ((row.map (·.providerBatchId)).getD "")))
  | .fallingBack, .now _ => some ⟨.idle, row, none, some .fellBack, true⟩
  | .idle, .failed => none
  | _, .failed => some (returning row .failed)
  | _, _ => none

def listed (row : Option BatchReviewRow) : Option BatchReviewRow :=
  row.filter (·.state = .submitted)

/-- `apply_batch_result`, up to its statement. -/
def passOfResult (row : BatchReviewRow) (ms : ℕ) : BatchResult → PassPhase
  | .succeeded message => .completing ⟨message, row.submittedAt, ms⟩
  | .errored _ => .expiring "batch_member_errored"
  | .canceled | .expired => .expiring canceledOrExpired

/-- One step of `poll_once` on the row. -/
def passStep (row : Option BatchReviewRow) : PassPhase → BatchInput → Option PassMove
  | .idle, .now _ => (listed row).map fun found ↦ ⟨.polling found, row⟩
  | .polling found, .now ms =>
    if found.deadlineAt ≤ ms then some ⟨.expiring "max_batch_wait_exceeded", row⟩
    else some ⟨.retrieving found, row⟩
  | .retrieving found, .status status =>
    if status.ended then
      if status.resultsUrl.isSome then some ⟨.fetching found, row⟩ else some ⟨.idle, row⟩
    else some ⟨.polled, row⟩
  | .polled, .now ms => some ⟨.idle, (BatchReviewRepository.markPolled ms row).2⟩
  | .fetching found, .lines lines ms =>
    match lines.find? (·.customId = B.reviewId) with
    | none => some ⟨.idle, row⟩
    | some line => some ⟨passOfResult found ms line.result, row⟩
  | .completing payload, .now ms =>
    some ⟨.idle, (BatchReviewRepository.markCompleted (B.payloadJson payload)
      (B.lexicalCost payload) ms row).2⟩
  | .expiring reason, .now _ =>
    some ⟨.idle, (BatchReviewRepository.markExpiredFallback reason row).2⟩
  | .idle, .failed => none
  | _, .failed => some ⟨.idle, row⟩
  | _, _ => none

end BatchReviewing

/-- The row of the review id, the calls and passes, and what came of them, the last first. -/
structure BatchWorld (R : Type) where
  row : Option BatchReviewRow := none
  reviews : ℕ → ReviewPhase R := fun _ ↦ .idle
  passes : ℕ → PassPhase := fun _ ↦ .idle
  batches : List String := []
  returned : List (ReviewReturn R) := []
  /-- The state of the row whenever the interactive review was run. -/
  fallbacks : List (Option BatchReviewState) := []

/-- A step of a call, a step of a pass, or a crash of the process that they are in. -/
inductive BatchEvent
  | review (call : ℕ) (input : BatchInput)
  | pass (pass : ℕ) (input : BatchInput)
  | crash

namespace BatchWorld

variable {R : Type}

def reviewMoves (W : BatchWorld R) (call : ℕ) (move : ReviewMove R) : BatchWorld R where
  row := move.row
  reviews := Function.update W.reviews call move.phase
  passes := W.passes
  batches := move.batch.toList ++ W.batches
  returned := move.returns.toList ++ W.returned
  fallbacks := if move.fallsBack then stateOfRow W.row :: W.fallbacks else W.fallbacks

def passMoves (W : BatchWorld R) (pass : ℕ) (move : PassMove) : BatchWorld R :=
  { W with row := move.row, passes := Function.update W.passes pass move.phase }

/-- The row is what survives. -/
def crashes (W : BatchWorld R) : BatchWorld R :=
  { W with reviews := fun _ ↦ .idle, passes := fun _ ↦ .idle }

end BatchWorld

/-- Any number of calls and passes over one review id, from no row on. -/
def batchReviews {R : Type} (B : BatchReviewing R) : System (BatchWorld R) BatchEvent where
  start W := W = {}
  step W
    | .review call input => (B.reviewStep W.row (W.reviews call) input).map (W.reviewMoves call)
    | .pass pass input => (B.passStep W.row (W.passes pass) input).map (W.passMoves pass)
    | .crash => some W.crashes

end FamiliarAi
