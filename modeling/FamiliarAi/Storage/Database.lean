import FamiliarAi.Core.Backlog
import FamiliarAi.Relational.Query
import FamiliarAi.Relational.Table
import FamiliarAi.Review.Types
import Mathlib.Data.List.Sort

/-!
# The database of the stewardship

The tables in which the backlog, the execution checkpoints, the reviews and the driver sessions of a
repository are kept, as the migrations declare them. A table holds the columns that some modelled operation reads; columns
that only hold the wall clock are left out, and of the time at which a PRD went missing it matters
only whether there is one. Foreign keys are on: a row that refers to another is inserted only where
the other is.

A column that holds a record as JSON holds the record, or, where the text holds none, what the parser
says of it.
-/

namespace FamiliarAi

open Relational

/-- A `TEXT` column that a record is kept in as JSON. -/
inductive JsonColumn (α : Type)
  | record (a : α)
  | malformed (error : String)
  deriving DecidableEq

/-- `length(trim(text)) > 0`: SQLite trims spaces, and a text ends at its first NUL. -/
def sqlNonBlank (text : String) : Bool :=
  match text.toList.dropWhile (· = ' ') with
  | [] => false
  | c :: _ => c ≠ '\x00'

/-! ### The backlog -/

/-- The primary key of a PRD. -/
structure PrdKey where
  repositoryKey : String
  path : String
  deriving DecidableEq

structure PrdRow where
  key : PrdKey
  number : ℕ
  suffix : Option Char
  contentHash : String
  status : BacklogStatus
  /-- `missing_since IS NOT NULL`. -/
  missing : Bool
  deriving DecidableEq

def prdSchema : Schema PrdRow where
  check r := r.suffix.all fun c ↦ decide ('a' ≤ c ∧ c ≤ 'z')
  clash r r' := decide (r.key = r'.key)

structure StatusEventRow where
  eventId : ℕ
  key : PrdKey
  old : BacklogStatus
  new : BacklogStatus
  actor : String
  deriving DecidableEq

def statusEventSchema : Schema StatusEventRow where
  check r := sqlNonBlank r.actor
  clash r r' := decide (r.eventId = r'.eventId)

structure RecoveryRow where
  statusEventId : ℕ
  action : BacklogRecoveryAction
  reason : String
  deriving DecidableEq

def recoverySchema : Schema RecoveryRow where
  check r := sqlNonBlank r.reason
  clash r r' := decide (r.statusEventId = r'.statusEventId)

structure Backlog where
  prds : Table prdSchema
  statusEvents : Table statusEventSchema
  recoveryEvents : Table recoverySchema
  deriving DecidableEq

namespace Backlog

def empty : Backlog :=
  ⟨.empty, .empty, .empty⟩

def row (b : Backlog) (key : PrdKey) : Option PrdRow :=
  b.prds.find (·.key = key)

def history (b : Backlog) (key : PrdKey) : List StatusEventRow :=
  (b.statusEvents.rows.filter (·.key = key)).insertionSort (·.eventId ≤ ·.eventId)

/-- `ORDER BY event_id DESC LIMIT 1`. -/
def latestEvent (b : Backlog) (key : PrdKey) : Option StatusEventRow :=
  (b.history key).getLast?

def nextEventId (b : Backlog) : ℕ :=
  (b.statusEvents.rows.map (·.eventId)).foldr max 0 + 1

end Backlog

inductive CheckpointPhase
  | claimed
  | implemented
  | implementedPendingReview
  | verified
  | reviewed
  | approved
  | integrated
  | completed
  | blocked
  | invalidCheckpoint
  deriving DecidableEq

/-- A row of `execution_checkpoints`. -/
structure CheckpointRow where
  checkpointId : String
  repositoryKey : String
  prdId : String
  phase : CheckpointPhase
  diffHash : String
  invalidReason : Option String
  approvedDiffHash : Option String
  approvedCommit : Option String
  deriving DecidableEq

def checkpointSchema : Schema CheckpointRow where
  clash r r' := decide (r.checkpointId = r'.checkpointId) ||
    decide (r.repositoryKey = r'.repositoryKey ∧ r.prdId = r'.prdId)

/-- A row of `execution_checkpoint_events`. -/
structure CheckpointEventRow where
  eventId : String
  checkpointId : String
  sequence : ℕ
  eventType : String
  priorPhase : Option CheckpointPhase
  resultingPhase : CheckpointPhase
  detail : String
  deriving DecidableEq

def checkpointEventSchema : Schema CheckpointEventRow where
  clash r r' := decide (r.eventId = r'.eventId) ||
    decide (r.checkpointId = r'.checkpointId ∧ r.sequence = r'.sequence)

structure Checkpoints where
  rows : Table checkpointSchema
  events : Table checkpointEventSchema
  deriving DecidableEq

def Checkpoints.empty : Checkpoints :=
  ⟨.empty, .empty⟩

structure ReviewTaskRow where
  taskId : String
  task : JsonColumn ReviewTask
  deriving DecidableEq

def reviewTaskSchema : Schema ReviewTaskRow where
  clash r r' := decide (r.taskId = r'.taskId)

structure ReviewCycleRow where
  cycleId : String
  taskId : String
  attempt : ℕ
  state : ReviewCycleState
  disposition : ReviewDisposition
  cycle : JsonColumn ReviewCycle
  deriving DecidableEq

def reviewCycleSchema : Schema ReviewCycleRow where
  clash r r' := decide (r.cycleId = r'.cycleId)

/-- A row of `review_artifacts`. Artifacts are JSON, so the content is a text. -/
structure ArtifactRow where
  contentHash : String
  kind : String
  mediaType : String
  byteSize : ℕ
  content : List Char
  deriving DecidableEq

def artifactSchema : Schema ArtifactRow where
  clash r r' := decide (r.contentHash = r'.contentHash)

/-- A row of `review_verification_evidence`. -/
structure EvidenceRow where
  cycleId : String
  checkId : String
  phase : String
  evidence : JsonColumn VerificationEvidence
  repositoryKey : Option String
  deriving DecidableEq

def evidenceSchema : Schema EvidenceRow where
  clash r r' := decide (r.cycleId = r'.cycleId ∧ r.checkId = r'.checkId ∧ r.phase = r'.phase)

structure FindingRow where
  findingId : String
  cycleId : String
  blocking : Bool
  status : FindingStatus
  finding : JsonColumn ReviewFinding
  acceptanceCriterionId : Option String
  deriving DecidableEq

def findingSchema : Schema FindingRow where
  clash r r' := decide (r.findingId = r'.findingId)

/-- What a finding claims, whatever it is called: its category and what it cites. -/
structure FindingSubstance where
  category : FindingCategory
  cited : List String
  deriving DecidableEq

/-- A row of `review_finding_waivers`. A waiver may be without a substance. -/
structure WaiverRow where
  waiverId : String
  cycleId : String
  findingId : String
  substance : Option FindingSubstance
  actor : String
  reason : String
  createdAt : String
  deriving DecidableEq

def waiverSchema : Schema WaiverRow where
  check r := sqlNonBlank r.actor && sqlNonBlank r.reason
  clash r r' := decide (r.waiverId = r'.waiverId) ||
    decide (r.cycleId = r'.cycleId ∧ r.findingId = r'.findingId)

structure Reviews where
  tasks : Table reviewTaskSchema
  cycles : Table reviewCycleSchema
  artifacts : Table artifactSchema
  evidence : Table evidenceSchema
  findings : Table findingSchema
  waivers : Table waiverSchema
  deriving DecidableEq

def Reviews.empty : Reviews :=
  ⟨.empty, .empty, .empty, .empty, .empty, .empty⟩

/-! ### Driver sessions -/

/-- A row of `driver_sessions`. -/
structure DriverSessionRow where
  sessionId : String
  repositoryKey : String
  /-- `ended_at IS NOT NULL`. -/
  ended : Bool
  terminationReason : Option String
  workerId : Option String
  baseRevision : Option String
  integrationRevision : Option String
  deriving DecidableEq

def driverSessionSchema : Schema DriverSessionRow where
  clash r r' := decide (r.sessionId = r'.sessionId)

inductive AttemptOutcome
  | completed
  | retained
  deriving DecidableEq

/-- The primary key of an attempt. -/
structure AttemptKey where
  sessionId : String
  sequence : ℕ
  deriving DecidableEq

structure DriverAttemptRow where
  key : AttemptKey
  prdId : String
  startedAt : String
  ended : Bool
  outcome : Option AttemptOutcome
  retainedReason : Option String
  candidateRevision : Option String
  /-- `integrated_at IS NOT NULL`. -/
  integrated : Bool
  lastDurablePhase : Option String
  deriving DecidableEq

def driverAttemptSchema : Schema DriverAttemptRow where
  check r := decide (0 < r.key.sequence)
  clash r r' := decide (r.key = r'.key)

inductive MigrationState
  | reserved
  | consumed
  | released
  deriving DecidableEq

/-- A row of `migration_version_reservations`. -/
structure MigrationReservation where
  repositoryKey : String
  version : ℕ
  sessionId : String
  prdId : String
  state : MigrationState
  deriving DecidableEq

/-- A version is written as a signed integer and has to be positive. -/
def migrationSchema : Schema MigrationReservation where
  check r := decide (0 < r.version ∧ r.version < 2 ^ 63)
  clash r r' := decide (r.repositoryKey = r'.repositoryKey ∧ r.version = r'.version) ||
    decide (r.sessionId = r'.sessionId ∧ r.prdId = r'.prdId)

inductive ScopeRuling
  | approved
  | rejected
  deriving DecidableEq

/-- A row of `scope_decisions`. It is pending as long as there is no decision. -/
structure ScopeDecisionRow where
  findingHash : String
  repositoryKey : String
  checkpointId : String
  prdId : String
  candidateHash : String
  decision : Option ScopeRuling
  deriving DecidableEq

def scopeDecisionSchema : Schema ScopeDecisionRow where
  clash r r' := decide (r.findingHash = r'.findingHash)

structure Orchestration where
  sessions : Table driverSessionSchema
  attempts : Table driverAttemptSchema
  migrations : Table migrationSchema
  scopeDecisions : Table scopeDecisionSchema
  deriving DecidableEq

def Orchestration.empty : Orchestration :=
  ⟨.empty, .empty, .empty, .empty⟩

def Orchestration.session (o : Orchestration) (sessionId : String) : Option DriverSessionRow :=
  o.sessions.find (·.sessionId = sessionId)

def Orchestration.attempt (o : Orchestration) (key : AttemptKey) : Option DriverAttemptRow :=
  o.attempts.find (·.key = key)

structure Database where
  backlog : Backlog
  checkpoints : Checkpoints
  reviews : Reviews
  orchestration : Orchestration
  deriving DecidableEq

def Database.empty : Database :=
  ⟨.empty, .empty, .empty, .empty⟩

def statementFailed : BacklogStoreError :=
  .storage "constraint failed"

/-- The error for a query that has to find a row, and finds none. -/
def noRows : BacklogStoreError :=
  .storage "Query returned no rows"

abbrev DatabaseQuery := Query Database BacklogStoreError

/-- A statement on `backlog_prds`. -/
def onPrds {α : Type} (f : Table prdSchema → Option (α × Table prdSchema)) : DatabaseQuery α :=
  .changePart statementFailed (·.backlog.prds)
    (fun db prds ↦ { db with backlog := { db.backlog with prds } }) f

/-- A statement on `execution_checkpoints`. -/
def onCheckpoints {α : Type} (f : Table checkpointSchema → Option (α × Table checkpointSchema)) :
    DatabaseQuery α :=
  .changePart statementFailed (·.checkpoints.rows)
    (fun db rows ↦ { db with checkpoints := { db.checkpoints with rows } }) f

def requireRow {α : Type} (e : BacklogStoreError) (f : Database → Option α) : DatabaseQuery α := do
  match ← .read f with
  | some a => pure a
  | none => .fail e

end FamiliarAi
