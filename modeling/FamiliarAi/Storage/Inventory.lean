import FamiliarAi.Core.Reservation
import FamiliarAi.Json.Basic
import FamiliarAi.Relational.Query
import FamiliarAi.Relational.Table
import FamiliarAi.Text.Basic

/-!
# The inventory of the files of a project

The tables of the file lifecycle: the summaries of the files of each project, the work that is pending
for them, the observations that were made of them, each under its own order, the tombstones of the
summaries that were retired, and the scans with the entries that they have staged.

The ids of the rows come from sequences that only go up, so that no id is ever used again.
-/

namespace FamiliarAi

open Relational Text

/-- A file of a project, by its canonical path below the root of the project. -/
structure FileKey where
  projectId : ℤ
  path : String
  deriving DecidableEq

inductive PathIdentityError
  | absoluteInput
  | parentTraversal
  | emptyFilePath
  | lexicalEscape
  deriving DecidableEq

def PathIdentityError.display : PathIdentityError → String
  | absoluteInput => "absolute repository-relative path is invalid"
  | parentTraversal => "parent traversal is invalid"
  | emptyFilePath => "file identity is empty"
  | lexicalEscape => "path is not lexically contained by the project root"

def pathComponents (path : String) : List (List Char) :=
  (splitOn '/' path.toList).filter fun part ↦ part ≠ [] ∧ part ≠ ['.']

/-- `normalize_relative`, which does not admit the empty path here. -/
def normalizeRelative (path : String) : Except PathIdentityError String :=
  if StartsWith path "/" then .error .absoluteInput
  else if ['.', '.'] ∈ pathComponents path then .error .parentTraversal
  else if pathComponents path = [] then .error .emptyFilePath
  else .ok (String.ofList (List.intercalate ['/'] (pathComponents path)))

/-- `CanonicalFileIdentity::validate_stored`: the path has to be normal as it stands. -/
def validateStored (path : String) : Except PathIdentityError Unit := do
  let normalized ← normalizeRelative path
  if normalized ≠ path then .error .lexicalEscape else pure ()

/-! ### Rows -/

structure RegisteredProjectRow where
  id : ℤ
  repoRoot : String
  active : Bool

/-- A row of `file_summary_reconciliation_records`, as far as the lifecycle reads it. -/
structure LegacyIdentityRow where
  projectId : ℤ
  classification : String
  rolledBackAt : Option String

/-- What a summary says of a file. -/
structure SummaryContent where
  summary : String
  tagsJson : String
  extractedSymbolsJson : Option String
  lastKnownMtime : Option ℤ
  lastKnownSize : Option ℤ
  deriving DecidableEq

structure FileSummaryRow where
  id : ℕ
  key : FileKey
  content : SummaryContent
  lastUpdatedAt : String
  createdAt : String
  updatedAt : String
  deriving DecidableEq

def fileSummarySchema : Schema FileSummaryRow where
  clash r r' := r.id = r'.id ∨ r.key = r'.key

/-- A row of `repository_observation_orders`. -/
structure ObservationOrderRow where
  projectId : ℤ
  lastOrder : ℕ

def observationOrderSchema : Schema ObservationOrderRow where
  clash r r' := r.projectId = r'.projectId

inductive ObservationKind
  | created
  | modified
  | removed
  | renamedFrom
  | renamedTo
  deriving DecidableEq

/-- A row of `repository_observations`. -/
structure ObservationRow where
  key : FileKey
  order : ℕ
  kind : ObservationKind
  source : String
  relatedPath : Option String
  outcome : String
  deriving DecidableEq

def observationSchema : Schema ObservationRow where
  check r := r.source ∈ ["watcher", "scan", "recovery"]
  clash r r' := r.key.projectId = r'.key.projectId ∧ r.order = r'.order

/-- The change of a file that work is pending for. -/
inductive LifecycleChange
  | create
  | modify
  deriving DecidableEq

inductive PendingStatus
  | pending
  | leased
  | completed
  | superseded
  | failed
  | interrupted
  deriving DecidableEq

/-- The work is still to be done. -/
def PendingStatus.IsOpen (status : PendingStatus) : Prop :=
  status ∈ [.pending, .leased, .failed, .interrupted]

instance : DecidablePred PendingStatus.IsOpen :=
  fun status ↦ inferInstanceAs (Decidable (status ∈ _))

/-- A row of `pending_summary_work`. -/
structure PendingSummaryWork where
  id : ℕ
  key : FileKey
  kind : LifecycleChange
  status : PendingStatus
  attemptCount : ℕ
  observationOrder : ℕ
  dispatchDeferred : Bool
  deriving DecidableEq

def pendingWorkSchema : Schema PendingSummaryWork where
  clash r r' := r.id = r'.id ∨ r.key = r'.key

inductive RetirementReason
  | deleted
  | modified
  | renamed
  | ineligible

/-- A row of `file_summary_lifecycle_tombstones`: the summary as it was, and why it was retired. -/
structure TombstoneRow where
  id : ℕ
  original : FileSummaryRow
  reason : RetirementReason
  causeSource : String
  causeId : Option ℕ
  relatedPath : Option String
  observationOrder : ℕ

def tombstoneSchema : Schema TombstoneRow where
  clash r r' := r.id = r'.id ∨ (r.original.key.projectId = r'.original.key.projectId ∧
    r.original.id = r'.original.id ∧ r.original.updatedAt = r'.original.updatedAt)

inductive ScanRunStatus
  | running
  | incomplete
  | interrupted
  | enumerationComplete
  | reconciliationComplete
  deriving DecidableEq

/-- The state of one part of a scan. -/
inductive ScanPhaseStatus
  | notStarted
  | running
  | incomplete
  | interrupted
  | complete

structure ScanCounts where
  visited : ℕ := 0
  eligible : ℕ := 0
  excluded : ℕ := 0
  rejected : ℕ := 0
  failed : ℕ := 0
  staged : ℕ := 0
  unchanged : ℕ := 0
  pendingCreate : ℕ := 0
  retiredDelete : ℕ := 0
  retiredIneligible : ℕ := 0
  laterWatcherWins : ℕ := 0

/-- A row of `repository_scan_runs`. -/
structure ScanRunRow where
  id : ℕ
  projectId : ℤ
  root : String
  startObservationOrder : ℕ
  status : ScanRunStatus
  enumerationStatus : ScanPhaseStatus
  reconciliationStatus : ScanPhaseStatus
  absencePermitted : Bool
  counts : ScanCounts

def scanRunSchema : Schema ScanRunRow where
  clash r r' := r.id = r'.id

inductive ScanClassification
  | eligible
  | excluded
  | rejected
  | failed
  deriving DecidableEq

/-- A row of `repository_scan_entries`. -/
structure ScanEntryRow where
  scanRunId : ℕ
  key : FileKey
  classification : ScanClassification
  detail : Option String

def scanEntrySchema : Schema ScanEntryRow where
  clash r r' := r.scanRunId = r'.scanRunId ∧ r.key.path = r'.key.path

/-- The last id that a row of each table was given. -/
structure RowSequences where
  summaries : ℕ := 0
  pendingWork : ℕ := 0
  tombstones : ℕ := 0
  scanRuns : ℕ := 0

/-- The tables of the file lifecycle, and the projects as far as it reads them. -/
structure Inventory where
  projects : List RegisteredProjectRow
  legacyIdentities : List LegacyIdentityRow
  sequences : RowSequences
  summaries : Table fileSummarySchema
  orders : Table observationOrderSchema
  observations : Table observationSchema
  pendingWork : Table pendingWorkSchema
  tombstones : Table tombstoneSchema
  scanRuns : Table scanRunSchema
  scanEntries : Table scanEntrySchema

namespace Inventory

/-- The inventory before anything was observed. -/
def initial (projects : List RegisteredProjectRow) (legacyIdentities : List LegacyIdentityRow) :
    Inventory :=
  ⟨projects, legacyIdentities, {}, .empty, .empty, .empty, .empty, .empty, .empty, .empty⟩

variable (inventory : Inventory)

def project (projectId : ℤ) : Option RegisteredProjectRow :=
  inventory.projects.find? (·.id = projectId)

def summary (key : FileKey) : Option FileSummaryRow :=
  inventory.summaries.find (·.key = key)

def work (key : FileKey) : Option PendingSummaryWork :=
  inventory.pendingWork.find (·.key = key)

def lastOrder (projectId : ℤ) : ℕ :=
  ((inventory.orders.find (·.projectId = projectId)).map (·.lastOrder)).getD 0

def countLater (key : FileKey) (order : ℕ) : ℕ :=
  inventory.observations.count fun row ↦ row.key = key ∧ order < row.order

def scanRun (runId : ℕ) : Option ScanRunRow :=
  inventory.scanRuns.find (·.id = runId)

end Inventory

end FamiliarAi
