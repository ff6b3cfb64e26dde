import Mathlib.Data.Prod.Lex
import Mathlib.Data.String.Basic
import FamiliarAi.Core.BacklogGraph
import FamiliarAi.Graph.Reach
import FamiliarAi.Relational.Recovery
import FamiliarAi.Storage.Transitions

/-!
# The historical bootstrap of a backlog

A repository may come with a manifest of PRDs that were completed before there was a backlog.
Applying the manifest completes them, and rolling the run back returns them to pending. The manifest
may be applied again after that.

The bootstrap has tables of its own next to the backlog: the runs, the items of a run with the event
that completed each of them, and the same for rollbacks. Both operations follow the source statement
by statement, and are a single transaction behind a check of the audit.
-/

namespace FamiliarAi

open Relational Text

structure BootstrapItem where
  path : RepositoryPath
  prdNumber : ℕ
  prdSuffix : Option Char
  declaredContentHash : String
  observedContentHash : String

structure BootstrapManifest where
  version : ℕ
  canonicalHash : String
  rawHash : String
  items : List BootstrapItem

structure BootstrapApplied where
  runId : String
  itemCount : ℕ
  canonicalHash : String

inductive BootstrapApplyResult
  | absent
  | alreadyApplied
  | applied (run : BootstrapApplied)

structure BootstrapRollbackResult where
  rollbackRunId : String
  itemCount : ℕ
  deriving DecidableEq

inductive BootstrapError
  | ineligible (message : String)
  | conflict (message : String)
  | auditCorrupt (message : String)
  | rollbackIneligible (message : String)
  | storage (message : String)
  /-- The lookup of a PRD has panicked, and the transaction is dropped. -/
  | panicked
  deriving DecidableEq

def bootstrapActor : String := "system:historical-backlog-bootstrap"

def PrdId.new (number : ℕ) : PrdId where
  number
  suffix := none

/-- The statuses of the discovered PRDs, the last one first. -/
abbrev SurveyedStatuses := List (PrdId × BacklogStatus)

def SurveyedStatuses.get (statuses : SurveyedStatuses) (id : PrdId) : Option BacklogStatus :=
  (statuses.find? (·.1 == id)).map (·.2)

def validateDependencyClosure (manifest : BootstrapManifest) (discovered : List DiscoveredPrd)
    (statuses : SurveyedStatuses) (evidenced : List PrdId) : Except BootstrapError Unit := do
  let listed := manifest.items.map fun item ↦ PrdId.new item.prdNumber
  let errors ← manifest.items.mapM fun item ↦
    match byId discovered (PrdId.new item.prdNumber).key with
    | none => .error .panicked
    | some prd => .ok ((prd.dependencies.filter fun dependency ↦
        ¬(listed.any (· == dependency) ∨ statuses.get dependency = some .completed ∧
          evidenced.any (· == dependency))).map fun dependency ↦
        item.path.text ++ " requires incomplete unlisted dependency " ++ dependency.display)
  if errors.flatten = [] then .ok () else .error (.ineligible ("; ".intercalate errors.flatten))

/-! ### Tables -/

inductive BootstrapRunStatus
  | applied
  | rolledBack
  | applying
  | failed
  | interrupted
  deriving DecidableEq

/-- `length(text)`: a text ends at its first NUL. -/
def sqlLength (text : String) : ℕ :=
  (text.toList.takeWhile (· ≠ '\x00')).length

/-- A row of `backlog_bootstrap_runs`. -/
structure BootstrapRunRow where
  runId : String
  repositoryKey : String
  canonicalManifestHash : String
  rawManifestHash : String
  manifestVersion : ℕ
  status : BootstrapRunStatus
  itemCount : ℕ
  rollbackRunId : Option String
  reappliesRunId : Option String
  createdAt : String

def bootstrapRunSchema : Schema BootstrapRunRow where
  check r := decide (sqlLength r.canonicalManifestHash = 64 ∧ sqlLength r.rawManifestHash = 64 ∧
    r.manifestVersion = 1 ∧ 0 < r.itemCount)
  clash r r' := decide (r.runId = r'.runId) ||
    decide (∃ id ∈ r.rollbackRunId, r'.rollbackRunId = some id)
  clash_symm r r' := by
    have hid : (∃ id ∈ r.rollbackRunId, r'.rollbackRunId = some id) ↔
        ∃ id ∈ r'.rollbackRunId, r.rollbackRunId = some id :=
      exists_congr fun _ ↦ And.comm
    simp only [eq_comm (a := r.runId), hid]

/-- A row of `backlog_bootstrap_items`. Its old status is pending, and its new one completed. -/
structure BootstrapItemRow where
  runId : String
  ordinal : ℕ
  key : PrdKey
  prdNumber : ℕ
  prdSuffix : Option Char
  declaredContentHash : String
  observedContentHash : String
  statusEventId : ℕ

def bootstrapItemSchema : Schema BootstrapItemRow where
  check r := decide (0 < r.ordinal ∧ sqlLength r.declaredContentHash = 64 ∧
    sqlLength r.observedContentHash = 64) && r.prdSuffix.all fun c ↦ decide ('a' ≤ c ∧ c ≤ 'z')
  clash r r' := decide (r.runId = r'.runId ∧ r.ordinal = r'.ordinal) ||
    decide (r.runId = r'.runId ∧ r.key.path = r'.key.path) ||
      decide (r.statusEventId = r'.statusEventId)

/-- A row of `backlog_bootstrap_rollbacks`. -/
structure BootstrapRollbackRow where
  rollbackRunId : String
  bootstrapRunId : String
  repositoryKey : String
  actor : String
  reason : String
  itemCount : ℕ

def bootstrapRollbackSchema : Schema BootstrapRollbackRow where
  check r := sqlNonBlank r.actor && sqlNonBlank r.reason && decide (0 < r.itemCount)
  clash r r' := decide (r.rollbackRunId = r'.rollbackRunId) ||
    decide (r.bootstrapRunId = r'.bootstrapRunId)

/-- A row of `backlog_bootstrap_rollback_items`. Its old status is completed, and pending restored.
-/
structure BootstrapRollbackItemRow where
  rollbackRunId : String
  ordinal : ℕ
  path : String
  statusEventId : ℕ

def bootstrapRollbackItemSchema : Schema BootstrapRollbackItemRow where
  check r := decide (0 < r.ordinal)
  clash r r' := decide (r.rollbackRunId = r'.rollbackRunId ∧ r.ordinal = r'.ordinal) ||
    decide (r.statusEventId = r'.statusEventId)

/-- The database with the tables of the bootstrap. -/
structure BootstrapStore where
  database : Database := .empty
  runs : Table bootstrapRunSchema := .empty
  items : Table bootstrapItemSchema := .empty
  rollbacks : Table bootstrapRollbackSchema := .empty
  rollbackItems : Table bootstrapRollbackItemSchema := .empty

namespace BootstrapStore

abbrev backlog (s : BootstrapStore) : Backlog :=
  s.database.backlog

def setBacklog (s : BootstrapStore) (backlog : Backlog) : BootstrapStore :=
  { s with database := { s.database with backlog } }

def runsOf (s : BootstrapStore) (repositoryKey : String) : List BootstrapRunRow :=
  (s.runs.rows.filter (·.repositoryKey = repositoryKey)).insertionSort fun r r' ↦
    toLex (r.createdAt, r.runId) ≤ toLex (r'.createdAt, r'.runId)

def itemsOf (s : BootstrapStore) (runId : String) : List BootstrapItemRow :=
  (s.items.rows.filter (·.runId = runId)).insertionSort (·.ordinal ≤ ·.ordinal)

def Links (event : StatusEventRow) (item : BootstrapItemRow) : Prop :=
  event.key = item.key ∧ event.old = .pending ∧ event.new = .completed ∧
    event.actor = bootstrapActor

instance (event : StatusEventRow) (item : BootstrapItemRow) : Decidable (Links event item) :=
  inferInstanceAs (Decidable (_ ∧ _ ∧ _ ∧ _))

/-- The run has another number of items than it says, or one of them without its event. -/
def Corrupt (s : BootstrapStore) (run : BootstrapRunRow) : Prop :=
  s.items.count (·.runId = run.runId) ≠ run.itemCount ∨
    ∃ item ∈ s.items.rows, item.runId = run.runId ∧
      ∀ event ∈ s.backlog.statusEvents.find (·.eventId = item.statusEventId), ¬Links event item

instance (s : BootstrapStore) : DecidablePred s.Corrupt :=
  fun _ ↦ inferInstanceAs (Decidable (_ ∨ ∃ _ ∈ _, _ ∧ ∀ _ ∈ _, _))

end BootstrapStore

open BootstrapStore

/-- A program over the database and the tables of the bootstrap. -/
abbrev BootstrapQuery := Query BootstrapStore BootstrapError

def bootstrapConstraint : BootstrapError :=
  .storage "constraint failed"

def bootstrapNoRows : BootstrapError :=
  .storage "Query returned no rows"

/-- Read what has to be there. -/
def requireFound {α : Type} (e : BootstrapError) (f : BootstrapStore → Option α) :
    BootstrapQuery α := do
  match ← .read f with
  | some a => pure a
  | none => .fail e

/-- `UPDATE backlog_prds SET status`, with how many rows it has changed. -/
def moveStatus (p : PrdRow → Bool) (next : BacklogStatus) : BootstrapQuery ℕ :=
  .changePart bootstrapConstraint (·.backlog.prds)
    (fun s prds ↦ s.setBacklog { s.backlog with prds })
    fun prds ↦ prds.modify p fun row ↦ { row with status := next }

/-- `INSERT INTO backlog_status_events`, with the id of the event. -/
def appendStatusEvent (key : PrdKey) (old new : BacklogStatus) (actor : String) :
    BootstrapQuery ℕ :=
  .change bootstrapConstraint fun s ↦
    if (s.backlog.row key).isSome then
      let eventId := s.backlog.nextEventId
      (s.backlog.statusEvents.insert ⟨eventId, key, old, new, actor⟩).map fun statusEvents ↦
        (eventId, s.setBacklog { s.backlog with statusEvents })
    else none

/-- `INSERT INTO backlog_bootstrap_runs`. -/
def insertRun (run : BootstrapRunRow) : BootstrapQuery Unit :=
  .write bootstrapConstraint fun s ↦
    if ∀ prior ∈ run.reappliesRunId, (s.runs.find (·.runId = prior)).isSome then
      (s.runs.insert run).map fun runs ↦ { s with runs }
    else none

/-- `INSERT INTO backlog_bootstrap_items`. -/
def insertItem (item : BootstrapItemRow) : BootstrapQuery Unit :=
  .write bootstrapConstraint fun s ↦
    if (s.runs.find (·.runId = item.runId)).isSome ∧ (s.backlog.row item.key).isSome ∧
        (s.backlog.statusEvents.find (·.eventId = item.statusEventId)).isSome then
      (s.items.insert item).map fun items ↦ { s with items }
    else none

/-- `INSERT INTO backlog_bootstrap_rollbacks`. -/
def insertBootstrapRollback (rollback : BootstrapRollbackRow) : BootstrapQuery Unit :=
  .write bootstrapConstraint fun s ↦
    if (s.runs.find (·.runId = rollback.bootstrapRunId)).isSome then
      (s.rollbacks.insert rollback).map fun rollbacks ↦ { s with rollbacks }
    else none

/-- `INSERT INTO backlog_bootstrap_rollback_items`. -/
def insertRollbackItem (item : BootstrapRollbackItemRow) : BootstrapQuery Unit :=
  .write bootstrapConstraint fun s ↦
    if (s.rollbacks.find (·.rollbackRunId = item.rollbackRunId)).isSome ∧
        (s.backlog.statusEvents.find (·.eventId = item.statusEventId)).isSome then
      (s.rollbackItems.insert item).map fun rollbackItems ↦ { s with rollbackItems }
    else none

def validateAllRuns (repositoryKey : String) : BootstrapQuery Unit := do
  let corrupt ← .read fun s ↦ s.runs.rows.countP fun run ↦
    run.repositoryKey = repositoryKey ∧ s.Corrupt run
  .ensure (corrupt = 0) (.auditCorrupt "bootstrap run/item/event linkage is inconsistent")

/-- What is known of the discovered PRDs so far. -/
structure Survey where
  statuses : SurveyedStatuses := []
  /-- The completed PRDs that have events. -/
  evidenced : List PrdId := []

def surveyPrd (repository : RepositoryIdentity) (manifest : BootstrapManifest)
    (reapply : Option String) (survey : Survey) (prd : DiscoveredPrd) : BootstrapQuery Survey := do
  let key := repository.prdKey prd.path
  let (row, eventCount) ← requireFound (.conflict ("missing target row " ++ prd.path.text))
    fun s ↦ (s.backlog.row key).map fun row ↦ (row, (s.backlog.eventsOf key).length)
  .when (∃ item ∈ manifest.items, item.path = prd.path) do
    .ensure (row.missing = false) (.ineligible (prd.path.text ++ " is marked missing"))
    .ensure (row.status = .pending)
      (.ineligible (prd.path.text ++ " has status " ++ row.status.asStr))
    .ensure (eventCount = 0 ∨ reapply.isSome)
      (.ineligible (prd.path.text ++ " has prior status events"))
    .ensure (reapply.isNone ∨ eventCount = 2)
      (.ineligible (prd.path.text ++ " has later or incomplete rollback events"))
  pure
    { statuses := (prd.id, row.status) :: survey.statuses
      evidenced :=
        if row.status = .completed ∧ 0 < eventCount then prd.id :: survey.evidenced
        else survey.evidenced }

/-- Complete the PRD of an item. -/
def applyItem (repository : RepositoryIdentity) (runId : String) (entry : BootstrapItem × ℕ) :
    BootstrapQuery Unit := do
  let (item, index) := entry
  let key := repository.prdKey item.path
  let changed ← moveStatus (fun row ↦ row.key = key ∧ row.status = .pending ∧
    row.missing = false ∧ row.contentHash = item.observedContentHash) .completed
  .ensure (changed = 1) (.conflict ("optimistic status write failed for " ++ item.path.text))
  let event ← appendStatusEvent key .pending .completed bootstrapActor
  .ensure (item.prdNumber ≤ maxPrdNumber)
    (.storage "out of range integral type conversion attempted")
  insertItem
    { runId
      ordinal := index + 1
      key
      prdNumber := item.prdNumber
      prdSuffix := item.prdSuffix
      declaredContentHash := item.declaredContentHash
      observedContentHash := item.observedContentHash
      statusEventId := event }

/-- The run that an application of the manifest repeats. An earlier run of another kind disallows
it. -/
def priorRun (runs : List BootstrapRunRow) (manifest : BootstrapManifest) :
    Except BootstrapError (Option String) :=
  match runs with
  | [] => .ok none
  | [run] =>
    if run.status = .rolledBack ∧ run.canonicalManifestHash = manifest.canonicalHash ∧
        run.rollbackRunId.isSome then .ok (some run.runId)
    else .error (.conflict "a prior bootstrap lineage disallows application")
  | _ => .error (.conflict "a prior bootstrap lineage disallows application")

/-- The transaction of `apply` where no run of the repository is applied. -/
def applyFresh (repository : RepositoryIdentity) (discovered : List DiscoveredPrd)
    (manifest : BootstrapManifest) (runs : List BootstrapRunRow) (runId now : String) :
    BootstrapQuery BootstrapApplied := do
  let reapply ← .ofExcept (priorRun runs manifest)
  let survey ← .foldEach (surveyPrd repository manifest reapply) {} discovered
  .ofExcept (validateDependencyClosure manifest discovered survey.statuses survey.evidenced)
  insertRun
    { runId
      repositoryKey := repository.key
      canonicalManifestHash := manifest.canonicalHash
      rawManifestHash := manifest.rawHash
      manifestVersion := manifest.version
      status := .applied
      itemCount := manifest.items.length
      rollbackRunId := none
      reappliesRunId := reapply
      createdAt := now }
  .forEach manifest.items.zipIdx (applyItem repository runId)
  pure ⟨runId, manifest.items.length, manifest.canonicalHash⟩

/-- The transaction of `apply`. -/
def applyManifest (repository : RepositoryIdentity) (discovered : List DiscoveredPrd)
    (manifest : BootstrapManifest) (runId now : String) :
    BootstrapQuery (Verdict BootstrapApplyResult) := do
  let runs ← .read fun s ↦ s.runsOf repository.key
  match runs.find? (·.status = .applied) with
  | some run =>
    .ensure (run.canonicalManifestHash = manifest.canonicalHash) (.conflict
      "BootstrapManifestChanged: an applied lineage has a different canonical manifest hash")
    pure (.rollback .alreadyApplied)
  | none =>
    let applied ← applyFresh repository discovered manifest runs runId now
    pure (.commit (.applied applied))

/-- `apply`. The id of the run and the time are new. -/
def applyBootstrap (repository : RepositoryIdentity) (discovered : List DiscoveredPrd)
    (manifest : Option BootstrapManifest) (runId now : String) :
    BootstrapQuery BootstrapApplyResult := do
  validateAllRuns repository.key
  match manifest with
  | none => pure .absent
  | some manifest => .transactionWith (applyManifest repository discovered manifest runId now)

/-- `depends_on_target`: whether a chain of dependencies leads from the PRD to one at the paths. -/
def dependsOnTarget (prd : DiscoveredPrd) (all : List DiscoveredPrd) (targets : List String) :
    Bool :=
  (Reach.search (fun p ↦ p.id.key)
    (fun p ↦ p.dependencies.filterMap fun dependency ↦ all.find? (·.id == dependency))
    (fun p ↦ targets.contains p.path.text) all.length prd ∅).1

def itemBlockers (repository : RepositoryIdentity) (discovered : List DiscoveredPrd)
    (blockers : List String) (item : BootstrapItemRow) : BootstrapQuery (List String) :=
  let path := item.key.path
  match discovered.reverse.find? (·.path.text = path) with
  | none => pure (blockers ++ [path ++ ": PRD missing"])
  | some prd => do
    let blockers :=
      if prd.contentHash ≠ item.observedContentHash then blockers ++ [path ++ ": content changed"]
      else blockers
    let (row, latest) ← requireFound bootstrapNoRows fun s ↦
      (s.backlog.row ⟨repository.key, path⟩).map fun row ↦
        (row, (s.backlog.latestEvent ⟨repository.key, path⟩).map (·.eventId))
    .ensure latest.isSome (.storage "Invalid column type Null at index: 1")
    if row.status ≠ .completed ∨ latest ≠ some item.statusEventId then
      pure (blockers ++ [path ++ ": status or latest event changed"])
    else pure blockers

/-- What is in the way of a rollback at a PRD that is not of the run. -/
def dependentBlockers (repository : RepositoryIdentity) (discovered : List DiscoveredPrd)
    (targets : List String) (blockers : List String) (prd : DiscoveredPrd) :
    BootstrapQuery (List String) :=
  if targets.contains prd.path.text then pure blockers
  else do
    let row ← requireFound bootstrapNoRows fun s ↦ s.backlog.row (repository.prdKey prd.path)
    if (row.status = .inProgress ∨ row.status = .completed) ∧
        dependsOnTarget prd discovered targets then
      pure (blockers ++ [prd.path.text ++ ": dependent is " ++ row.status.asStr])
    else pure blockers

/-- Return the PRD of an item to pending. -/
def restoreItem (repository : RepositoryIdentity) (rollbackId actor : String)
    (entry : BootstrapItemRow × ℕ) : BootstrapQuery Unit := do
  let (item, index) := entry
  let key : PrdKey := ⟨repository.key, item.key.path⟩
  let changed ← moveStatus (fun row ↦ row.key = key ∧ row.status = .completed) .pending
  .ensure (changed = 1) (.conflict ("rollback write conflict for " ++ item.key.path))
  let event ← appendStatusEvent key .completed .pending actor
  insertRollbackItem ⟨rollbackId, index + 1, item.key.path, event⟩

/-- `UPDATE backlog_bootstrap_runs SET status='rolled_back'`. -/
def markRolledBack (target rollbackId : String) : BootstrapQuery Unit :=
  .writePart bootstrapConstraint (·.runs) (fun s runs ↦ { s with runs })
    fun runs ↦ runs.update (·.runId = target) fun run ↦
      { run with status := .rolledBack, rollbackRunId := some rollbackId }

/-- `rollback`. The id of the rollback is new. -/
def rollbackBootstrap (repository : RepositoryIdentity) (discovered : List DiscoveredPrd)
    (target actor reason rollbackId : String) : BootstrapQuery BootstrapRollbackResult := do
  .ensure (trim actor.toList ≠ [] ∧ trim reason.toList ≠ [])
    (.rollbackIneligible "actor and reason must be non-empty")
  validateAllRuns repository.key
  .transaction do
    let run ← requireFound (.rollbackIneligible "bootstrap run not found")
      fun s ↦ s.runs.find (·.runId = target)
    .ensure (run.repositoryKey = repository.key)
      (.rollbackIneligible "bootstrap run belongs to another repository")
    .ensure (run.status = .applied ∧ run.rollbackRunId = none)
      (.rollbackIneligible "bootstrap run is not an unrolled-back applied run")
    let items ← .read fun s ↦ s.itemsOf target
    .ensure (items.length = run.itemCount) (.auditCorrupt "run item count mismatch")
    let targets := items.map (·.key.path)
    let blockers ← .foldEach (itemBlockers repository discovered) [] items
    let blockers ← .foldEach (dependentBlockers repository discovered targets) blockers discovered
    .ensure (blockers = []) (.rollbackIneligible ("; ".intercalate (blockers.mergeSort (· ≤ ·))))
    insertBootstrapRollback ⟨rollbackId, target, repository.key, actor, reason, run.itemCount⟩
    .forEach items.reverse.zipIdx (restoreItem repository rollbackId actor)
    markRolledBack target rollbackId
    pure ⟨rollbackId, run.itemCount⟩

end FamiliarAi
