import FamiliarAi.Relational.Recovery
import FamiliarAi.Storage.Lifecycle
import FamiliarAi.Storage.LegacyPaths
import FamiliarAi.Transition.System

/-!
# The reconciliation of file summary identities

A maintenance run gives the summaries of a project that an earlier version stored under absolute
paths their canonical paths. Before a row is touched, all of it is preserved in a record of the run:
the row is then *converted*, or it is deleted as a *conflict* where another row holds the canonical
path, or it is left alone as *unresolved*. A completed run can be rolled back from its records, and
the records are marked when it is.

The rows and the operations follow the source statement by statement. `identitySystem` runs them in
any order, next to the other writers of the summaries.
-/

namespace FamiliarAi

open Relational Transition

/-! ### Rows -/

inductive IdentityRunStatus
  | inProgress
  | completed
  | failed
  | interrupted
  deriving DecidableEq

inductive ReconciliationKind
  | converted
  | conflict
  | unresolved
  deriving DecidableEq

/-- A row of `file_summary_reconciliation_runs`. -/
structure ReconciliationRunRow where
  id : ℕ
  projectId : ℤ
  status : IdentityRunStatus
  totalExamined : ℕ := 0
  canonicalUnchanged : ℕ := 0
  converted : ℕ := 0
  conflicts : ℕ := 0
  unresolved : ℕ := 0
  previouslyReconciled : ℕ := 0
  failed : ℕ := 0

def identityRunSchema : Schema ReconciliationRunRow where
  clash r r' := r.id = r'.id

/-- A row of `file_summary_reconciliation_run_reasons`. -/
structure RunReasonRow where
  runId : ℕ
  reason : ReconciliationReason
  count : ℕ

def runReasonSchema : Schema RunReasonRow where
  clash r r' := r.runId = r'.runId ∧ r.reason = r'.reason

/-- A row of `file_summary_reconciliation_records`: the row of the summary as it was, and what
became of it. -/
structure ReconciliationRecord where
  id : ℕ
  runId : ℕ
  classification : ReconciliationKind
  unresolvedReason : Option ReconciliationReason
  mappedCanonicalPath : Option String
  resultingActiveId : Option ℕ
  original : FileSummaryRow
  rolledBackAt : Option String

def FileSummaryRow.SameVersion (row row' : FileSummaryRow) : Prop :=
  row.id = row'.id ∧ row.key.path = row'.key.path ∧ row.updatedAt = row'.updatedAt

instance : DecidableRel FileSummaryRow.SameVersion :=
  fun row row' ↦ inferInstanceAs (Decidable (row.id = row'.id ∧ _ ∧ _))

/-- The index on the originals covers the records that were not rolled back. -/
def reconciliationRecordSchema : Schema ReconciliationRecord where
  check r := (r.classification = .unresolved ↔ r.unresolvedReason.isSome) ∧
    (r.classification = .unresolved ∨ r.mappedCanonicalPath.isSome)
  clash r r' := r.id = r'.id ∨ r.rolledBackAt = none ∧ r'.rolledBackAt = none ∧
    r.original.key.projectId = r'.original.key.projectId ∧ r.original.SameVersion r'.original
  clash_symm r r' := by
    simp only [FileSummaryRow.SameVersion, eq_comm (a := r'.id), eq_comm (a := r'.original.id),
      eq_comm (a := r'.original.key.projectId), eq_comm (a := r'.original.key.path),
      eq_comm (a := r'.original.updatedAt), and_left_comm (a := r.rolledBackAt = none)]

/-- A row of `file_summary_reconciliation_rollbacks`. The rollback has succeeded where there is no
reason why it conflicts. -/
structure ReconciliationRollbackRow where
  id : ℕ
  runId : ℕ
  projectId : ℤ
  conflictReason : Option String

def reconciliationRollbackSchema : Schema ReconciliationRollbackRow where
  clash r r' := r.id = r'.id

/-- The last id that a row of each table was given. -/
structure IdentitySequences where
  summaries : ℕ := 0
  runs : ℕ := 0
  records : ℕ := 0
  rollbacks : ℕ := 0

/-- The tables that the reconciliation works on. -/
structure IdentityStore where
  projects : List RegisteredProjectRow
  sequences : IdentitySequences
  summaries : Table fileSummarySchema
  runs : Table identityRunSchema
  reasons : Table runReasonSchema
  records : Table reconciliationRecordSchema
  rollbacks : Table reconciliationRollbackSchema

namespace IdentityStore

variable (store : IdentityStore)

def project (projectId : ℤ) : Option RegisteredProjectRow :=
  store.projects.find? (·.id = projectId)

/-- `SELECT id FROM file_summaries WHERE project_id = ?1 AND path = ?2`. -/
def ownerOf (key : FileKey) : Option ℕ :=
  (store.summaries.find (·.key = key)).map (·.id)

/-- `load_project_rows`, in the order of their paths. -/
def projectRows (projectId : ℤ) : List FileSummaryRow :=
  (store.summaries.rows.filter (·.key.projectId = projectId)).insertionSort
    fun row row' ↦ row.key.path ≤ row'.key.path

/-- `load_prior_reconciliations`. -/
def priorReconciliations (projectId : ℤ) : List ReconciliationRecord :=
  store.records.rows.filter fun record ↦
    record.original.key.projectId = projectId ∧ record.rolledBackAt = none

/-- `load_run_reconciliations`. -/
def runReconciliations (runId : ℕ) : List ReconciliationRecord :=
  store.records.rows.filter fun record ↦ record.runId = runId ∧ record.rolledBackAt = none

end IdentityStore

/-- A program over the store. -/
abbrev IdentityQuery := Query IdentityStore FamiliarError

/-- The answer of the engine to a write that violates a constraint. -/
def identityConstraint : FamiliarError :=
  .database "constraint failed"

/-- A statement on `file_summaries`. -/
def onSummaries (f : Table fileSummarySchema → Option (Table fileSummarySchema)) :
    IdentityQuery Unit :=
  .writePart identityConstraint (·.summaries) (fun store summaries ↦ { store with summaries }) f

/-- A statement on `file_summary_reconciliation_runs`. -/
def onRuns (f : Table identityRunSchema → Option (Table identityRunSchema)) :
    IdentityQuery Unit :=
  .writePart identityConstraint (·.runs) (fun store runs ↦ { store with runs }) f

/-! ### A run -/

def tallyReason (reason : ReconciliationReason) :
    List (ReconciliationReason × ℕ) → List (ReconciliationReason × ℕ)
  | [] => [(reason, 1)]
  | (other, count) :: rest =>
    if reason = other then (other, count + 1) :: rest
    else if reason.asStr < other.asStr then (reason, 1) :: (other, count) :: rest
    else (other, count) :: tallyReason reason rest

/-- What a run has counted. -/
structure ReconciliationCounts where
  canonicalUnchanged : ℕ := 0
  converted : ℕ := 0
  conflicts : ℕ := 0
  previouslyReconciled : ℕ := 0
  unresolvedByReason : List (ReconciliationReason × ℕ) := []
  preservedRecordIds : List ℕ := []

def ReconciliationCounts.unresolved (counts : ReconciliationCounts) : ℕ :=
  (counts.unresolvedByReason.map (·.2)).sum

/-- A row was reconciled by an earlier run, which may have left it unresolved. -/
def ReconciliationCounts.previous (counts : ReconciliationCounts)
    (reason : Option ReconciliationReason) : ReconciliationCounts :=
  { counts with
    previouslyReconciled := counts.previouslyReconciled + 1
    unresolvedByReason := match reason with
      | some reason => tallyReason reason counts.unresolvedByReason
      | none => counts.unresolvedByReason }

def ReconciliationCounts.preserve (counts : ReconciliationCounts) (recordId : ℕ) :
    ReconciliationCounts :=
  { counts with preservedRecordIds := counts.preservedRecordIds ++ [recordId] }

structure FileSummaryReconciliationResult where
  runId : ℕ
  projectId : ℤ
  totalExamined : ℕ
  counts : ReconciliationCounts

/-- `INSERT INTO file_summary_reconciliation_runs`, with the id that the row was given. -/
def insertReconciliationRun (projectId : ℤ) : IdentityQuery ℕ :=
  .change identityConstraint fun store ↦
    (store.runs.insert
      { id := store.sequences.runs + 1, projectId, status := .inProgress }).map fun runs ↦
        (store.sequences.runs + 1,
          { store with
            runs
            sequences := { store.sequences with runs := store.sequences.runs + 1 } })

/-- `start_file_summary_reconciliation`. The runs of the project that are under way were abandoned.
-/
def startFileSummaryReconciliation (projectId : ℤ) : IdentityQuery ℕ := do
  let projectExists ← .read fun store ↦ (store.project projectId).isSome
  .ensure (projectExists = true) (.database ("project " ++ toString projectId ++ " does not exist"))
  onRuns (·.update (fun row ↦ row.projectId = projectId ∧ row.status = .inProgress)
    fun row ↦ { row with status := .interrupted, failed := 1 })
  insertReconciliationRun projectId

/-- `record_failed_file_summary_reconciliation`. -/
def recordFailedReconciliation (runId : ℕ) : IdentityQuery Unit :=
  onRuns (·.update (·.id = runId) fun row ↦ { row with status := .failed, failed := 1 })

/-- `preserve_reconciliation_record`, with the id that the record was given. -/
def preserveReconciliationRecord (runId : ℕ) (original : FileSummaryRow)
    (classification : ReconciliationKind) (unresolvedReason : Option ReconciliationReason)
    (mappedCanonicalPath : Option String) (resultingActiveId : Option ℕ) : IdentityQuery ℕ :=
  .change identityConstraint fun store ↦
    (store.records.insert
      ⟨store.sequences.records + 1, runId, classification, unresolvedReason, mappedCanonicalPath,
        resultingActiveId, original, none⟩).map fun records ↦
        (store.sequences.records + 1,
          { store with
            records
            sequences := { store.sequences with records := store.sequences.records + 1 } })

/-- The ids of the rows that earlier runs have converted. -/
def priorResultingIds (priors : List ReconciliationRecord) : List ℕ :=
  (priors.filter (·.classification = .converted)).filterMap (·.resultingActiveId)

def priorOriginal (priors : List ReconciliationRecord) (row : FileSummaryRow) :
    Option ReconciliationRecord :=
  (priors.filter (·.original.SameVersion row)).getLast?

/-- One round of the loop of `reconcile_project`. -/
def reconcileRow (projectId : ℤ) (runId : ℕ) (repoRoot : String)
    (priors : List ReconciliationRecord) (counts : ReconciliationCounts) (row : FileSummaryRow) :
    IdentityQuery ReconciliationCounts :=
  if row.id ∈ priorResultingIds priors ∨ (priorOriginal priors row).isSome then
    pure (counts.previous ((priorOriginal priors row).bind (·.unresolvedReason)))
  else
    match classifyIdentity (some repoRoot) row.key.path with
    | .canonical => pure { counts with canonicalUnchanged := counts.canonicalUnchanged + 1 }
    | .unresolved reason => do
      let recordId ←
        preserveReconciliationRecord runId row .unresolved (some reason) none (some row.id)
      let counts := counts.preserve recordId
      pure { counts with unresolvedByReason := tallyReason reason counts.unresolvedByReason }
    | .mapped canonicalPath => do
      let canonicalId ← .read (·.ownerOf ⟨projectId, canonicalPath⟩)
      let classification : ReconciliationKind :=
        if canonicalId.isSome then .conflict else .converted
      let recordId ← preserveReconciliationRecord runId row classification none
        (some canonicalPath) (canonicalId.or (some row.id))
      let counts := counts.preserve recordId
      if canonicalId.isSome then do
        onSummaries fun summaries ↦ some <|
          summaries.delete fun row' ↦ row'.id = row.id ∧ row'.key.projectId = projectId
        pure { counts with conflicts := counts.conflicts + 1 }
      else do
        onSummaries (·.update (fun row' ↦ row'.id = row.id ∧ row'.key.projectId = projectId)
          fun row' ↦ { row' with key := ⟨row'.key.projectId, canonicalPath⟩ })
        pure { counts with converted := counts.converted + 1 }

/-- `reconcile_project`, without the failure that its tests inject. -/
def reconcileProject (projectId : ℤ) (runId : ℕ) :
    IdentityQuery FileSummaryReconciliationResult := do
  match ← .read fun store ↦ (store.project projectId).map (·.repoRoot) with
  | none => .fail (.database ("project " ++ toString projectId ++ " does not exist"))
  | some repoRoot => do
    let rows ← .read (·.projectRows projectId)
    let priors ← .read (·.priorReconciliations projectId)
    let archivedConflicts := priors.countP (·.classification = .conflict)
    let counts ← .foldEach (reconcileRow projectId runId repoRoot priors)
      { previouslyReconciled := archivedConflicts } rows
    let totalExamined := rows.length + archivedConflicts
    onRuns (·.update (·.id = runId) fun row ↦
      { row with
        status := .completed
        totalExamined
        canonicalUnchanged := counts.canonicalUnchanged
        converted := counts.converted
        conflicts := counts.conflicts
        unresolved := counts.unresolved
        previouslyReconciled := counts.previouslyReconciled })
    .forEach counts.unresolvedByReason fun reason ↦
      .writePart identityConstraint (·.reasons) (fun store reasons ↦ { store with reasons })
        (·.insert ⟨runId, reason.1, reason.2⟩)
    pure ⟨runId, projectId, totalExamined, counts⟩

/-- `reconcile_file_summary_identities`. The run is registered before the transaction, and marked as
failed behind it. -/
def reconcileFileSummaryIdentities (projectId : ℤ) :
    IdentityQuery FileSummaryReconciliationResult := do
  let runId ← startFileSummaryReconciliation projectId
  .transactionOr (reconcileProject projectId runId) (recordFailedReconciliation runId)

/-! ### A rollback -/

structure FileSummaryRollbackResult where
  rollbackId : ℕ
  runId : ℕ
  projectId : ℤ
  restored : ℕ

/-- `INSERT INTO file_summary_reconciliation_rollbacks`, with the id that the row was given. -/
def insertRollback (runId : ℕ) (projectId : ℤ) (conflictReason : Option String) :
    IdentityQuery ℕ :=
  .change identityConstraint fun store ↦
    (store.rollbacks.insert ⟨store.sequences.rollbacks + 1, runId, projectId, conflictReason⟩).map
      fun rollbacks ↦
        (store.sequences.rollbacks + 1,
          { store with
            rollbacks
            sequences := { store.sequences with rollbacks := store.sequences.rollbacks + 1 } })

def FileSummaryRow.sameNonPathFields (left right : FileSummaryRow) : Bool :=
  left.id = right.id ∧ left.key.projectId = right.key.projectId ∧ left.content = right.content ∧
    left.lastUpdatedAt = right.lastUpdatedAt ∧ left.createdAt = right.createdAt ∧
    left.updatedAt = right.updatedAt

def loadSummaryById (id : ℕ) : IdentityQuery (Option FileSummaryRow) :=
  .read fun store ↦ store.summaries.find (·.id = id)

/-- Why the row itself does not stand as the record has left it. -/
def rowConflict (record : ReconciliationRecord) : Option FileSummaryRow → Option String
  | current =>
    match record.classification with
    | .unresolved => none
    | .converted =>
      match record.mappedCanonicalPath, current with
      | none, _ => some "missing mapped path"
      | some _, none => some "converted active row is missing"
      | some mappedPath, some current =>
        if current.key.path ≠ mappedPath ∨ ¬current.sameNonPathFields record.original then
          some "converted active row changed after reconciliation"
        else none
    | .conflict =>
      if current.isSome then some "original conflict row id is occupied" else none

/-- Why what a record says cannot be taken back now, if there is a reason. -/
def rollbackConflict (projectId : ℤ) (record : ReconciliationRecord) :
    IdentityQuery (Option String) :=
  if record.classification = .unresolved then pure none
  else do
    let current ← loadSummaryById record.original.id
    match rowConflict record current with
    | some reason => pure (some reason)
    | none => do
      let pathOwner ← .read (·.ownerOf ⟨projectId, record.original.key.path⟩)
      pure (if ∃ owner ∈ pathOwner, owner ≠ record.original.id then
        some "original legacy path is occupied" else none)

def firstRollbackConflict (projectId : ℤ) :
    List ReconciliationRecord → IdentityQuery (Option String)
  | [] => pure none
  | record :: records => do
    match ← rollbackConflict projectId record with
    | some reason => pure (some reason)
    | none => firstRollbackConflict projectId records

/-- Take back what a record says. -/
def restoreRecord (projectId : ℤ) (record : ReconciliationRecord) : IdentityQuery Unit :=
  match record.classification with
  | .converted =>
    onSummaries (·.update
      (fun row ↦ row.id = record.original.id ∧ row.key.projectId = projectId)
      fun row ↦ { row with key := ⟨row.key.projectId, record.original.key.path⟩ })
  | .conflict => onSummaries (·.insert record.original)
  | .unresolved => pure ()

def recordRollbackConflict (runId : ℕ) (projectId : ℤ) (message : String) :
    IdentityQuery (Except String FileSummaryRollbackResult) := do
  let _ ← insertRollback runId projectId (some message)
  pure (.error message)

/-- The end of `rollback_run`, behind its validation. -/
def restoreRun (runId : ℕ) (projectId : ℤ) (records : List ReconciliationRecord) (now : String) :
    IdentityQuery (Except String FileSummaryRollbackResult) := do
  .forEach records (restoreRecord projectId)
  .writePart identityConstraint (·.records) (fun store records ↦ { store with records })
    (·.update (fun record ↦ record.runId = runId ∧ record.rolledBackAt = none)
      fun record ↦ { record with rolledBackAt := some now })
  let rollbackId ← insertRollback runId projectId none
  pure (.ok ⟨rollbackId, runId, projectId, records.countP (·.classification ≠ .unresolved)⟩)

def rollbackRun (runId : ℕ) (now : String) :
    IdentityQuery (Except String FileSummaryRollbackResult) := do
  let projectId ← .read fun store ↦
    (store.runs.find fun row ↦ row.id = runId ∧ row.status = .completed).map (·.projectId)
  match projectId with
  | none =>
    .fail (.database ("completed reconciliation run " ++ toString runId ++ " does not exist"))
  | some projectId => do
    let records ← .read (·.runReconciliations runId)
    if records = [] then
      recordRollbackConflict runId projectId "run has no restorable records"
    else if ∀ record ∈ records, record.classification = .unresolved then
      recordRollbackConflict runId projectId
        "run contains only unresolved records and changed no active identity"
    else do
      match ← firstRollbackConflict projectId records with
      | some reason => recordRollbackConflict runId projectId reason
      | none => restoreRun runId projectId records now

/-- `rollback_file_summary_reconciliation`. A conflict is recorded, and is a failure all the same.
-/
def rollbackFileSummaryReconciliation (runId : ℕ) (now : String) :
    IdentityQuery FileSummaryRollbackResult := do
  match ← .transaction (rollbackRun runId now) with
  | .ok result => pure result
  | .error message => .fail (.database message)

namespace IdentityStore

variable (store : IdentityStore)

/-- A row of `file_summaries` under the next id. -/
def insertSummary (key : FileKey) (content : SummaryContent)
    (lastUpdatedAt createdAt updatedAt : String) : Option IdentityStore :=
  if (store.project key.projectId).isSome then
    (store.summaries.insert ⟨store.sequences.summaries + 1, key, content, lastUpdatedAt, createdAt,
      updatedAt⟩).map fun summaries ↦
        { store with
          summaries
          sequences := { store.sequences with summaries := store.sequences.summaries + 1 } }
  else none

/-- `create_or_update_file_summary`: `UPSERT_FILE_SUMMARY` behind the validation of the path. -/
def createOrUpdate (value : NewFileSummary) (now : String) : Option IdentityStore :=
  if validateStored value.key.path = .ok () then
    if (store.summaries.find (·.key = value.key)).isSome then
      (store.summaries.update (·.key = value.key) fun row ↦
        { row with content := value.content, lastUpdatedAt := now, updatedAt := now }).map
          fun summaries ↦ { store with summaries }
    else store.insertSummary value.key value.content now now now
  else none

/-- `DELETE_FILE_SUMMARY`. The lifecycle deletes a row by its path, which is the row with its id. -/
def deleteFileSummary (id : ℕ) : IdentityStore :=
  { store with summaries := store.summaries.delete (·.id = id) }

/-- The root and the state of a project change. -/
def updateProject (row : RegisteredProjectRow) : IdentityStore :=
  { store with projects := store.projects.map fun row' ↦ if row'.id = row.id then row else row' }

/-- `DELETE_PROJECT`, with what belongs to the project. -/
def deleteProject (projectId : ℤ) : IdentityStore :=
  { store with
    projects := store.projects.filter (·.id ≠ projectId)
    summaries := store.summaries.delete (·.key.projectId = projectId)
    runs := store.runs.delete (·.projectId = projectId)
    reasons := store.reasons.delete fun row ↦
      ∃ run ∈ store.runs.rows, run.id = row.runId ∧ run.projectId = projectId
    records := store.records.delete (·.original.key.projectId = projectId)
    rollbacks := store.rollbacks.delete (·.projectId = projectId) }

end IdentityStore

inductive IdentityEvent
  | createOrUpdate (value : NewFileSummary) (now : String)
  /-- A row of an earlier version, under any path. -/
  | insertLegacy (key : FileKey) (content : SummaryContent)
    (lastUpdatedAt createdAt updatedAt : String)
  | deleteFileSummary (id : ℕ)
  | registerProject (row : RegisteredProjectRow)
  | updateProject (row : RegisteredProjectRow)
  | deleteProject (projectId : ℤ)
  | reconcile (projectId : ℤ) (faults : List (Option FamiliarError))
  | rollback (runId : ℕ) (now : String) (faults : List (Option FamiliarError))

def IdentityEvent.apply (store : IdentityStore) : IdentityEvent → IdentityStore
  | createOrUpdate value now => (store.createOrUpdate value now).getD store
  | insertLegacy key content lastUpdatedAt createdAt updatedAt =>
    (store.insertSummary key content lastUpdatedAt createdAt updatedAt).getD store
  | deleteFileSummary id => store.deleteFileSummary id
  | registerProject row => { store with projects := store.projects ++ [row] }
  | updateProject row => store.updateProject row
  | deleteProject projectId => store.deleteProject projectId
  | reconcile projectId faults =>
    ((reconcileFileSummaryIdentities projectId).run ⟨store, faults⟩).2.store
  | rollback runId now faults =>
    ((rollbackFileSummaryReconciliation runId now).run ⟨store, faults⟩).2.store

/-- The store before any reconciliation: any summaries, whose ids come from the sequence. -/
structure IdentityStore.Fresh (store : IdentityStore) : Prop where
  summaries : ∀ row ∈ store.summaries.rows, row.id ≤ store.sequences.summaries
  runs : store.runs = .empty
  reasons : store.reasons = .empty
  records : store.records = .empty
  rollbacks : store.rollbacks = .empty

/-- The reconciliation next to the other writers, in any order. -/
def identitySystem : System IdentityStore IdentityEvent where
  start := IdentityStore.Fresh
  step store event := some (event.apply store)

end FamiliarAi
