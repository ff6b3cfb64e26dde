import Mathlib.Data.List.Sort
import FamiliarAi.Storage.Inventory

/-!
# The file lifecycle

The operations on the inventory, statement by statement: a watcher observes that files were changed,
removed or renamed, a summary worker commits the summaries of the pending work, and a scan stages what
it finds and reconciles the inventory with it. Each observation draws its order from the counter of the
project. The tests of the source on the filesystem are answered by a function.
-/

namespace FamiliarAi

open Relational Text

/-- A program over the inventory. -/
abbrev LifecycleQuery := Query Inventory FamiliarError

/-- The answer of the engine to a write that violates a constraint. -/
def lifecycleConstraint : FamiliarError :=
  .database "constraint failed"

/-- The answer of the engine to a query that has to find a row, and finds none. -/
def lifecycleNoRows : FamiliarError :=
  .database "Query returned no rows"

def validateKey (key : FileKey) : LifecycleQuery Unit :=
  .ofExcept (match validateStored key.path with
    | .ok () => .ok ()
    | .error e => .error (.database ("invalid canonical lifecycle identity: " ++ e.display)))

def nextOrder (projectId : ℤ) : LifecycleQuery ℕ := do
  .writePart lifecycleConstraint (·.orders) (fun inventory orders ↦ { inventory with orders })
    fun orders ↦ orders.upsert (·.projectId = projectId)
      (fun row ↦ { row with lastOrder := row.lastOrder + 1 }) ⟨projectId, 1⟩
  match ← .read fun inventory ↦
      (inventory.orders.find (·.projectId = projectId)).map (·.lastOrder) with
  | some order => pure order
  | none => .fail lifecycleNoRows

def ensureProjectReady (projectId : ℤ) : LifecycleQuery Unit := do
  let active ← .read fun inventory ↦ (inventory.project projectId).map (·.active)
  .ensure (active = some true)
    (.database ("project " ++ toString projectId ++ " is missing or inactive"))
  let unresolved ← .read fun inventory ↦ inventory.legacyIdentities.countP fun row ↦
    row.projectId = projectId ∧ row.classification = "unresolved" ∧ row.rolledBackAt = none
  .ensure (unresolved = 0)
    (.database ("project " ++ toString projectId ++ " has unresolved legacy identities"))

/-- `INSERT OR IGNORE INTO file_summary_lifecycle_tombstones … SELECT … FROM file_summaries`. -/
def Inventory.entomb (inventory : Inventory) (key : FileKey) (reason : RetirementReason)
    (source : String) (causeId : Option ℕ) (related : Option String) (order : ℕ) : Inventory :=
  match inventory.summary key with
  | none => inventory
  | some row =>
    { inventory with
      tombstones := inventory.tombstones.insertOrIgnore
        ⟨inventory.sequences.tombstones + 1, row, reason, source, causeId, related, order⟩
      sequences := { inventory.sequences with tombstones := inventory.sequences.tombstones + 1 } }

/-- `preserve_and_delete`: the active summary of the file becomes a tombstone. -/
def preserveAndDelete (key : FileKey) (reason : RetirementReason) (source : String)
    (causeId : Option ℕ) (related : Option String) (order : ℕ) : LifecycleQuery (Option ℕ) := do
  .write lifecycleConstraint fun inventory ↦
    some (inventory.entomb key reason source causeId related order)
  let tombstone ← .read fun inventory ↦ (inventory.tombstones.find fun row ↦
    row.original.key = key ∧ row.observationOrder = order).map (·.id)
  .write lifecycleConstraint fun inventory ↦
    some { inventory with summaries := inventory.summaries.delete (·.key = key) }
  pure tombstone

/-- A statement on `pending_summary_work`. -/
def onPendingWork (f : Table pendingWorkSchema → Option (Table pendingWorkSchema)) :
    LifecycleQuery Unit :=
  .writePart lifecycleConstraint (·.pendingWork)
    (fun inventory pendingWork ↦ { inventory with pendingWork }) f

def upsertPending (key : FileKey) (kind : LifecycleChange) (order : ℕ) (deferred : Bool) :
    LifecycleQuery ℕ := do
  .write lifecycleConstraint fun inventory ↦
    (inventory.pendingWork.upsert (·.key = key)
      (fun row ↦ { row with
        kind, status := .pending, observationOrder := order, dispatchDeferred := deferred })
      ⟨inventory.sequences.pendingWork + 1, key, kind, .pending, 0, order, deferred⟩).map
        fun pendingWork ↦
          { inventory with
            pendingWork
            sequences :=
              { inventory.sequences with pendingWork := inventory.sequences.pendingWork + 1 } }
  match ← .read fun inventory ↦ (inventory.work key).map (·.id) with
  | some id => pure id
  | none => .fail lifecycleNoRows

/-- `INSERT INTO repository_observations`. -/
def recordObservation (row : ObservationRow) : LifecycleQuery Unit :=
  .writePart lifecycleConstraint (·.observations)
    (fun inventory observations ↦ { inventory with observations }) (·.insert row)

/-- What an observation has led to. -/
structure LifecycleOutcome where
  observationOrder : ℕ
  pendingId : Option ℕ
  tombstoneId : Option ℕ

def LifecycleChange.observed : LifecycleChange → ObservationKind
  | create => .created
  | modify => .modified

def observeChange (key : FileKey) (change : LifecycleChange) (source : String) (deferred : Bool) :
    LifecycleQuery LifecycleOutcome := do
  validateKey key
  .transaction do
    ensureProjectReady key.projectId
    let order ← nextOrder key.projectId
    let tombstone ← (if change = .modify then
        preserveAndDelete key .modified source none none order
      else pure none : LifecycleQuery (Option ℕ))
    let pending ← upsertPending key change order deferred
    recordObservation ⟨key, order, change.observed, source, none, "pending"⟩
    pure ⟨order, some pending, tombstone⟩

def retireAbsent (key : FileKey) (reason : RetirementReason) (source : String)
    (causeId : Option ℕ) : LifecycleQuery LifecycleOutcome := do
  validateKey key
  .transaction do
    ensureProjectReady key.projectId
    let order ← nextOrder key.projectId
    let tombstone ← preserveAndDelete key reason source causeId none order
    onPendingWork (·.update (fun row ↦ row.key = key ∧ row.status.IsOpen) fun row ↦
      { row with status := .superseded })
    recordObservation ⟨key, order, .removed, source, none, "retired"⟩
    pure ⟨order, none, tombstone⟩

/-- `observe_exact_rename`. The new path is observed under an order of its own, and its work is pending
under the order of the old path. -/
def observeExactRename (projectId : ℤ) (oldPath newPath source : String) (deferred : Bool) :
    LifecycleQuery LifecycleOutcome := do
  validateKey ⟨projectId, oldPath⟩
  validateKey ⟨projectId, newPath⟩
  .ensure (oldPath ≠ newPath) (.database "case-only or identical rename is ambiguous")
  .transaction do
    ensureProjectReady projectId
    let order ← nextOrder projectId
    let targetExists ← .read fun inventory ↦
      inventory.summaries.count (·.key = ⟨projectId, newPath⟩)
    .ensure (targetExists = 0) (.database "rename target already has an active summary")
    let tombstone ←
      preserveAndDelete ⟨projectId, oldPath⟩ .renamed source none (some newPath) order
    onPendingWork (·.update (·.key = ⟨projectId, oldPath⟩) fun row ↦
      { row with status := .superseded })
    let pending ← upsertPending ⟨projectId, newPath⟩ .create order deferred
    recordObservation ⟨⟨projectId, oldPath⟩, order, .renamedFrom, source, some newPath, "pending"⟩
    let arrival ← nextOrder projectId
    recordObservation ⟨⟨projectId, newPath⟩, arrival, .renamedTo, source, some oldPath, "pending"⟩
    pure ⟨order, some pending, tombstone⟩

def PendingSummaryWork.listedBefore (work work' : PendingSummaryWork) : Bool :=
  work.observationOrder < work'.observationOrder ∨
    work.observationOrder = work'.observationOrder ∧ work.key.path ≤ work'.key.path

def Inventory.listPendingSummaryWork (inventory : Inventory) (projectId : ℤ) (limit : ℕ) :
    List PendingSummaryWork :=
  ((inventory.pendingWork.rows.filter fun row ↦ row.key.projectId = projectId ∧
    row.status ∈ [.pending, .interrupted, .failed]).mergeSort
      PendingSummaryWork.listedBefore).take limit

/-- A summary as a worker has made it. -/
structure NewFileSummary where
  key : FileKey
  summary : String
  tags : List String
  extractedSymbols : List String
  lastKnownMtime : Option ℤ
  lastKnownSize : Option ℤ

def NewFileSummary.content (value : NewFileSummary) : SummaryContent where
  summary := value.summary
  tagsJson := String.ofList (Json.array .str value.tags).render
  extractedSymbolsJson := some (String.ofList (Json.array .str value.extractedSymbols).render)
  lastKnownMtime := value.lastKnownMtime
  lastKnownSize := value.lastKnownSize

def Inventory.upsertSummary (inventory : Inventory) (value : NewFileSummary) (now : String) :
    Option Inventory :=
  if (inventory.project value.key.projectId).isSome then
    (inventory.summaries.upsert (·.key = value.key)
      (fun row ↦ { row with content := value.content, lastUpdatedAt := now, updatedAt := now })
      ⟨inventory.sequences.summaries + 1, value.key, value.content, now, now, now⟩).map
        fun summaries ↦
          { inventory with
            summaries
            sequences :=
              { inventory.sequences with summaries := inventory.sequences.summaries + 1 } }
  else none

/-- `SELECT MAX(observation_order) FROM pending_summary_work` of a file. -/
def latestWorkOrder (work : Table pendingWorkSchema) (key : FileKey) : ℕ :=
  ((work.rows.filter (·.key = key)).map (·.observationOrder)).foldr max 0

def commitSummaryWork (value : NewFileSummary) (now : String) : LifecycleQuery Unit := do
  validateKey value.key
  .transaction do
    .write lifecycleConstraint fun inventory ↦ inventory.upsertSummary value now
    onPendingWork fun work ↦ work.update
      (fun row ↦ row.key = value.key ∧ row.observationOrder = latestWorkOrder work value.key)
      fun row ↦ { row with status := .completed, dispatchDeferred := false }

def completeSummaryWork (key : FileKey) : LifecycleQuery Unit := do
  validateKey key
  onPendingWork (·.update (·.key = key) fun row ↦
    { row with status := .completed, dispatchDeferred := false })

def failSummaryWork (key : FileKey) : LifecycleQuery Unit :=
  onPendingWork (·.update (·.key = key) fun row ↦
    { row with status := .failed, attemptCount := row.attemptCount + 1 })

/-! ### Scans -/

/-- A scan, as the one who runs it knows it. -/
structure ScanRun where
  id : ℕ
  projectId : ℤ
  root : String
  startObservationOrder : ℕ
  deriving DecidableEq

/-- A statement on `repository_scan_runs`. -/
def onScanRuns (f : Table scanRunSchema → Option (Table scanRunSchema)) : LifecycleQuery Unit :=
  .writePart lifecycleConstraint (·.scanRuns)
    (fun inventory scanRuns ↦ { inventory with scanRuns }) f

def countScan (runId : ℕ) (f : ScanCounts → ScanCounts) : LifecycleQuery Unit :=
  onScanRuns (·.update (·.id = runId) fun row ↦ { row with counts := f row.counts })

def ScanPhaseStatus.interrupt : ScanPhaseStatus → ScanPhaseStatus
  | complete => .complete
  | _ => .interrupted

/-- `INSERT INTO repository_scan_runs`, with the id that the row was given. -/
def insertScanRun (projectId : ℤ) (root : String) (boundary : ℕ) : LifecycleQuery ℕ :=
  .change lifecycleConstraint fun inventory ↦
    (inventory.scanRuns.insert ⟨inventory.sequences.scanRuns + 1, projectId, root, boundary,
      .running, .running, .notStarted, false, {}⟩).map fun scanRuns ↦
        (inventory.sequences.scanRuns + 1,
          { inventory with
            scanRuns
            sequences :=
              { inventory.sequences with scanRuns := inventory.sequences.scanRuns + 1 } })

/-- `start_repository_scan`. The scans of the project that are under way are interrupted. -/
def startRepositoryScan (projectId : ℤ) (root : String) : LifecycleQuery ScanRun :=
  .transaction do
    ensureProjectReady projectId
    match ← .read fun inventory ↦ (inventory.project projectId).map (·.repoRoot) with
    | none => .fail lifecycleNoRows
    | some registered => do
      .ensure (registered = root) (.database "scan root does not match registered project root")
      onScanRuns (·.update
        (fun row ↦ row.projectId = projectId ∧ row.status ∈ [.running, .enumerationComplete])
        fun row ↦ { row with
          status := .interrupted
          enumerationStatus := row.enumerationStatus.interrupt
          reconciliationStatus := row.reconciliationStatus.interrupt })
      let boundary ← .read (·.lastOrder projectId)
      let id ← insertScanRun projectId root boundary
      pure ⟨id, projectId, root, boundary⟩

/-- The classification that a text names. -/
def ScanClassification.parse : String → Option ScanClassification
  | "eligible" => some .eligible
  | "excluded" => some .excluded
  | "rejected" => some .rejected
  | "failed" => some .failed
  | _ => none

def ScanCounts.stage (counts : ScanCounts) (classification : ScanClassification) : ScanCounts :=
  let counts := { counts with visited := counts.visited + 1, staged := counts.staged + 1 }
  match classification with
  | .eligible => { counts with eligible := counts.eligible + 1 }
  | .excluded => { counts with excluded := counts.excluded + 1 }
  | .rejected => { counts with rejected := counts.rejected + 1 }
  | .failed => { counts with failed := counts.failed + 1 }

/-- `INSERT OR IGNORE INTO repository_scan_entries`, with how many rows it has written. -/
def stageEntry (run : ScanRun) (path : String) (classification : ScanClassification)
    (detail : Option String) : LifecycleQuery ℕ :=
  .change lifecycleConstraint fun inventory ↦
    if (inventory.scanRun run.id).isSome ∧ (inventory.project run.projectId).isSome then
      match inventory.scanEntries.insert ⟨run.id, ⟨run.projectId, path⟩, classification, detail⟩ with
      | some scanEntries => some (1, { inventory with scanEntries })
      | none => some (0, inventory)
    else none

def stageScanEntry (run : ScanRun) (path classification : String) (detail : Option String) :
    LifecycleQuery Unit := do
  validateKey ⟨run.projectId, path⟩
  match ScanClassification.parse classification with
  | none => .fail (.database "invalid scan classification")
  | some classification => do
    let changed ← stageEntry run path classification detail
    Query.when (changed ≠ 0) do
      onScanRuns (·.update (fun row ↦ row.id = run.id ∧ row.status = .running) fun row ↦
        { row with counts := row.counts.stage classification })

def failRepositoryScan (runId : ℕ) : LifecycleQuery Unit :=
  onScanRuns (·.update (·.id = runId) fun row ↦ { row with
    status := .incomplete
    enumerationStatus := .incomplete
    reconciliationStatus := .notStarted
    absencePermitted := false })

def markScanEnumerationComplete (runId : ℕ) : LifecycleQuery Unit :=
  onScanRuns (·.update (fun row ↦ row.id = runId ∧ row.status = .running) fun row ↦ { row with
    status := .enumerationComplete
    enumerationStatus := .complete
    reconciliationStatus := .running
    absencePermitted := true })

/-- What the filesystem has at a path. -/
inductive HostEntry
  | absent
  | notFile
  | file
  | error (message : String)

def Inventory.stagedPaths (inventory : Inventory) (runId : ℕ) : List String :=
  ((inventory.scanEntries.rows.filter fun row ↦
    row.scanRunId = runId ∧ row.classification = .eligible).map (·.key.path)).mergeSort (· ≤ ·)

def Inventory.activePaths (inventory : Inventory) (projectId : ℤ) : List String :=
  ((inventory.summaries.rows.filter (·.key.projectId = projectId)).map (·.key.path)).mergeSort
    (· ≤ ·)

/-- What is done about a staged entry. -/
def reconcileStaged (run : ScanRun) (path : String) : LifecycleQuery Unit := do
  let later ← .read fun inventory ↦
    inventory.countLater ⟨run.projectId, path⟩ run.startObservationOrder
  if later ≠ 0 then
    countScan run.id fun counts ↦ { counts with laterWatcherWins := counts.laterWatcherWins + 1 }
  else
    let active ← .read fun inventory ↦ inventory.summaries.count (·.key = ⟨run.projectId, path⟩)
    if active ≠ 0 then
      countScan run.id fun counts ↦ { counts with unchanged := counts.unchanged + 1 }
    else
      let _ ← observeChange ⟨run.projectId, path⟩ .create "scan" true
      countScan run.id fun counts ↦ { counts with pendingCreate := counts.pendingCreate + 1 }

/-- What is done about an active summary. The staged paths are sorted, and searched by halving. -/
def reconcileActive (run : ScanRun) (staged : List String) (host : String → HostEntry)
    (path : String) : LifecycleQuery Unit :=
  if path ∈ staged then pure ()
  else do
    let later ← .read fun inventory ↦
      inventory.countLater ⟨run.projectId, path⟩ run.startObservationOrder
    if later ≠ 0 then pure ()
    else
      match host path with
      | .absent =>
        let _ ← retireAbsent ⟨run.projectId, path⟩ .deleted "scan" (some run.id)
        countScan run.id fun counts ↦ { counts with retiredDelete := counts.retiredDelete + 1 }
      | .notFile =>
        let _ ← retireAbsent ⟨run.projectId, path⟩ .ineligible "scan" (some run.id)
        countScan run.id fun counts ↦
          { counts with retiredIneligible := counts.retiredIneligible + 1 }
      | .file => pure ()
      | .error message =>
        failRepositoryScan run.id
        .fail (.database ("absence revalidation failed: " ++ message))

/-- `reconcile_repository_scan`. `host` tells what the filesystem has below the root of the scan. -/
def reconcileRepositoryScan (run : ScanRun) (host : String → HostEntry) : LifecycleQuery Unit := do
  let state ← .read fun inventory ↦ (inventory.scanRuns.find fun row ↦
    row.id = run.id ∧ row.projectId = run.projectId).map (·.status)
  .ensure (state = some .enumerationComplete)
    (.database "only an enumeration-complete scan may reconcile absence")
  let staged ← .read (·.stagedPaths run.id)
  Query.forEach staged (reconcileStaged run)
  let active ← .read (·.activePaths run.projectId)
  Query.forEach active (reconcileActive run staged host)
  onScanRuns (·.update (·.id = run.id) fun row ↦
    { row with status := .reconciliationComplete, reconciliationStatus := .complete })

/-- One call of a watcher or of a scan. -/
inductive LifecycleCall
  | observeChange (key : FileKey) (change : LifecycleChange) (source : String) (deferred : Bool)
  | retireAbsent (key : FileKey) (reason : RetirementReason) (source : String) (causeId : Option ℕ)
  | observeExactRename (projectId : ℤ) (oldPath newPath source : String) (deferred : Bool)
  | startRepositoryScan (projectId : ℤ) (root : String)
  | stageScanEntry (run : ScanRun) (path classification : String) (detail : Option String)
  | failRepositoryScan (runId : ℕ)
  | markScanEnumerationComplete (runId : ℕ)
  | reconcileRepositoryScan (run : ScanRun) (host : String → HostEntry)

/-- What a call answers. -/
inductive LifecycleAnswer
  | done
  | outcome (outcome : LifecycleOutcome)
  | scan (run : ScanRun)

/-- The operation that a call names. -/
def LifecycleCall.query : LifecycleCall → LifecycleQuery LifecycleAnswer
  | .observeChange key change source deferred => do
    pure (.outcome (← FamiliarAi.observeChange key change source deferred))
  | .retireAbsent key reason source causeId => do
    pure (.outcome (← FamiliarAi.retireAbsent key reason source causeId))
  | .observeExactRename projectId oldPath newPath source deferred => do
    pure (.outcome (← FamiliarAi.observeExactRename projectId oldPath newPath source deferred))
  | .startRepositoryScan projectId root => do
    pure (.scan (← FamiliarAi.startRepositoryScan projectId root))
  | .stageScanEntry run path classification detail => do
    FamiliarAi.stageScanEntry run path classification detail
    pure .done
  | .failRepositoryScan runId => do
    FamiliarAi.failRepositoryScan runId
    pure .done
  | .markScanEnumerationComplete runId => do
    FamiliarAi.markScanEnumerationComplete runId
    pure .done
  | .reconcileRepositoryScan run host => do
    FamiliarAi.reconcileRepositoryScan run host
    pure .done

/-- A call with the engine faults that it meets. -/
structure LifecycleStep where
  call : LifecycleCall
  faults : List (Option FamiliarError)

/-- The inventory after a call, whether it succeeds or fails. -/
def Inventory.lifecycleStep (inventory : Inventory) (step : LifecycleStep) : Inventory :=
  (step.call.query.run ⟨inventory, step.faults⟩).2.store

/-- The inventory after a sequence of calls. -/
def Inventory.lifecycleRun (inventory : Inventory) (steps : List LifecycleStep) : Inventory :=
  steps.foldl Inventory.lifecycleStep inventory

end FamiliarAi
