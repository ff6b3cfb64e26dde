import FamiliarAi.Storage.Completion

/-!
# The backlog store

The operations of the backlog repository, statement by statement. Every operation is one transaction.
An operation that moves a PRD to another status updates the row under a condition on what the row was
found to be, looks at how many rows it has changed, and appends an event; nothing in the database ties
the event to the row.

What a caller passes in, the discovered PRDs among it, is what was seen in the repository before the
transaction began.
-/

namespace FamiliarAi

open Relational Text

def RepositoryIdentity.prdKey (repository : RepositoryIdentity) (path : RepositoryPath) : PrdKey :=
  ⟨repository.key, path.text⟩

/-- `UPDATE backlog_prds SET status`, with how many rows it has changed. -/
def setStatus (p : PrdRow → Bool) (next : BacklogStatus) : DatabaseQuery ℕ :=
  onPrds fun prds ↦ prds.modify p fun row ↦ { row with status := next }

/-- `INSERT INTO backlog_status_events`, with the id of the event. -/
def recordTransition (key : PrdKey) (old new : BacklogStatus) (actor : String) : DatabaseQuery ℕ :=
  .change statementFailed fun db ↦
    if (db.backlog.row key).isSome then
      let eventId := db.backlog.nextEventId
      (db.backlog.statusEvents.insert ⟨eventId, key, old, new, actor⟩).map fun statusEvents ↦
        (eventId, { db with backlog := { db.backlog with statusEvents } })
    else none

/-- `INSERT INTO backlog_recovery_events`. -/
def recordRecovery (eventId : ℕ) (action : BacklogRecoveryAction) (reason : String) :
    DatabaseQuery Unit :=
  .write statementFailed fun db ↦
    if (db.backlog.statusEvents.find (·.eventId = eventId)).isSome then
      (db.backlog.recoveryEvents.insert ⟨eventId, action, reason⟩).map fun recoveryEvents ↦
        { db with backlog := { db.backlog with recoveryEvents } }
    else none

def archivedReconciliationActor : String := "system:archived-prd-location"

def initialStatus : PrdLocation → BacklogStatus
  | .archived => .completed
  | .active => .pending

/-- `INSERT INTO backlog_prds … ON CONFLICT DO UPDATE`. A row that is there keeps its status. -/
def upsertPrd (key : PrdKey) (prd : DiscoveredPrd) (prds : Table prdSchema) :
    Option (Table prdSchema) :=
  if (prds.find (·.key = key)).isSome then
    prds.update (·.key = key) fun row ↦
      { row with
        number := prd.number
        suffix := prd.id.suffix
        contentHash := prd.contentHash
        missing := false }
  else
    prds.insert
      { key
        number := prd.number
        suffix := prd.id.suffix
        contentHash := prd.contentHash
        status := initialStatus prd.location
        missing := false }

def reconcilePrd (repository : RepositoryIdentity) (prd : DiscoveredPrd) : DatabaseQuery Unit := do
  let key := repository.prdKey prd.path
  onPrds fun prds ↦ (upsertPrd key prd prds).map fun prds ↦ ((), prds)
  .when (prd.location = .archived) do
    let row ← requireRow noRows fun db ↦ db.backlog.row key
    .when (row.status ≠ .completed) do
      let _ ← setStatus (·.key = key) .completed
      let _ ← recordTransition key row.status .completed archivedReconciliationActor

/-- `UPDATE backlog_prds SET missing_since`. -/
def markMissing (repository : RepositoryIdentity) : DatabaseQuery Unit := do
  let _ ← onPrds fun prds ↦
    prds.modify (·.key.repositoryKey = repository.key) fun row ↦ { row with missing := true }

def reconcile (repository : RepositoryIdentity) (discovered : List DiscoveredPrd) :
    DatabaseQuery Unit := do
  markMissing repository
  .forEach discovered (reconcilePrd repository)

def readEntry (repository : RepositoryIdentity) (prd : DiscoveredPrd) :
    DatabaseQuery BacklogEntry := do
  let row ← requireRow noRows fun db ↦
    (db.backlog.row (repository.prdKey prd.path)).filter (·.missing = false)
  pure ⟨prd, row.status⟩

def readEntries (repository : RepositoryIdentity) :
    List DiscoveredPrd → DatabaseQuery (List BacklogEntry)
  | [] => pure []
  | prd :: prds => do
    let entry ← readEntry repository prd
    let entries ← readEntries repository prds
    pure (entry :: entries)

def reconcileAndSnapshot (repository : RepositoryIdentity) (discovered : List DiscoveredPrd) :
    DatabaseQuery (List BacklogEntry) :=
  .transaction do
    reconcile repository discovered
    readEntries repository discovered

/-! ### Transitions -/

/-- The largest number that is read back as an integer. -/
def maxPrdNumber : ℕ := 2 ^ 63 - 1

def PrdRow.Represents (row : PrdRow) (target : DiscoveredPrd) : Prop :=
  row.number = target.number ∧ row.suffix = target.id.suffix ∧
    row.contentHash = target.contentHash ∧ row.missing = false

instance (row : PrdRow) : DecidablePred row.Represents :=
  fun _ ↦ inferInstanceAs (Decidable (_ ∧ _ ∧ _ ∧ _))

/-- The row of a PRD with everything that identifies it. A number that is too large was stored as a
floating point one. -/
def requireIdentityRow (repository : RepositoryIdentity) (target : DiscoveredPrd) :
    DatabaseQuery PrdRow := do
  let row ← requireRow (.notFound target.path) fun db ↦
    db.backlog.row (repository.prdKey target.path)
  .ensure (row.number ≤ maxPrdNumber)
    (.storage "Invalid column type Real at index: 0, name: prd_number")
  pure row

def IsRunActor (actor : String) : Prop :=
  ∃ id ∈ stripPrefix? "system:familiar-ai-run:".toList actor.toList,
    (splitOn '-' id).map List.length = [20, 10, 6] ∧
      ∀ part ∈ splitOn '-' id, ∀ c ∈ part, c.isDigit = true

instance : DecidablePred IsRunActor :=
  fun _ ↦ inferInstanceAs (Decidable (∃ _ ∈ _, _ ∧ _))

def validateRunActor (actor : String) : Except BacklogStoreError Unit :=
  if IsRunActor actor then .ok () else .error (.storage "invalid run actor")

def StatusEventRow.IsClaim (event : StatusEventRow) : Prop :=
  event.old = .pending ∧ event.new = .inProgress

instance : DecidablePred StatusEventRow.IsClaim :=
  fun _ ↦ inferInstanceAs (Decidable (_ ∧ _))

/-- Repair the status of a PRD that a run has claimed. -/
def recoverPrd (repository : RepositoryIdentity) (target : DiscoveredPrd)
    (action : BacklogRecoveryAction) (actor reason : String) : DatabaseQuery BacklogEntry := do
  let (actor, reason) ← .ofExcept (validateRecoveryAttribution action actor reason)
  .transaction do
    let key := repository.prdKey target.path
    let row ← requireIdentityRow repository target
    .ensure (row.status = .inProgress ∧ row.Represents target)
      (.conflict target.path "in_progress" row.status.asStr)
    let latest ← .read fun db ↦ db.backlog.latestEvent key
    .ensure (∃ event ∈ latest, event.IsClaim ∧ IsRunActor event.actor)
      (.recoveryAuditCorrupt target.path)
    let changed ← setStatus
      (fun row ↦ row.key = key ∧ row.status = .inProgress ∧ row.contentHash = target.contentHash ∧
        row.number = target.number ∧ row.missing = false) action.targetStatus
    .ensure (changed = 1) (.conflict target.path "in_progress" "conflict")
    let eventId ← recordTransition key .inProgress action.targetStatus actor
    recordRecovery eventId action reason
    pure ⟨target, action.targetStatus⟩

def recordComplete (repository : RepositoryIdentity) (discovered : List DiscoveredPrd)
    (target : DiscoveredPrd) (actor reason : String) : DatabaseQuery BacklogEntry := do
  let (actor, reason) ← .ofExcept (validateRecoveryAttribution .recordedComplete actor reason)
  .transaction do
    let key := repository.prdKey target.path
    let row ← requireIdentityRow repository target
    .ensure (row.status = .pending ∧ row.Represents target)
      (.conflict target.path "pending" row.status.asStr)
    reconcile repository discovered
    let entries ← readEntries repository discovered
    .ensure (unmet entries target = [])
      (.incompleteDependencies target.path (displayIds (unmet entries target)))
    let changed ← setStatus
      (fun row ↦ row.key = key ∧ row.status = .pending ∧ row.contentHash = target.contentHash ∧
        row.number = target.number ∧ row.missing = false) .completed
    .ensure (changed = 1) (.conflict target.path "pending" "conflict")
    let eventId ← recordTransition key .pending .completed actor
    recordRecovery eventId .recordedComplete reason
    pure ⟨target, .completed⟩

def transition (repository : RepositoryIdentity) (path : RepositoryPath)
    (expected next : BacklogStatus) (actor : String) : DatabaseQuery BacklogEntry := do
  .ensure (trim actor.toList ≠ []) .emptyActor
  .transaction do
    let key := repository.prdKey path
    let row ← requireRow (.notFound path) fun db ↦ db.backlog.row key
    .ensure (row.number ≤ maxPrdNumber)
      (.storage "Invalid column type Real at index: 0, name: prd_number")
    .ensure (row.status = expected) (.conflict path expected.asStr row.status.asStr)
    .when (row.status ≠ next) do
      let changed ← setStatus (fun r ↦ r.key = key ∧ r.status = expected) next
      .ensure (changed = 1) (.conflict path expected.asStr row.status.asStr)
      let _ ← recordTransition key row.status next actor
    pure
      { prd :=
          { id := ⟨row.number, row.suffix, .canonical⟩
            number := row.number
            path
            location := .active
            dependencies := []
            metadata := {}
            contentHash := row.contentHash }
        status := next }

def Checkpoints.nextSequence (checkpoints : Checkpoints) (checkpointId : String) : ℕ :=
  ((checkpoints.events.rows.filter (·.checkpointId = checkpointId)).map (·.sequence + 1)).foldr max 0

def recordCheckpointEvent (checkpointId eventType : String) (priorPhase : Option CheckpointPhase)
    (resultingPhase : CheckpointPhase) (detail : String) : DatabaseQuery Unit := do
  let sequence ← .read fun db ↦ db.checkpoints.nextSequence checkpointId
  .write statementFailed fun db ↦
    if (db.checkpoints.rows.find (·.checkpointId = checkpointId)).isSome then
      (db.checkpoints.events.insert
        ⟨checkpointId ++ ":" ++ toString sequence, checkpointId, sequence, eventType, priorPhase,
          resultingPhase, detail⟩).map fun events ↦
        { db with checkpoints := { db.checkpoints with events } }
    else none

def approveAndComplete (repository : RepositoryIdentity) (target : DiscoveredPrd)
    (actor reason approvedDiffHash commit : String) : DatabaseQuery BacklogEntry := do
  let (actor, reason) ← .ofExcept (validateRecoveryAttribution .approveAndComplete actor reason)
  let commit := String.ofList (trim commit.toList)
  .ensure (commit ≠ "") (.storage "approve-and-complete requires the resulting commit")
  .transaction do
    let key := repository.prdKey target.path
    let row ← requireRow (.notFound target.path) fun db ↦ db.backlog.row key
    .ensure ((row.status = .pending ∨ row.status = .inProgress) ∧
        row.contentHash = target.contentHash ∧ row.missing = false)
      (.conflict target.path "pending or in_progress" row.status.asStr)
    let checkpoint ← requireRow
      (.storage ("no durable checkpoint exists for " ++ target.id.display ++
        "; approve-and-complete acts only on reviewed checkpoints"))
      fun db ↦ db.checkpoints.rows.find fun checkpoint ↦
        checkpoint.repositoryKey = repository.key ∧ checkpoint.prdId = target.id.display
    .ensure (checkpoint.phase ≠ .completed)
      (.storage ("checkpoint " ++ checkpoint.checkpointId ++ " is already completed"))
    .ensure (checkpoint.diffHash = approvedDiffHash)
      (.storage ("approved candidate hash does not match checkpoint " ++ checkpoint.checkpointId ++
        ": expected " ++ checkpoint.diffHash ++ ", got " ++ approvedDiffHash))
    let changed ← setStatus
      (fun r ↦ r.key = key ∧ r.status = row.status ∧ r.contentHash = target.contentHash ∧
        r.missing = false) .completed
    .ensure (changed = 1) (.conflict target.path "pending or in_progress" "conflict")
    let eventId ← recordTransition key row.status .completed actor
    recordRecovery eventId .approveAndComplete reason
    let changed ← onCheckpoints fun rows ↦
      rows.modify (fun r ↦ r.checkpointId = checkpoint.checkpointId ∧ r.phase = checkpoint.phase)
        fun r ↦
          { r with
            phase := .completed
            invalidReason := none
            approvedDiffHash := some approvedDiffHash
            approvedCommit := some commit }
    .ensure (changed = 1)
      (.storage ("checkpoint " ++ checkpoint.checkpointId ++ " changed during approve-and-complete"))
    recordCheckpointEvent checkpoint.checkpointId "phase_transition" (some checkpoint.phase) .completed
      ("approve_and_complete actor=" ++ actor ++ " approved_hash=" ++ approvedDiffHash ++
        " commit=" ++ commit)
    pure ⟨target, .completed⟩

def claimRun (repository : RepositoryIdentity) (discovered : List DiscoveredPrd)
    (target : DiscoveredPrd) (actor : String) : DatabaseQuery BacklogEntry := do
  .ofExcept (validateRunActor actor)
  .transaction do
    let key := repository.prdKey target.path
    let persisted ← .read fun db ↦ db.backlog.row key
    .ensure (∃ row ∈ persisted, row.status = .pending ∧ row.contentHash = target.contentHash ∧
        row.missing = false)
      (.storage "claim discovery or expected-status conflict")
    reconcile repository discovered
    let entries ← readEntries repository discovered
    .ofExcept ((admitRunPrd entries target).mapError fun error ↦ .storage error.display)
    -- the row must still be the one that was discovered
    let changed ← setStatus
      (fun row ↦ row.key = key ∧ row.contentHash = target.contentHash ∧ row.missing = false ∧
        row.status = .pending) .inProgress
    .ensure (changed = 1) (.conflict target.path "pending" "conflict")
    let _ ← recordTransition key .pending .inProgress actor
    pure ⟨target, .inProgress⟩

/-- The number has a completed row that is not missing: where a landing has moved the PRD to. A number
that is too large is compared as a negative one. -/
def Backlog.archivedTwinCompleted (b : Backlog) (repositoryKey : String) (number : ℕ) : Bool :=
  number ≤ maxPrdNumber && b.prds.rows.any fun row ↦
    row.key.repositoryKey = repositoryKey ∧ row.number = number ∧ row.status = .completed ∧
      row.missing = false

def missingIsLandingArchive (repository : RepositoryIdentity) (target : DiscoveredPrd)
    (row : PrdRow) : DatabaseQuery Bool :=
  if row.missing then
    .read fun db ↦ db.backlog.archivedTwinCompleted repository.key target.number
  else pure false

/-- What a completion reports to have found instead of the claimed row. -/
def completionConflict (row : PrdRow) (target : DiscoveredPrd) : String :=
  if row.status ≠ .inProgress then row.status.asStr
  else if row.contentHash ≠ target.contentHash then "in_progress with a different content hash"
  else "in_progress but marked missing"

section Completion

variable (sha256 : Sha256) (parseRequest : List Char → Except String ReviewRequest)

/-- Complete a reviewed run, and whatever `finalize` adds, in one transaction. -/
def completeRunWith (repository : RepositoryIdentity) (target : DiscoveredPrd)
    (executionId actor : String) (requiredChecks : List String) (finalize : DatabaseQuery Unit) :
    DatabaseQuery BacklogEntry := do
  .ofExcept (validateRunActor actor)
  .transaction do
    let key := repository.prdKey target.path
    let row ← requireRow (.notFound target.path) fun db ↦ db.backlog.row key
    let landed ← missingIsLandingArchive repository target row
    .ensure (row.status = .inProgress ∧ row.contentHash = target.contentHash ∧
        (row.missing = true → landed = true))
      (.conflict target.path "in_progress" (completionConflict row target))
    let latest ← requireRow noRows fun db ↦ db.backlog.latestEvent key
    .ensure (latest.IsClaim ∧ latest.actor = actor)
      (.storage "completion claim actor does not own latest event")
    requireReview sha256 parseRequest executionId requiredChecks
    let changed ← setStatus (fun row ↦ row.key = key ∧ row.status = .inProgress) .completed
    .ensure (changed = 1) (.conflict target.path "in_progress" "conflict")
    let _ ← recordTransition key .inProgress .completed actor
    finalize
    pure ⟨target, .completed⟩

def completeRun (repository : RepositoryIdentity) (target : DiscoveredPrd)
    (executionId actor : String) (requiredChecks : List String) : DatabaseQuery BacklogEntry :=
  completeRunWith sha256 parseRequest repository target executionId actor requiredChecks (pure ())

end Completion

/-- One call of an operation of the backlog store. -/
inductive BacklogCall
  | reconcile (repository : RepositoryIdentity) (discovered : List DiscoveredPrd)
  | reconcilePrd (repository : RepositoryIdentity) (prd : DiscoveredPrd)
  | claimRun (repository : RepositoryIdentity) (discovered : List DiscoveredPrd)
      (target : DiscoveredPrd) (actor : String)
  | completeRun (repository : RepositoryIdentity) (target : DiscoveredPrd)
      (executionId actor : String) (requiredChecks : List String)
  | recover (repository : RepositoryIdentity) (target : DiscoveredPrd)
      (action : BacklogRecoveryAction) (actor reason : String)
  | recordComplete (repository : RepositoryIdentity) (discovered : List DiscoveredPrd)
      (target : DiscoveredPrd) (actor reason : String)
  | approveAndComplete (repository : RepositoryIdentity) (target : DiscoveredPrd)
      (actor reason approvedDiffHash commit : String)

/-- What a successful call answers. -/
inductive BacklogAnswer
  | done
  | entry (entry : BacklogEntry)
  | snapshot (entries : List BacklogEntry)

section Runs

variable (sha256 : Sha256) (parseRequest : List Char → Except String ReviewRequest)

def BacklogCall.query : BacklogCall → DatabaseQuery BacklogAnswer
  | .reconcile repository discovered => do
    pure (.snapshot (← reconcileAndSnapshot repository discovered))
  | .reconcilePrd repository prd => do
    Query.transaction (FamiliarAi.reconcilePrd repository prd)
    pure .done
  | .claimRun repository discovered target actor => do
    pure (.entry (← FamiliarAi.claimRun repository discovered target actor))
  | .completeRun repository target executionId actor requiredChecks => do
    pure (.entry (← FamiliarAi.completeRun sha256 parseRequest repository target executionId actor
      requiredChecks))
  | .recover repository target action actor reason => do
    pure (.entry (← recoverPrd repository target action actor reason))
  | .recordComplete repository discovered target actor reason => do
    pure (.entry (← FamiliarAi.recordComplete repository discovered target actor reason))
  | .approveAndComplete repository target actor reason approvedDiffHash commit => do
    pure (.entry (← FamiliarAi.approveAndComplete repository target actor reason approvedDiffHash
      commit))

/-- What happens to the database: a call with the engine faults that it meets, or that others write
the tables of the checkpoints and of the reviews. -/
inductive BacklogStep
  | call (call : BacklogCall) (faults : List (Option BacklogStoreError))
  | elsewhere (checkpoints : Checkpoints) (reviews : Reviews)

def Database.step (db : Database) : BacklogStep → Database
  | .call call faults => ((call.query sha256 parseRequest).run ⟨db, faults⟩).2.store
  | .elsewhere checkpoints reviews => { db with checkpoints, reviews }

def Database.run (db : Database) (steps : List BacklogStep) : Database :=
  steps.foldl (Database.step sha256 parseRequest) db

end Runs

end FamiliarAi
