import FamiliarAi.Core.Reservation
import FamiliarAi.Storage.Database

/-!
# The driver session store

The operations on the tables of the driver sessions, statement by statement: the sessions with the
revision that each has integrated so far, their attempts, and the migration versions that are reserved
for PRDs. Every statement outside a transaction is a transaction of its own, and an operation of several
ones may be cut off between them.
-/

namespace FamiliarAi

open Relational

/-- A program over the tables of the driver sessions. -/
abbrev SessionQuery := Query Database FamiliarError

/-- A statement on one of the tables. -/
def onOrchestration {α τ : Type} (get : Orchestration → τ) (set : Orchestration → τ → Orchestration)
    (f : τ → Option (α × τ)) : SessionQuery α :=
  .changePart (.database "constraint failed") (fun db ↦ get db.orchestration)
    (fun db t ↦ { db with orchestration := set db.orchestration t }) f

/-- A statement on `driver_sessions`. -/
def onSessions {α : Type} (f : Table driverSessionSchema → Option (α × Table driverSessionSchema)) :
    SessionQuery α :=
  onOrchestration (·.sessions) (fun o sessions ↦ { o with sessions }) f

/-- A statement on `driver_attempts`. -/
def onAttempts {α : Type} (f : Table driverAttemptSchema → Option (α × Table driverAttemptSchema)) :
    SessionQuery α :=
  onOrchestration (·.attempts) (fun o attempts ↦ { o with attempts }) f

/-- A statement on `migration_version_reservations`. -/
def onMigrations {α : Type} (f : Table migrationSchema → Option (α × Table migrationSchema)) :
    SessionQuery α :=
  onOrchestration (·.migrations) (fun o migrations ↦ { o with migrations }) f

def DriverRepository.openSession (session repository : String) : SessionQuery Unit :=
  onSessions fun sessions ↦
    (sessions.insert ⟨session, repository, false, none, none, none, none⟩).map ((), ·)

/-- `heartbeat`, which also tells the worker of the session. -/
def DriverRepository.heartbeat (session worker : String) : SessionQuery Unit := do
  let changed ← onSessions fun sessions ↦
    sessions.modify (fun row ↦ row.sessionId = session ∧ row.ended = false) fun row ↦
      { row with workerId := row.workerId.or (some worker) }
  .ensure (changed = 1) (.database ("open driver session " ++ session ++ " not found"))

def DriverRepository.finishSession (session reason : String) : SessionQuery Unit := do
  let changed ← onSessions fun sessions ↦
    sessions.modify (·.sessionId = session) fun row ↦
      { row with ended := true, terminationReason := some reason }
  .ensure (changed ≠ 0) (.database ("driver session " ++ session ++ " not found"))

/-- `recover_incomplete`: close what is open, whosever it is. -/
def DriverRepository.recoverIncomplete : SessionQuery ℕ := do
  let attempts ← onAttempts fun attempts ↦
    attempts.modify (·.ended = false) fun row ↦
      { row with
        ended := true
        outcome := row.outcome.or (some .retained)
        retainedReason := row.retainedReason.or (some "interrupted") }
  let _ ← onSessions fun sessions ↦
    sessions.modify (·.ended = false) fun row ↦
      { row with ended := true, terminationReason := row.terminationReason.or (some "interrupted") }
  pure attempts

def Orchestration.nextSequence (o : Orchestration) (session : String) : ℕ :=
  ((o.attempts.rows.filter (·.key.sessionId = session)).map (·.key.sequence)).foldr max 0 + 1

def DriverRepository.recordAttemptStarted (session prdId startedAt : String) : SessionQuery ℕ := do
  let sequence ← .read fun db ↦ db.orchestration.nextSequence session
  .write (.database "constraint failed") fun db ↦
    if (db.orchestration.session session).isSome then
      (db.orchestration.attempts.insert
        ⟨⟨session, sequence⟩, prdId, startedAt, false, none, none, none, false, none⟩).map
        fun attempts ↦ { db with orchestration := { db.orchestration with attempts } }
    else none
  pure sequence

def DriverRepository.recordAttemptFinished (key : AttemptKey) (outcome : AttemptOutcome)
    (retainedReason : Option String) : SessionQuery Unit := do
  let changed ← onAttempts fun attempts ↦
    attempts.modify (·.key = key) fun row ↦
      { row with ended := true, outcome := some outcome, retainedReason }
  .ensure (changed ≠ 0)
    (.database ("driver attempt " ++ key.sessionId ++ "/" ++ toString key.sequence ++ " not found"))

/-- `UPDATE driver_attempts SET candidate_revision, integrated_at`, with how many rows it has
changed. -/
def integrateAttempt (key : AttemptKey) (candidate : String) : SessionQuery ℕ :=
  onAttempts fun attempts ↦
    attempts.modify (fun row ↦ row.key = key ∧ row.integrated = false) fun row ↦
      { row with
        candidateRevision := some candidate
        integrated := true
        lastDurablePhase := some "integrated" }

/-- `initialize_integration`. What is there is left as it is. -/
def OrchestrationRepository.initializeIntegration (session revision : String) : SessionQuery Unit := do
  let changed ← onSessions fun sessions ↦
    sessions.modify (·.sessionId = session) fun row ↦
      { row with
        baseRevision := row.baseRevision.or (some revision)
        integrationRevision := row.integrationRevision.or (some revision) }
  .ensure (changed = 1) (.database ("driver session " ++ session ++ " not found"))

/-- `advance_integration`: only from the revision that the merger has used. -/
def OrchestrationRepository.advanceIntegration (session expected candidate : String)
    (sequence : ℕ) : SessionQuery Unit :=
  .transaction do
    let changed ← onSessions fun sessions ↦
      sessions.modify
        (fun row ↦ row.sessionId = session ∧ row.integrationRevision = some expected ∧
          row.ended = false)
        fun row ↦ { row with integrationRevision := some candidate }
    .ensure (changed = 1) (.database "integration revision changed during landing")
    let changed ← integrateAttempt ⟨session, sequence⟩ candidate
    .ensure (changed = 1) (.database "attempt was already integrated or is missing")

def Orchestration.reservation (o : Orchestration) (session prd : String) :
    Option MigrationReservation :=
  o.migrations.find fun row ↦ row.sessionId = session ∧ row.prdId = prd

/-- `COALESCE(MAX(version), 0)` over a repository. -/
def Orchestration.maxVersion (o : Orchestration) (repository : String) : ℕ :=
  ((o.migrations.rows.filter (·.repositoryKey = repository)).map (·.version)).foldr max 0

/-- `UPDATE migration_version_reservations SET state`, with how many rows it has changed. -/
def setMigrationState (session prd : String) (state next : MigrationState) : SessionQuery ℕ :=
  onMigrations fun migrations ↦
    migrations.modify (fun row ↦ row.sessionId = session ∧ row.prdId = prd ∧ row.state = state)
      fun row ↦ { row with state := next }

def OrchestrationRepository.reserveMigration (repository session prd : String)
    (firstAvailable : ℕ) : SessionQuery MigrationReservation :=
  .transaction do
    match ← .read fun db ↦ db.orchestration.reservation session prd with
    | some existing =>
      match existing.state with
      | .reserved => pure existing
      | .released =>
        let changed ← setMigrationState session prd .released .reserved
        .ensure (changed = 1)
          (.database ("migration reservation for " ++ prd ++ " changed during retry"))
        pure { existing with state := .reserved }
      | .consumed =>
        .fail (.database ("migration reservation for " ++ prd ++ " was already consumed"))
    | none =>
      let reserved ← .read fun db ↦ db.orchestration.maxVersion repository
      let version := max firstAvailable (saturatingAdd reserved 1)
      let row : MigrationReservation := ⟨repository, version, session, prd, .reserved⟩
      .write (.database "constraint failed") fun db ↦
        if (db.orchestration.session session).isSome then
          (db.orchestration.migrations.insert row).map fun migrations ↦
            { db with orchestration := { db.orchestration with migrations } }
        else none
      pure row

def OrchestrationRepository.resolveMigration (session prd : String) (consume : Bool) :
    SessionQuery Unit := do
  let changed ← setMigrationState session prd .reserved (if consume then .consumed else .released)
  .ensure (changed = 1)
    (.database ("migration reservation for " ++ prd ++ " is missing or already resolved"))

/-- One call of an operation of the driver session store. -/
inductive SessionCall
  | openSession (session repository : String)
  | heartbeat (session worker : String)
  | finishSession (session reason : String)
  | recoverIncomplete
  | recordAttemptStarted (session prdId startedAt : String)
  | recordAttemptFinished (key : AttemptKey) (outcome : AttemptOutcome)
      (retainedReason : Option String)
  | initializeIntegration (session revision : String)
  | advanceIntegration (session expected candidate : String) (sequence : ℕ)
  | reserveMigration (repository session prd : String) (firstAvailable : ℕ)
  | resolveMigration (session prd : String) (consume : Bool)

/-- What a successful call answers. -/
inductive SessionAnswer
  | done
  | count (n : ℕ)
  | reservation (reservation : MigrationReservation)

/-- The operation that a call names. -/
def SessionCall.query : SessionCall → SessionQuery SessionAnswer
  | .openSession session repository => do
    DriverRepository.openSession session repository
    pure .done
  | .heartbeat session worker => do
    DriverRepository.heartbeat session worker
    pure .done
  | .finishSession session reason => do
    DriverRepository.finishSession session reason
    pure .done
  | .recoverIncomplete => do
    pure (.count (← DriverRepository.recoverIncomplete))
  | .recordAttemptStarted session prdId startedAt => do
    pure (.count (← DriverRepository.recordAttemptStarted session prdId startedAt))
  | .recordAttemptFinished key outcome retainedReason => do
    DriverRepository.recordAttemptFinished key outcome retainedReason
    pure .done
  | .initializeIntegration session revision => do
    OrchestrationRepository.initializeIntegration session revision
    pure .done
  | .advanceIntegration session expected candidate sequence => do
    OrchestrationRepository.advanceIntegration session expected candidate sequence
    pure .done
  | .reserveMigration repository session prd firstAvailable => do
    pure (.reservation (← OrchestrationRepository.reserveMigration repository session prd
      firstAvailable))
  | .resolveMigration session prd consume => do
    OrchestrationRepository.resolveMigration session prd consume
    pure .done

/-- A call with the engine faults that it meets. -/
structure SessionStep where
  call : SessionCall
  faults : List (Option FamiliarError)

def Database.sessionCall (db : Database) (step : SessionStep) :
    Except FamiliarError SessionAnswer × Connection Database FamiliarError :=
  step.call.query.run ⟨db, step.faults⟩

/-- The database after a call, whether it succeeds or fails. -/
def Database.sessionStep (db : Database) (step : SessionStep) : Database :=
  (db.sessionCall step).2.store

/-- The database after a sequence of calls. -/
def Database.sessionRun (db : Database) (steps : List SessionStep) : Database :=
  steps.foldl Database.sessionStep db

end FamiliarAi
