import FamiliarAi.Core.Reservation
import FamiliarAi.Storage.Backlog

/-!
# The checkpoint store

The operations that write the checkpoints of PRDs, statement by statement. A checkpoint has a phase and
a trail of events. A transition writes both, in one transaction; freezing a checkpoint again and deciding
its scope write the phase only.
-/

namespace FamiliarAi

open Relational

/-- A program over the tables of the checkpoints. -/
abbrev CheckpointQuery := Query Database FamiliarError

/-- The answer of the engine to a write that violates a constraint. -/
def CheckpointRepository.constraintFailed : FamiliarError :=
  .database "constraint failed"

/-- A statement on `execution_checkpoints`. -/
def onCheckpointRows {α : Type} (f : Table checkpointSchema → Option (α × Table checkpointSchema)) :
    CheckpointQuery α :=
  .changePart CheckpointRepository.constraintFailed (·.checkpoints.rows)
    (fun db rows ↦ { db with checkpoints := { db.checkpoints with rows } }) f

/-- A statement on `scope_decisions`. -/
def onScopeDecisions {α : Type}
    (f : Table scopeDecisionSchema → Option (α × Table scopeDecisionSchema)) : CheckpointQuery α :=
  .changePart CheckpointRepository.constraintFailed (·.orchestration.scopeDecisions)
    (fun db scopeDecisions ↦
      { db with orchestration := { db.orchestration with scopeDecisions } }) f

def Checkpoints.row (checkpoints : Checkpoints) (checkpointId : String) : Option CheckpointRow :=
  checkpoints.rows.find (·.checkpointId = checkpointId)

def Checkpoints.ofPrd (checkpoints : Checkpoints) (repository prd : String) : Option CheckpointRow :=
  checkpoints.rows.find fun row ↦ row.repositoryKey = repository ∧ row.prdId = prd

/-- `INSERT INTO execution_checkpoint_events`, under the sequence number that comes next. -/
def appendCheckpointEvent (checkpointId eventType : String) (priorPhase : Option CheckpointPhase)
    (resultingPhase : CheckpointPhase) (detail : String) : CheckpointQuery Unit := do
  let sequence ← .read fun db ↦ db.checkpoints.nextSequence checkpointId
  .write CheckpointRepository.constraintFailed fun db ↦
    if (db.checkpoints.row checkpointId).isSome then
      (db.checkpoints.events.insert
        ⟨checkpointId ++ ":" ++ toString sequence, checkpointId, sequence, eventType, priorPhase,
          resultingPhase, detail⟩).map fun events ↦
        { db with checkpoints := { db.checkpoints with events } }
    else none

/-! ### Checkpoints -/

/-- A checkpoint as a worker freezes it. -/
structure ExecutionCheckpoint where
  checkpointId : String
  repositoryKey : String
  prdId : String
  phase : CheckpointPhase
  diffHash : String
  invalidReason : Option String

def ExecutionCheckpoint.sameKey (value : ExecutionCheckpoint) (row : CheckpointRow) : Bool :=
  row.repositoryKey = value.repositoryKey ∧ row.prdId = value.prdId

/-- `INSERT INTO execution_checkpoints … ON CONFLICT(repository_key, prd_id) DO UPDATE`. The row that
is there keeps its id. -/
def upsertCheckpoint (value : ExecutionCheckpoint) (rows : Table checkpointSchema) :
    Option (Table checkpointSchema) :=
  if (rows.find value.sameKey).isSome then
    rows.update value.sameKey fun row ↦
      { row with
        phase := value.phase
        diffHash := value.diffHash
        invalidReason := value.invalidReason }
  else
    rows.insert ⟨value.checkpointId, value.repositoryKey, value.prdId, value.phase, value.diffHash,
      value.invalidReason, none, none⟩

/-- `put`: freeze a checkpoint. An event is recorded for the first one of a PRD only. -/
def CheckpointRepository.put (value : ExecutionCheckpoint) : CheckpointQuery Unit :=
  .transaction do
    let surviving ← .read fun db ↦ db.checkpoints.ofPrd value.repositoryKey value.prdId
    onCheckpointRows fun rows ↦ (upsertCheckpoint value rows).map ((), ·)
    match surviving with
    | some _ =>
      onScopeDecisions fun decisions ↦
        some ((), decisions.delete fun row ↦ row.repositoryKey = value.repositoryKey ∧
          row.prdId = value.prdId ∧ row.decision = none ∧ row.candidateHash ≠ value.diffHash)
    | none =>
      appendCheckpointEvent value.checkpointId "checkpoint_created" none value.phase
        "implementation_checkpoint"

/-- `transition`. Nothing is done when the checkpoint is in the phase. -/
def CheckpointRepository.transition (checkpointId : String) (phase : CheckpointPhase)
    (detail : String) : CheckpointQuery Unit :=
  .transactionWith do
    match ← .read fun db ↦ (db.checkpoints.row checkpointId).map (·.phase) with
    | none => .fail (.database ("checkpoint " ++ checkpointId ++ " not found"))
    | some prior =>
      if prior = phase then pure (.rollback ())
      else
        let changed ← onCheckpointRows fun rows ↦
          rows.modify (fun row ↦ row.checkpointId = checkpointId ∧ row.phase = prior) fun row ↦
            { row with phase, invalidReason := none }
        .ensure (changed = 1)
          (.database ("checkpoint " ++ checkpointId ++ " changed during transition"))
        appendCheckpointEvent checkpointId "phase_transition" (some prior) phase detail
        pure (.commit ())

/-- `rebind_candidate`: the candidate was made again by the integration. -/
def CheckpointRepository.rebindCandidate (checkpointId oldHash newHash commit : String) :
    CheckpointQuery Unit := do
  let changed ← onCheckpointRows fun rows ↦
    rows.modify (fun row ↦ row.checkpointId = checkpointId ∧ row.diffHash = oldHash) fun row ↦
      { row with
        diffHash := newHash
        approvedDiffHash :=
          if row.approvedDiffHash = some oldHash then some newHash else row.approvedDiffHash
        approvedCommit := some commit }
  .ensure (changed = 1) (.database ("candidate binding for " ++ checkpointId ++ " changed"))

/-- `record_rebind`: an event that leaves the phase as it is. `detail` is the JSON of the hashes, the
actor and the reason. -/
def CheckpointRepository.recordRebind (checkpointId detail : String) : CheckpointQuery Unit :=
  .transaction do
    match ← .read fun db ↦ (db.checkpoints.row checkpointId).map (·.phase) with
    | none => .fail (.database "Query returned no rows")
    | some phase =>
      appendCheckpointEvent checkpointId "candidate_rebound" (some phase) phase detail

def OrchestrationRepository.recordScopeFinding
    (repository checkpointId prd candidateHash findingHash : String) : CheckpointQuery Unit :=
  .write CheckpointRepository.constraintFailed fun db ↦
    if (db.checkpoints.row checkpointId).isSome then
      some { db with
        orchestration := { db.orchestration with
          scopeDecisions := db.orchestration.scopeDecisions.insertOrIgnore
            ⟨findingHash, repository, checkpointId, prd, candidateHash, none⟩ } }
    else none

def Orchestration.pendingDecision (o : Orchestration) (repository findingHash candidateHash : String) :
    Option ScopeDecisionRow :=
  o.scopeDecisions.find fun row ↦ row.repositoryKey = repository ∧ row.findingHash = findingHash ∧
    row.candidateHash = candidateHash ∧ row.decision = none

def Orchestration.countDecisions (o : Orchestration) (checkpointId candidateHash : String)
    (decision : Option ScopeRuling) : ℕ :=
  o.scopeDecisions.count fun row ↦ row.checkpointId = checkpointId ∧
    row.candidateHash = candidateHash ∧ row.decision = decision

/-- `decide_scope`. A rejection blocks the checkpoint; with the last approval the candidate goes back to
be verified and reviewed, unless a finding was rejected. No event is recorded. -/
def OrchestrationRepository.decideScope (repository findingHash candidateHash : String)
    (approve : Bool) : CheckpointQuery String :=
  .transaction do
    match ← .read fun db ↦
      db.orchestration.pendingDecision repository findingHash candidateHash with
    | none => .fail (.database "pending scope finding/candidate binding not found")
    | some pendingRow => do
      let ruling : ScopeRuling := if approve then .approved else .rejected
      let _ ← onScopeDecisions fun decisions ↦
        decisions.modify (fun row ↦ row.findingHash = findingHash ∧ row.decision = none) fun row ↦
          { row with decision := some ruling }
      let pending ← .read fun db ↦
        db.orchestration.countDecisions pendingRow.checkpointId candidateHash none
      let rejected ← .read fun db ↦
        db.orchestration.countDecisions pendingRow.checkpointId candidateHash (some .rejected)
      Query.when (approve = false ∨ pending = 0) do
        let phase : CheckpointPhase :=
          if approve = true ∧ rejected = 0 then .implemented else .blocked
        let _ ← onCheckpointRows fun rows ↦
          rows.modify (·.checkpointId = pendingRow.checkpointId) fun row ↦ { row with phase }
        pure ()
      pure pendingRow.checkpointId

/-- One call of an operation that writes checkpoints. -/
inductive CheckpointCall
  | put (value : ExecutionCheckpoint)
  | transition (checkpointId : String) (phase : CheckpointPhase) (detail : String)
  | rebindCandidate (checkpointId oldHash newHash commit : String)
  | recordRebind (checkpointId detail : String)
  | recordScopeFinding (repository checkpointId prd candidateHash findingHash : String)
  | decideScope (repository findingHash candidateHash : String) (approve : Bool)

/-- The operation that a call names. -/
def CheckpointCall.query : CheckpointCall → CheckpointQuery Unit
  | .put value => CheckpointRepository.put value
  | .transition checkpointId phase detail =>
    CheckpointRepository.transition checkpointId phase detail
  | .rebindCandidate checkpointId oldHash newHash commit =>
    CheckpointRepository.rebindCandidate checkpointId oldHash newHash commit
  | .recordRebind checkpointId detail => CheckpointRepository.recordRebind checkpointId detail
  | .recordScopeFinding repository checkpointId prd candidateHash findingHash =>
    OrchestrationRepository.recordScopeFinding repository checkpointId prd candidateHash findingHash
  | .decideScope repository findingHash candidateHash approve => do
    let _ ← OrchestrationRepository.decideScope repository findingHash candidateHash approve
    pure ()

/-- A call with the engine faults that it meets. A PRD is completed by approval in the backlog store.
Between the calls the other stores write their tables. -/
inductive CheckpointStep
  | call (call : CheckpointCall) (faults : List (Option FamiliarError))
  | approveAndComplete (repository : RepositoryIdentity) (target : DiscoveredPrd)
      (actor reason approvedDiffHash commit : String) (faults : List (Option BacklogStoreError))
  | elsewhere (tables : Database)

def Database.checkpointStep (db : Database) : CheckpointStep → Database
  | .call call faults => (call.query.run ⟨db, faults⟩).2.store
  | .approveAndComplete repository target actor reason approvedDiffHash commit faults =>
    ((FamiliarAi.approveAndComplete repository target actor reason approvedDiffHash commit).run
      ⟨db, faults⟩).2.store
  | .elsewhere tables => { tables with checkpoints := db.checkpoints }

/-- The database after a sequence of calls. -/
def Database.checkpointRun (db : Database) (steps : List CheckpointStep) : Database :=
  steps.foldl Database.checkpointStep db

end FamiliarAi
