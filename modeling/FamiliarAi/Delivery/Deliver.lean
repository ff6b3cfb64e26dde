import FamiliarAi.Delivery.Policy
import FamiliarAi.Interaction.Basic

/-!
# Delivery

Delivery takes a reviewed worktree from a commit to a verified staging deployment. It runs external
commands one after the other, and keeps a journal in a file, whose phase says how far it has come. A
later call reads the journal and goes on from its phase.

A command may fail, a write of the journal may fail, and the process may stop at any command and at any
write.
-/

namespace FamiliarAi

open Interaction

/-- The record of who owns a worktree. -/
structure WorktreeOwnership where
  sessionId : String
  prdId : String
  worktree : String
  state : String

structure DeliveryJournal where
  sessionId : String
  prdId : String
  worktree : String
  branch : String
  changeRequest : Option ChangeRequestId
  phase : String
  detail : Option String
  updatedAt : String

namespace Delivery

/-- The rank of a phase, by which delivery knows what is done. -/
def rank (value : String) : ℕ :=
  match value with
  | "admitted" => 0
  | "committed" => 1
  | "pushed" => 2
  | "published" | "awaiting_merge_authority" | "awaiting_manual_publication" => 3
  | "merged" => 4
  | "checks_failed" => 3
  | "staging_rolled_back" => 4
  | "staging_deployed" => 5
  | "staging_verified" => 6
  | _ => 0

def phaseBefore (current target : String) : Bool :=
  decide (rank current < rank target)

/-- The places of delivery that run a command. -/
inductive DeliveryStep
  | switchBranch
  | addAll
  | stagedNames
  | migrationGate
  | commit
  | push
  | accountProbe (account : String)
  | publish
  | locate
  | waitChecks
  | checkNamed (check : String)
  | merge (required : List String)
  | deploy
  | smoke
  | rollback
  | comment
  deriving DecidableEq

/-- What delivery asks of its environment. -/
inductive DeliveryOp
  | load
  | command (step : DeliveryStep) (directory : String) (argv : List String)
      (env : List (String × String))
  | persist (journal : DeliveryJournal)

/-- What a command has printed, and how it has exited. -/
structure CommandOutput where
  success : Bool
  code : Option ℤ
  stdout : String
  stderr : String

/-- What becomes of a command. -/
inductive CommandAnswer
  | exited (output : CommandOutput)
  | failed (error : String)
  | stopped

/-- What becomes of a write. The process may stop before it or after it. -/
inductive PersistAnswer
  | written
  | failed (error : String)
  | stopped (written : Bool)

/-- The answers to an operation. Reading the journal may fail. -/
abbrev DeliveryAnswer : DeliveryOp → Type
  | .load => Option String
  | .command .. => CommandAnswer
  | .persist _ => PersistAnswer

/-- How a call ends before its last step. -/
inductive DeliveryEnd
  | returned (journal : DeliveryJournal)
  | failed (error : String)
  | stopped

/-- A part of a call. -/
abbrev Delivering (α : Type) := Program DeliveryOp DeliveryAnswer DeliveryEnd α

def loadJournal : Delivering (Option String) :=
  @Program.perform DeliveryOp DeliveryAnswer DeliveryEnd .load

def runCommand (step : DeliveryStep) (directory : String) (argv : List String)
    (env : List (String × String)) : Delivering CommandAnswer :=
  @Program.perform DeliveryOp DeliveryAnswer DeliveryEnd (.command step directory argv env)

def writeJournal (journal : DeliveryJournal) : Delivering PersistAnswer :=
  @Program.perform DeliveryOp DeliveryAnswer DeliveryEnd (.persist journal)

def orFail {α : Type} : Except String α → Delivering α
  | .ok a => pure a
  | .error e => .exit (.failed e)

def persist (journal : DeliveryJournal) : Delivering Unit := do
  match ← writeJournal journal with
  | .written => pure ()
  | .failed e => .exit (.failed ("cannot persist delivery journal: " ++ e))
  | .stopped _ => .exit .stopped

def enter (journal : DeliveryJournal) (phase : String) : Delivering DeliveryJournal := do
  persist { journal with phase }
  pure { journal with phase }

def failJournal {α : Type} (host : DeliveryHost) (journal : DeliveryJournal) (phase detail : String) :
    Delivering α := do
  let detail := host.redactSensitive detail
  persist { journal with phase, detail := some detail }
  .exit (.failed detail)

/-- The text of an exit code in a message. -/
def debugCode : Option ℤ → String
  | some code => "Some(" ++ toString code ++ ")"
  | none => "None"

def checkedOwnedEnv (host : DeliveryHost) (step : DeliveryStep) (directory : String)
    (values : List String) (env : List (String × String)) :
    Delivering (Except String CommandOutput) := do
  match ← runCommand step directory values env with
  | .exited output =>
    if output.success then pure (.ok output)
    else
      pure (.error (host.redactSensitive (host.debugArgv values ++ " exited " ++
        debugCode output.code ++ ": " ++ String.ofList (Text.trim output.stderr.toList))))
  | .failed e => pure (.error e)
  | .stopped => .exit .stopped

/-- Run a command and go on only where it succeeds. -/
def checkedOwned (host : DeliveryHost) (step : DeliveryStep) (directory : String)
    (values : List String) : Delivering CommandOutput := do
  orFail (← checkedOwnedEnv host step directory values [])

def forgeArgv (policy : DeliveryConfig) (verb : List String) : List String :=
  policy.providerArgv ++ verb

def commentBlocker (host : DeliveryHost) (policy : DeliveryConfig) (directory changeId detail : String) :
    Delivering Unit := do
  if policy.commentBlockers then
    match policy.forge.comment changeId (host.redactSensitive detail) with
    | .run values =>
      let _ ← checkedOwnedEnv host .comment directory (forgeArgv policy values) []
      pure ()
    | .declined => pure ()

def stopForDeclinedVerb {α : Type} (journal : DeliveryJournal) (forge : Forge) (verb : String) :
    Delivering α := do
  let journal := { journal with
    phase := "awaiting_merge_authority"
    detail := some ("forge " ++ forge.name ++ " cannot " ++ verb ++
      " programmatically; human merge authority required") }
  persist journal
  .exit (.returned journal)

def declaredIdentity (policy : DeliveryConfig) (repository : String) :
    Except String DeliveryIdentityConfig :=
  match policy.identity with
  | some identity => .ok identity
  | none =>
    .error ("repository " ++ repository ++ " declares no delivery identity; refusing to author or " ++
      "publish under the daemon's ambient account. Configure " ++
      "[repositories.\"" ++ repository ++ "\".delivery.identity] with author_name, author_email, " ++
      "forge_account, and account_probe_argv.")

/-- What the probe says of the account that publishes. -/
def verifyForgeAccount (host : DeliveryHost) (directory : String) (identity : DeliveryIdentityConfig)
    (repository : String) : Delivering (Except String Unit) := do
  match ← checkedOwnedEnv host (.accountProbe identity.forgeAccount) directory
      identity.accountProbeArgv identity.providerEnv with
  | .error e =>
    pure (.error ("cannot confirm the publishing account for repository " ++ repository ++
      " (declared " ++ identity.forgeAccount ++ "): " ++ e))
  | .ok probe =>
    let observed := String.ofList (Text.trim probe.stdout.toList)
    if observed = identity.forgeAccount then pure (.ok ())
    else
      pure (.error ("publishing identity mismatch for repository " ++ repository ++ ": declared " ++
        identity.forgeAccount ++ ", adapter resolves to " ++
        (if observed = "" then "<nothing>" else observed) ++
        ". Publication refused; no pull request was created."))

/-! ### The parts of a call -/

/-- A call: the policy, what reading the ownership record gives, and the time. -/
structure DeliveryCall where
  policy : DeliveryConfig
  ownership : Except String WorktreeOwnership
  now : ℤ
  timestamp : String

/-- The checks before anything is read. -/
def admitPolicy (host : DeliveryHost) (call : DeliveryCall) (repository : String) :
    Except String DeliveryIdentityConfig := do
  call.policy.validate host
  if call.policy.mode == .disabled then throw "delivery policy is disabled"
  if call.policy.mode == .pocSelfApproval then
    match call.policy.pocWarrant with
    | none => throw "PoC self-approval warrant is missing"
    | some warrant =>
      match host.parseRfc3339 warrant.expiresAt with
      | none => throw "PoC self-approval warrant expiry is invalid"
      | some expiry =>
        if expiry ≤ call.now then throw "PoC self-approval warrant has expired"
  call.policy.rejectProductionCommands
  declaredIdentity call.policy repository

def branchOf (ownership : WorktreeOwnership) : String :=
  "familiar/" ++ ownership.sessionId ++ "/" ++
    String.ofList (ownership.prdId.toList.map fun c ↦ if c.isAlphanum then c else '-')

def admitted (ownership : WorktreeOwnership) (timestamp : String) :
    DeliveryJournal where
  sessionId := ownership.sessionId
  prdId := ownership.prdId
  worktree := ownership.worktree
  branch := branchOf ownership
  changeRequest := none
  phase := "admitted"
  detail := none
  updatedAt := timestamp

def stagedMigration (stdout : String) : Option String :=
  ((Text.lines stdout.toList).map String.ofList).find? fun path ↦
    textContains (asciiLower path) "migration"

def checkMigration (host : DeliveryHost) (policy : DeliveryConfig) (journal : DeliveryJournal)
    (staged : CommandOutput) : Delivering Unit :=
  match stagedMigration staged.stdout with
  | some path =>
    if policy.migrationGateArgv.isEmpty then
      failJournal host journal "deployment_blocked" ("migration change " ++ path ++
        " has no automatic database rollback and no configured migration gate; " ++
        "human staging authority required")
    else do
      let _ ← checkedOwned host .migrationGate journal.worktree policy.migrationGateArgv
      pure ()
  | none => pure ()

/-- Commit, unless it is done. -/
def commitStage (host : DeliveryHost) (policy : DeliveryConfig) (identity : DeliveryIdentityConfig)
    (branch : String) (journal : DeliveryJournal) : Delivering DeliveryJournal := do
  if phaseBefore journal.phase "committed" then
    let _ ← checkedOwned host .switchBranch journal.worktree ["git", "switch", "-C", branch]
    let _ ← checkedOwned host .addAll journal.worktree ["git", "add", "-A"]
    let staged ← checkedOwned host .stagedNames journal.worktree
      ["git", "diff", "--cached", "--name-only"]
    checkMigration host policy journal staged
    let _ ← checkedOwned host .commit journal.worktree
      ["git", "-c", "user.name=" ++ identity.authorName, "-c", "user.email=" ++ identity.authorEmail,
        "commit", "-m", "feat: implement " ++ journal.prdId]
    enter journal "committed"
  else pure journal

/-- Push, unless it is done. -/
def pushStage (host : DeliveryHost) (policy : DeliveryConfig) (branch : String)
    (journal : DeliveryJournal) : Delivering DeliveryJournal := do
  if phaseBefore journal.phase "pushed" then
    let _ ← checkedOwned host .push journal.worktree ["git", "push", "-u", policy.remote, branch]
    enter journal "pushed"
  else pure journal

/-- Without a forge there is nothing left to do. -/
def manualPublication (policy : DeliveryConfig) (journal : DeliveryJournal) : Delivering Unit := do
  if policy.forge = .none then
    if phaseBefore journal.phase "awaiting_manual_publication" then
      let journal := { journal with
        phase := "awaiting_manual_publication"
        detail := some ("no forge configured; branch " ++ journal.branch ++ " pushed against base " ++
          policy.base ++ ", awaiting a human to open the change request") }
      persist journal
      .exit (.returned journal)
    else .exit (.returned journal)

/-- A publication that fails may have happened, so the change request is looked up all the same. -/
def requestPublication (host : DeliveryHost) (policy : DeliveryConfig)
    (identity : DeliveryIdentityConfig) (branch : String) (journal : DeliveryJournal) :
    Delivering DeliveryJournal :=
  match policy.forge.publish policy.base branch with
  | .run verb => do
    match ← checkedOwnedEnv host .publish journal.worktree (forgeArgv policy verb)
        identity.providerEnv with
    | .error e =>
      pure { journal with
        detail := some ("publish returned: " ++ e ++ "; checking for an existing change request") }
    | .ok _ => pure journal
  | .declined => pure journal

def locateChange (host : DeliveryHost) (policy : DeliveryConfig) (identity : DeliveryIdentityConfig)
    (branch directory : String) : Delivering (Option ChangeRequestId) :=
  match policy.forge.locate branch with
  | .run verb => do
    let output ← orFail
      (← checkedOwnedEnv host .locate directory (forgeArgv policy verb) identity.providerEnv)
    pure (policy.forge.parseChangeRequest output.stdout)
  | .declined => pure none

/-- Publish a change request, unless it is done. -/
def publishStage (host : DeliveryHost) (policy : DeliveryConfig) (identity : DeliveryIdentityConfig)
    (repository branch : String) (journal : DeliveryJournal) : Delivering DeliveryJournal := do
  if phaseBefore journal.phase "published" then
    match ← verifyForgeAccount host journal.worktree identity repository with
    | .error e => failJournal host journal "identity_mismatch" e
    | .ok () =>
      let journal ← requestPublication host policy identity branch journal
      let changeRequest ← locateChange host policy identity branch journal.worktree
      enter { journal with changeRequest } "published"
  else pure journal

def publishedChange (policy : DeliveryConfig) (journal : DeliveryJournal) : Except String ChangeRequestId :=
  match journal.changeRequest with
  | some change => .ok change
  | none => .error ("forge " ++ policy.forge.name ++ " did not return a change request identifier")

def manualMerge (policy : DeliveryConfig) (journal : DeliveryJournal) : Delivering Unit := do
  if policy.mode = .reviewedPrManual then
    let journal ← enter journal "awaiting_merge_authority"
    .exit (.returned journal)

def watchChecks (host : DeliveryHost) (policy : DeliveryConfig) (change : ChangeRequestId)
    (journal : DeliveryJournal) : Delivering Unit :=
  match policy.forge.waitChecks change.id with
  | .declined => stopForDeclinedVerb journal policy.forge "watch checks"
  | .run values => do
    match ← checkedOwnedEnv host .waitChecks journal.worktree (forgeArgv policy values) [] with
    | .error e =>
      commentBlocker host policy journal.worktree change.id e
      failJournal host journal "checks_failed" e
    | .ok _ => pure ()

def requireCheck (host : DeliveryHost) (policy : DeliveryConfig) (change : ChangeRequestId)
    (journal : DeliveryJournal) (check : String) : Delivering Unit :=
  match policy.forge.checkNamed change.id check with
  | .declined => stopForDeclinedVerb journal policy.forge "query a named check"
  | .run values => do
    let _ ← checkedOwned host (.checkNamed check) journal.worktree (forgeArgv policy values)
    pure ()

/-- Wait for the checks, then ask for each that is required, unless the merge is done. -/
def checksStage (host : DeliveryHost) (policy : DeliveryConfig) (change : ChangeRequestId)
    (journal : DeliveryJournal) : Delivering Unit := do
  if phaseBefore journal.phase "merged" then
    watchChecks host policy change journal
    policy.requiredChecks.forM (requireCheck host policy change journal)

/-- Merge, unless it is done. -/
def mergeStage (host : DeliveryHost) (policy : DeliveryConfig) (change : ChangeRequestId)
    (journal : DeliveryJournal) : Delivering DeliveryJournal := do
  if phaseBefore journal.phase "merged" then
    match policy.forge.merge change.id with
    | .declined => stopForDeclinedVerb journal policy.forge "merge"
    | .run values =>
      let _ ← checkedOwned host (.merge policy.requiredChecks) journal.worktree
        (forgeArgv policy values)
      enter journal "merged"
  else pure journal

def rollBack {α : Type} (host : DeliveryHost) (policy : DeliveryConfig) (change : ChangeRequestId)
    (journal : DeliveryJournal) (failure : String) : Delivering α := do
  let rollback ← checkedOwnedEnv host .rollback journal.worktree policy.rollbackArgv []
  let detail := failure ++ "; " ++ match rollback with
    | .ok _ => "rollback passed"
    | .error e => "rollback failed: " ++ e
  commentBlocker host policy journal.worktree change.id detail
  failJournal host journal "staging_rolled_back" detail

def deployStage (host : DeliveryHost) (policy : DeliveryConfig) (change : ChangeRequestId)
    (journal : DeliveryJournal) : Delivering DeliveryJournal := do
  if phaseBefore journal.phase "staging_deployed" then
    match ← checkedOwnedEnv host .deploy journal.worktree policy.deployArgv [] with
    | .error e => rollBack host policy change journal ("staging deploy failed: " ++ e)
    | .ok _ => enter journal "staging_deployed"
  else pure journal

/-- Test staging, unless it is done. -/
def smokeStage (host : DeliveryHost) (policy : DeliveryConfig) (change : ChangeRequestId)
    (journal : DeliveryJournal) : Delivering Unit := do
  if phaseBefore journal.phase "staging_verified" then
    match ← checkedOwnedEnv host .smoke journal.worktree policy.smokeArgv [] with
    | .error e => rollBack host policy change journal ("staging smoke failed: " ++ e)
    | .ok _ => pure ()

/-- Only a worktree that was reviewed is delivered. -/
def ready (ownership : WorktreeOwnership) : Except String Unit :=
  if ownership.state = "ready_for_delivery" then .ok ()
  else .error ("worktree is not reviewed and ready for delivery (state=" ++ ownership.state ++ ")")

/-- The journal to go on from: what the file holds, else a new one. -/
def resume (ownership : WorktreeOwnership) (timestamp : String) (stored : Option DeliveryJournal)
    (fault : Option String) : Except String DeliveryJournal :=
  match stored, fault with
  | some _, some e => .error ("cannot resume delivery journal: " ++ e)
  | some journal, none => .ok journal
  | none, _ => .ok (admitted ownership timestamp)

/-- `deliver_with`. The journal is what the file holds, if there is one. -/
def deliverWith (host : DeliveryHost) (call : DeliveryCall) (repository : String)
    (stored : Option DeliveryJournal) : Delivering DeliveryJournal := do
  let identity ← orFail (admitPolicy host call repository)
  let ownership ← orFail call.ownership
  orFail (ready ownership)
  let fault ← loadJournal
  let journal ← orFail (resume ownership call.timestamp stored fault)
  persist journal
  let branch := branchOf ownership
  let journal ← commitStage host call.policy identity branch journal
  let journal ← pushStage host call.policy branch journal
  manualPublication call.policy journal
  let journal ← publishStage host call.policy identity repository branch journal
  let change ← orFail (publishedChange call.policy journal)
  manualMerge call.policy journal
  checksStage host call.policy change journal
  let journal ← mergeStage host call.policy change journal
  let journal ← deployStage host call.policy change journal
  smokeStage host call.policy change journal
  enter { journal with detail := none } "staging_verified"

end Delivery

end FamiliarAi
