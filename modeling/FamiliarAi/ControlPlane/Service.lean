import FamiliarAi.ControlPlane.Clients

/-!
# The control-plane service

The application boundary of the control plane. Each method checks the scope of the session that
asks, and most of them with `require`. The process group that a method sends a signal to is part of
its answer.
-/

namespace FamiliarAi

open Relational

def require (scope : CapabilityScope) (authority : Authority) (project : String)
    (execution : Option String) : Except FamiliarError Unit :=
  if authority ∉ scope.authorities then
    .error (.config ("authority denied: " ++ authority.debugName))
  else if scope.projectId.any (· ≠ project) then
    .error (.config "authority denied: unrelated project")
  else if execution.any fun e ↦ scope.executionId.any (· ≠ e) then
    .error (.config "authority denied: unrelated execution")
  else
    .ok ()

/-- Only the authority is asked for, and no project or execution is compared. -/
def requireAuthority (scope : CapabilityScope) (authority : Authority) :
    Except FamiliarError Unit :=
  if authority ∈ scope.authorities then .ok ()
  else .error (.config ("authority denied: " ++ authority.debugName))

def requireScoped {α : Type} (what : String) : Option α → Except FamiliarError α
  | some a => .ok a
  | none => .error (.config ("agent session is not " ++ what ++ " scoped"))

/-- The settings of the service. -/
structure SchedulingPolicy where
  globalCeiling : ℕ := 1
  defaultProjectCeiling : ℕ := 1

/-- The service, on the host it runs on. -/
structure ControlPlaneService where
  host : Host
  policy : SchedulingPolicy := {}
  ownerGeneration : ℕ := 0

namespace ControlPlaneService

variable (service : ControlPlaneService)

def registerProject (projectId root : String) (priority : ℤ) (ceiling : Option ℕ) :
    ControlQuery Unit :=
  FamiliarAi.registerProject projectId root priority
    (ceiling.getD service.policy.defaultProjectCeiling)

def setProjectState (scope : CapabilityScope) (project state : String) : ControlQuery Bool := do
  .ofExcept (require scope .control project none)
  FamiliarAi.setProjectState project state

def submit (now : String) (scope : CapabilityScope) (request : Submission) :
    ControlQuery SubmissionAck := do
  .ofExcept (require scope .control request.projectId none)
  FamiliarAi.submit now request

def observe (scope : CapabilityScope) (execution project : String) (after : ℤ) (limit : ℕ) :
    ControlQuery (List ControlEvent) := do
  .ofExcept (require scope .observe project (some execution))
  .read fun S ↦ S.eventsAfter execution after (min limit 1000)

def execution (scope : CapabilityScope) (id project : String) :
    ControlQuery (Option ExecutionRecord) := do
  .ofExcept (require scope .observe project (some id))
  let result ← .read fun S ↦ (S.execution id).map (·.record)
  .ensure (¬result.any (·.projectId ≠ project)) (.config "authority denied: unrelated project")
  pure result

def cancel (scope : CapabilityScope) (execution project : String) :
    ControlQuery (Option ℕ × Bool) := do
  .ofExcept (require scope .control project (some execution))
  let pid ← .read fun S ↦ S.workerPid execution
  let changed ← FamiliarAi.cancel execution
  pure (pid.filter (· < 2 ^ 31), changed)

def endForeground (execution : String) : ControlQuery (Option ℕ × Bool) := do
  let record ← .read fun S ↦ S.execution execution
  if record.any (·.mode = .foregroundOnly) then
    let pid ← .read fun S ↦ S.workerPid execution
    let changed ← finish execution .foregroundEnded "foreground_session_ended"
    pure (pid.filter (· < 2 ^ 31), changed)
  else
    pure (none, false)

def mintSession (issuer scope : CapabilityScope) (credential expiresAt : String) :
    ControlQuery CapabilityGrant := do
  .ensure (issuer.clientClass = .internal ∨ .control ∈ issuer.authorities)
    (.config "authority denied: session minting requires host control authority")
  .ensure (¬issuer.projectId.any fun p ↦ scope.projectId.any (p ≠ ·))
    (.config "authority denied: cannot mint an unrelated-project session")
  storeSession (service.host.credentialHash credential) scope expiresAt
  pure ⟨credential, scope, expiresAt⟩

def authenticate (now credential : String) : ControlQuery CapabilityScope := do
  let scope ← .read fun S ↦ S.session now (service.host.credentialHash credential)
  .ofExcept (match scope with
    | some scope => .ok scope
    | none => .error (.config "authority denied: a valid minted session is required"))

def requestEscalation (now credential requestJson : String) : ControlQuery String := do
  let scope ← service.authenticate now credential
  .ofExcept (require scope .requestEscalation (scope.projectId.getD "") scope.executionId)
  pendingGate (service.host.credentialHash credential) scope requestJson

def agentView (now credential : String) : ControlQuery AgentCapabilityView := do
  let scope ← service.authenticate now credential
  .ofExcept (requireAuthority scope .observe)
  .ofExcept (requireAuthority scope .readWarrant)
  let project ← .ofExcept (requireScoped "project" scope.projectId)
  let execution ← .ofExcept (requireScoped "execution" scope.executionId)
  let attempt ← .ofExcept (requireScoped "attempt" scope.attempt)
  let worker ← .ofExcept (requireScoped "worker" scope.workerId)
  let record ← .read fun S ↦ (S.execution execution).map (·.record)
  let record ← .ofExcept (match record with
    | some record => .ok record
    | none => .error (.config "scoped execution no longer exists"))
  .ensure (record.projectId = project ∧ (record.attempt : ℤ) = attempt ∧
      record.workerIdentity = some worker)
    (.config "agent session assignment no longer matches its execution attempt and worker")
  let warrant ← .read fun S ↦ S.warrantView execution
  let reservations ← .read fun S ↦ S.reservationView execution
  pure ⟨project, execution, attempt, worker, record.state, warrant, reservations⟩

def reportAgentEvent (now credential : String) (authority : Authority) (kind payload : String) :
    ControlQuery ℕ := do
  let scope ← service.authenticate now credential
  .ofExcept (requireAuthority scope authority)
  let execution ← .ofExcept (requireScoped "execution" scope.executionId)
  appendAgentEvent service.host execution kind payload

end ControlPlaneService

end FamiliarAi
