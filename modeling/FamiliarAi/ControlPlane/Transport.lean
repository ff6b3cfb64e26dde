import FamiliarAi.ControlPlane.Service

/-!
# The local transport

The requests that reach the service over the local socket. A connection authenticates the credential
of its hello once and keeps the scope; the requests of agents present the credential again. What an
operator's desktop asks is handed to a dispatcher whose data source is supplied from outside.

A client holds sessions, opens connections with them, sends requests in any order over any of its
connections, and has further sessions minted.
-/

namespace FamiliarAi

open Relational

/-! ### Requests -/

/-- The dispatcher of the operator's desktop, around a data source that may read and change
anything. Its own questions, actions and replies are left abstract. -/
structure OperatorDispatcher (Q M R : Type) where
  query : Q → ControlQuery R
  mutate : M → ControlQuery R
  /-- The numbers and topics of past actions: no store is read. -/
  observe : ℕ → ℕ → R

/-- The requests of the local transport after its hello. -/
inductive ControlRequest (Q M : Type)
  | hello
  | health
  | registerProject (projectId root : String) (priority : ℤ) (ceiling : Option ℕ)
  | setProjectState (projectId state : String)
  | submit (submission : Submission)
  | observe (executionId projectId : String) (after : ℤ) (limit : ℕ)
  | execution (executionId projectId : String)
  | requestEscalation (requestJson : String)
  | cancel (executionId projectId : String)
  | agentView
  | reportProgress (payloadJson : String)
  | submitEvidence (payloadJson : String)
  | operatorQuery (query : Q)
  | operatorMutate (mutation : M)
  | operatorObserve (after limit : ℕ)

inductive ControlResponse (R : Type)
  | health (text : String)
  | submission (ack : SubmissionAck)
  | events (events : List ControlEvent)
  | execution (record : Option ExecutionRecord)
  | gate (id : String)
  | agentView (view : AgentCapabilityView)
  | cursor (cursor : ℕ)
  | operator (reply : R)
  | operatorEvents (reply : R)
  | error (text : String)
  deriving DecidableEq

section Handle

variable {Q M R : Type}

def requireOperator (operator : Option (OperatorDispatcher Q M R)) :
    Except FamiliarError (OperatorDispatcher Q M R) :=
  match operator with
  | some dispatcher => .ok dispatcher
  | none => .error (.config "operator UI is unavailable")

/-- Dispatch a request of a connection. `scope` is what the hello authenticated, `credential` what it
presented. -/
def handle (service : ControlPlaneService) (operator : Option (OperatorDispatcher Q M R))
    (now : String) (scope : Except FamiliarError CapabilityScope) (credential : String) :
    ControlRequest Q M → ControlQuery (ControlResponse R)
  | .hello => .fail (.config "duplicate control-plane hello")
  | .health => pure (.health "healthy")
  | .registerProject projectId root priority ceiling => do
    let scope ← .ofExcept scope
    .ofExcept (requireAuthority scope .control)
    service.registerProject projectId root priority ceiling
    pure (.health "registered")
  | .setProjectState projectId state => do
    let scope ← .ofExcept scope
    let _ ← ControlPlaneService.setProjectState scope projectId state
    pure (.health state)
  | .submit submission => do
    let scope ← .ofExcept scope
    let ack ← ControlPlaneService.submit now scope submission
    pure (.submission ack)
  | .observe executionId projectId after limit => do
    let scope ← .ofExcept scope
    let events ← ControlPlaneService.observe scope executionId projectId after limit
    pure (.events events)
  | .execution executionId projectId => do
    let scope ← .ofExcept scope
    let record ← ControlPlaneService.execution scope executionId projectId
    pure (.execution record)
  | .requestEscalation requestJson => do
    let id ← service.requestEscalation now credential requestJson
    pure (.gate id)
  | .cancel executionId projectId => do
    let scope ← .ofExcept scope
    let _ ← ControlPlaneService.cancel scope executionId projectId
    pure (.health "cancelled")
  | .agentView => do
    let view ← service.agentView now credential
    pure (.agentView view)
  | .reportProgress payloadJson => do
    let cursor ← service.reportAgentEvent now credential .reportProgress "agent_progress" payloadJson
    pure (.cursor cursor)
  | .submitEvidence payloadJson => do
    let cursor ← service.reportAgentEvent now credential .submitEvidence "agent_evidence" payloadJson
    pure (.cursor cursor)
  | .operatorQuery query => do
    let scope ← .ofExcept scope
    .ofExcept (requireAuthority scope .observe)
    let dispatcher ← .ofExcept (requireOperator operator)
    let reply ← dispatcher.query query
    pure (.operator reply)
  | .operatorMutate mutation => do
    let scope ← .ofExcept scope
    .ofExcept (requireAuthority scope .control)
    let dispatcher ← .ofExcept (requireOperator operator)
    let reply ← dispatcher.mutate mutation
    pure (.operator reply)
  | .operatorObserve after limit => do
    let scope ← .ofExcept scope
    .ofExcept (requireAuthority scope .observe)
    let dispatcher ← .ofExcept (requireOperator operator)
    pure (.operatorEvents (dispatcher.observe after limit))

end Handle

/-- An open connection: the session it was opened with, what its hello authenticated, and the
foreground executions that end with it. -/
structure ClientConnection where
  grant : CapabilityGrant
  scope : Except FamiliarError CapabilityScope
  foreground : List String

/-- A submission that asks to end with its connection is noted before it is dispatched, whatever
becomes of it. -/
def ClientConnection.note {Q M : Type} (connection : ClientConnection) :
    ControlRequest Q M → ClientConnection
  | .submit submission =>
    if submission.mode = .foregroundOnly then
      { connection with foreground := connection.foreground ++ [submission.executionId] }
    else
      connection
  | _ => connection

def endConnection (connection : ClientConnection) : ControlQuery Unit :=
  .forEach connection.foreground fun execution ↦
    .ignoring (ControlPlaneService.endForeground execution)

/-- What a client does next. -/
inductive ClientStep (Q M : Type)
  | connect (now : String) (grant : CapabilityGrant)
  | request (connection : ℕ) (now : String) (request : ControlRequest Q M)
  | disconnect (connection : ℕ)
  | mint (issuer : CapabilityGrant) (scope : CapabilityScope) (credential expiresAt : String)

/-- A client and the store it works on: the sessions it holds, its open connections, and every answer
it was given, each with the store that answered. -/
structure Client (R : Type) where
  store : ControlStore
  grants : List CapabilityGrant
  connections : List ClientConnection := []
  answers : List (ControlResponse R × ControlStore) := []

section Clients

variable {Q M R : Type} (service : ControlPlaneService)
  (operator : Option (OperatorDispatcher Q M R))

/-- The text of a failure goes to the client. -/
def ControlResponse.ofExcept : Except FamiliarError (ControlResponse R) → ControlResponse R
  | .ok response => response
  | .error e => .error e.display

def Client.step (client : Client R) :
    ClientStep Q M × List (Option FamiliarError) → Client R
  | (.connect now grant, faults) =>
    if grant ∈ client.grants then
      let r := (service.authenticate now grant.credential).run ⟨client.store, faults⟩
      { client with connections := client.connections ++ [⟨grant, r.1, []⟩] }
    else
      client
  | (.request n now request, faults) =>
    match client.connections[n]? with
    | some connection =>
      let r := (handle service operator now connection.scope connection.grant.credential
        request).run ⟨client.store, faults⟩
      { client with
        store := r.2.store
        connections := client.connections.set n (connection.note request)
        answers := client.answers ++ [(.ofExcept r.1, r.2.store)] }
    | none => client
  | (.disconnect n, faults) =>
    match client.connections[n]? with
    | some connection =>
      { client with
        store := ((endConnection connection).run ⟨client.store, faults⟩).2.store
        connections := client.connections.eraseIdx n }
    | none => client
  | (.mint issuer scope credential expiresAt, faults) =>
    if issuer ∈ client.grants then
      match (service.mintSession issuer.scope scope credential expiresAt).run
        ⟨client.store, faults⟩ with
      | (.ok grant, c) => { client with store := c.store, grants := client.grants ++ [grant] }
      | (.error _, c) => { client with store := c.store }
    else
      client

def Client.run (client : Client R) (steps : List (ClientStep Q M × List (Option FamiliarError))) :
    Client R :=
  steps.foldl (Client.step service operator) client

end Clients

end FamiliarAi
