import FamiliarAi.ControlPlane.ClientRun
import FamiliarAi.ControlPlane.Ownership

/-!
# Runs of one connection

A connection authenticates the credential of its hello once, and what it authenticated then is asked by
the requests that follow, however much later they come. A submission that is to end with its connection
is noted before it is dispatched, and what is noted is ended when the connection ends. `StepMeets` says
what every step has to be given for executions to be changed by authority alone.
-/

namespace FamiliarAi

open Relational ControlStore Option

variable {Q M R : Type}

/-! ### A connection and its steps -/

/-- What is told to a connection that presented no session. -/
def noSession : FamiliarError :=
  .config "authority denied: a valid minted session is required"

def ControlRequest.presentsCredential : ControlRequest Q M → Bool
  | .requestEscalation _ | .agentView | .reportProgress _ | .submitEvidence _ => true
  | _ => false

/-- A connection after its hello, and the store it works on: the credential it presented, what that
authenticated, the foreground executions noted, and the executions that were accepted from it. -/
structure ServedConnection where
  store : ControlStore
  credential : Option String
  scope : Except FamiliarError CapabilityScope
  foreground : List String := []
  accepted : List String := []
  isOpen : Bool := true

/-- A connection whose hello was answered. -/
def ServedConnection.opened (service : ControlPlaneService) (now : String) (credential : Option String)
    (S : ControlStore) (faults : List (Option FamiliarError)) : ServedConnection where
  store := S
  credential := credential
  scope := match credential with
    | some credential =>
      ((service.authenticate now credential).run ⟨S, faults⟩).1.mapError fun e ↦ .config e.display
    | none => .error noSession

/-- What happens to a connection, and to its session meanwhile. Every step has the time at which it
happens, so a session expires by time passing. -/
inductive ConnectionStep (Q M : Type)
  | request (now : String) (request : ControlRequest Q M)
  /-- A line that is no request. -/
  | malformed
  /-- Somebody revokes a session. -/
  | revoke (now credential : String)
  | disconnect (now : String)
  /-- The connection breaks while it is read or written, and nothing is cleaned up. -/
  | broken

def ControlRequest.noted : ControlRequest Q M → List String
  | .submit submission => if submission.mode = .foregroundOnly then [submission.executionId] else []
  | _ => []

/-- The execution that a submission has queued. -/
def ControlRequest.queued (request : ControlRequest Q M)
    (response : Except FamiliarError (ControlResponse R)) : List String :=
  match request with
  | .submit submission => match response with
    | .ok (.submission ack) => if ack.duplicate then [] else [submission.executionId]
    | _ => []
  | _ => []

theorem ControlStore.KeepsScopes.stored {S S' : ControlStore} {host : Host} {grant : CapabilityGrant}
    (h : KeepsScopes S S') (hstored : Stored host grant S) : Stored host grant S' := by
  obtain ⟨s, hs, hhash, hscope⟩ := hstored
  obtain ⟨s', hs', hhash', hscope'⟩ := h.sessions s hs
  exact ⟨s', hs', hhash'.trans hhash, hscope'.trans hscope⟩

namespace ServedConnection

section Steps

variable (service : ControlPlaneService) (operator : Option (OperatorDispatcher Q M R))

def answer (k : ServedConnection) (now : String) (request : ControlRequest Q M) :
    ControlQuery (ControlResponse R) :=
  match k.credential with
  | some credential => handle service operator now k.scope credential request
  | none =>
    if request.presentsCredential then .fail noSession
    else handle service operator now k.scope "" request

def step (k : ServedConnection) : ConnectionStep Q M × List (Option FamiliarError) → ServedConnection
  | (.request now request, faults) =>
    if k.isOpen then
      let r := (k.answer service operator now request).run ⟨k.store, faults⟩
      { k with
        store := r.2.store
        foreground := k.foreground ++ request.noted
        accepted := k.accepted ++ request.queued r.1 }
    else k
  | (.malformed, _) => k
  | (.revoke now credential, faults) =>
    let r := (revokeSession now (service.host.credentialHash credential)).run ⟨k.store, faults⟩
    { k with store := r.2.store }
  | (.disconnect _, faults) =>
    if k.isOpen then
      let cleanUp : ControlQuery Unit := .forEach k.foreground fun execution ↦
        .ignoring (ControlPlaneService.endForeground execution)
      { k with store := (cleanUp.run ⟨k.store, faults⟩).2.store, isOpen := false }
    else k
  | (.broken, _) => { k with isOpen := false }

/-- What the hello authenticated, if it did. -/
def held (k : ServedConnection) : Option CapabilityScope :=
  k.scope.toOption

/-- The session is neither revoked nor expired. -/
def ValidAt (k : ServedConnection) (now : String) : Prop :=
  k.credential.any (fun credential ↦
    (k.store.session now (service.host.credentialHash credential)).isSome) = true

instance (k : ServedConnection) (now : String) : Decidable (k.ValidAt service now) :=
  inferInstanceAs (Decidable (_ = true))

/-- The scope has an authority for what becomes of the execution, which is in its project. -/
structure Allows (scope : CapabilityScope) (id : String) (S S' : ControlStore) : Prop where
  project : ∀ p ∈ scope.projectId, OwnedBy p id S ∧ OwnedBy p id S'
  row : S'.execution id ≠ S.execution id → .control ∈ scope.authorities
  events : .control ∈ scope.authorities ∨ .reportProgress ∈ scope.authorities ∨
    .submitEvidence ∈ scope.authorities

/-- The session of the connection is valid at that time, and allows what becomes of the execution. -/
def Authorized (k : ServedConnection) (now id : String) (S' : ControlStore) : Prop :=
  ∃ credential ∈ k.credential, ∃ scope,
    k.store.session now (service.host.credentialHash credential) = some scope ∧
      Allows scope id k.store S'

/-- A step changes an execution by authority alone, and the end of a connection ends what was accepted
from it and is to end with it. -/
def StepSound (k : ServedConnection) (step : ConnectionStep Q M × List (Option FamiliarError)) : Prop :=
  ∀ id, (k.step service operator step).store.executionPart id ≠ k.store.executionPart id →
    match step.1 with
    | .request now _ => k.Authorized service now id (k.step service operator step).store
    | .disconnect now => k.Authorized service now id (k.step service operator step).store ∧
        id ∈ k.accepted ∧ (k.store.execution id).any (·.mode = .foregroundOnly) = true
    | .malformed | .revoke _ _ | .broken => False

def RunSound (k : ServedConnection) :
    List (ConnectionStep Q M × List (Option FamiliarError)) → Prop
  | [] => True
  | step :: steps => k.StepSound service operator step ∧
      (k.step service operator step).RunSound steps

/-- The execution that a report is about belongs to the project of the session. -/
def ReportsOwn (k : ServedConnection) (now : String) (authority : Authority) : Prop :=
  ∀ credential ∈ k.credential,
    ∀ scope ∈ k.store.session now (service.host.credentialHash credential),
      authority ∈ scope.authorities →
        ∀ execution ∈ scope.executionId, ∀ p ∈ scope.projectId, OwnedBy p execution k.store

/-- What a request has to be given: a session that is still valid where it asks for what was authenticated
before, and an execution of the session's project where it names one. The operator's dispatcher is only
reached by sessions that are valid and for all projects, reads where it is asked to, and keeps to the
store's own rules. -/
def RequestMeets (k : ServedConnection) (now : String) : ControlRequest Q M → Prop
  | .submit submission => ∀ scope ∈ k.held,
      require scope .control submission.projectId none = .ok () → k.ValidAt service now
  | .cancel execution project => ∀ scope ∈ k.held,
      require scope .control project (some execution) = .ok () → Endable execution k.store →
        k.ValidAt service now ∧ ∀ p ∈ scope.projectId, OwnedBy p execution k.store
  | .reportProgress _ => k.ReportsOwn service now .reportProgress
  | .submitEvidence _ => k.ReportsOwn service now .submitEvidence
  | .operatorQuery query => ∀ scope ∈ k.held, .observe ∈ scope.authorities →
      ∀ dispatcher ∈ operator, (dispatcher.query query).Respects (TouchesOnly none)
  | .operatorMutate mutation => ∀ scope ∈ k.held, .control ∈ scope.authorities →
      ∀ dispatcher ∈ operator, (dispatcher.mutate mutation).Respects KeepsScopes ∧
        k.ValidAt service now ∧ scope.projectId = none
  | _ => True

def StepMeets (k : ServedConnection) : ConnectionStep Q M → Prop
  | .request now request => k.isOpen = true → k.RequestMeets service operator now request
  | .disconnect now => k.isOpen = true → ∀ id ∈ k.foreground,
      (k.store.execution id).any (·.mode = .foregroundOnly) = true → Endable id k.store →
        id ∈ k.accepted ∧ k.ValidAt service now
  | .malformed | .revoke _ _ | .broken => True

def RunMeets (k : ServedConnection) :
    List (ConnectionStep Q M × List (Option FamiliarError)) → Prop
  | [] => True
  | step :: steps => k.StepMeets service operator step.1 ∧
      (k.step service operator step).RunMeets steps

end Steps

variable {service : ControlPlaneService} {operator : Option (OperatorDispatcher Q M R)}
  {k : ServedConnection} {S S' : ControlStore} {id now : String} {scope : CapabilityScope}
  {m : ControlQuery (ControlResponse R)} {faults : List (Option FamiliarError)} {e : FamiliarError}

/-- What the hello authenticated has authority over the project of the execution. -/
def Owns (k : ServedConnection) (id : String) (S : ControlStore) : Prop :=
  ∃ scope, k.scope = .ok scope ∧
    ∃ e, S.execution id = some e ∧ require scope .control e.projectId none = .ok ()

/-- **The invariant of a connection.** -/
structure Registered (service : ControlPlaneService) (k : ServedConnection) : Prop where
  /-- The session that was authenticated is stored, though it may be revoked or expired by now. -/
  held : ∀ scope, k.scope = .ok scope →
    ∃ credential ∈ k.credential, Stored service.host ⟨credential, scope, ""⟩ k.store
  /-- What was accepted is of a project of the session. -/
  accepted : ∀ id ∈ k.accepted, k.Owns id k.store

theorem Owns.keeps (h : k.Owns id S) (hkeeps : KeepsScopes S S') : k.Owns id S' := by
  obtain ⟨scope, hscope, e, he, hrequire⟩ := h
  obtain ⟨e', he', hproject⟩ := hkeeps.projects id e he
  exact ⟨scope, hscope, e', he', by rw [hproject]; exact hrequire⟩

theorem Registered.session (hk : k.Registered service) (hscope : k.scope = .ok scope)
    (hvalid : k.ValidAt service now) :
    ∃ credential ∈ k.credential,
      k.store.session now (service.host.credentialHash credential) = some scope := by
  obtain ⟨credential, hcredential, hstored⟩ := hk.held scope hscope
  refine ⟨credential, hcredential, ?_⟩
  rw [ValidAt, mem_def.1 hcredential, any_some] at hvalid
  obtain ⟨s, hs⟩ := isSome_iff_exists.1 hvalid
  rw [hs, hstored.session_eq hs]

theorem Allows.of_require {e : ExecutionRow} (hkeeps : KeepsScopes S S')
    (he : S'.execution id = some e) (hrequire : require scope .control e.projectId none = .ok ()) :
    Allows scope id S S' := by
  obtain ⟨hauthority, hproject⟩ := require_ok hrequire
  refine ⟨fun p hp ↦ ?_, fun _ ↦ hauthority, .inl hauthority⟩
  have howned : OwnedBy p id S' := ownedBy_iff.2 fun e' he' ↦ by
    rw [← some.inj (he.symm.trans he'), hproject p hp]
  exact ⟨hkeeps.ownedBy_of howned, howned⟩

/-! ### Requests -/

/-- What a request does to the executions is authorised, and what it queues is of the session. -/
structure Answers (service : ControlPlaneService) (k : ServedConnection) (now : String)
    (request : ControlRequest Q M) (r : Except FamiliarError (ControlResponse R))
    (S' : ControlStore) : Prop where
  keeps : KeepsScopes k.store S'
  changes : ∀ id, S'.executionPart id ≠ k.store.executionPart id → k.Authorized service now id S'
  queued : ∀ id ∈ request.queued r, k.Owns id S'

variable {request : ControlRequest Q M} {r : Except FamiliarError (ControlResponse R)}

theorem Answers.of_touchesOnly (h : TouchesOnly none k.store S') (hqueued : request.queued r = []) :
    Answers service k now request r S' := by
  refine ⟨h.toKeepsScopes, fun id hne ↦ ?_, fun id hid ↦ ?_⟩
  · cases h.eq_of_ne hne
  · rw [hqueued] at hid
    cases hid

/-- A request that fails has done nothing. -/
theorem Answers.of_error (h : S' = k.store) :
    Answers (R := R) service k now request (.error e) S' := by
  rw [h]
  refine .of_touchesOnly ⟨.refl _, fun _ _ ↦ rfl⟩ ?_
  cases request <;> rfl

theorem answers_of_respects (hm : m.Respects (TouchesOnly none))
    (hqueued : ∀ r : Except FamiliarError (ControlResponse R), request.queued r = [])
    (faults : List (Option FamiliarError)) :
    Answers service k now request (m.run ⟨k.store, faults⟩).1 (m.run ⟨k.store, faults⟩).2.store :=
  .of_touchesOnly (hm ⟨k.store, faults⟩) (hqueued _)

theorem answers_of_readOnly (hm : m.ReadOnly)
    (hqueued : ∀ r : Except FamiliarError (ControlResponse R), request.queued r = [])
    (faults : List (Option FamiliarError)) :
    Answers service k now request (m.run ⟨k.store, faults⟩).1 (m.run ⟨k.store, faults⟩).2.store :=
  answers_of_respects (.of_readOnly hm) hqueued faults

theorem answers_of_atomic (hm : m.Atomic)
    (hruns : ∀ response c', m.Runs ⟨k.store, faults⟩ response c' → Answers service k now request (.ok response) c'.store)
    :
    Answers service k now request (m.run ⟨k.store, faults⟩).1 (m.run ⟨k.store, faults⟩).2.store := by
  cases hrun : m.run ⟨k.store, faults⟩ with
  | mk r c' =>
    cases r with
    | ok response => exact hruns response c' hrun
    | error e => exact .of_error (hm _ e c' hrun)

theorem reportAgentEvent_answers {credential kind payload : String} {authority : Authority} {cursor : ℕ}
    {c c' : Connection ControlStore FamiliarError} {response : ControlResponse R}
    (hcredential : credential ∈ k.credential) (hc : c.store = k.store)
    (hauthority : authority = .reportProgress ∨ authority = .submitEvidence)
    (hmeets : k.ReportsOwn service now authority)
    (hqueued : request.queued (.ok response) = [])
    (h : (service.reportAgentEvent now credential authority kind payload).Runs c cursor c') :
    Answers service k now request (.ok response) c'.store := by
  obtain ⟨scope, c₁, hauthenticate, h₁⟩ := h.of_bind
  obtain ⟨hsession, hstore⟩ := authenticate_session hauthenticate
  obtain ⟨_, hok, h₂⟩ := h₁.of_ofExcept_bind
  obtain ⟨execution, c₃, hexecution, happend⟩ := h₂.of_bind
  obtain ⟨hexecution, rfl⟩ := hexecution.of_ofExcept
  rw [hc] at hsession hstore
  have htouches := (appendAgentEvent_touchesOnly service.host execution kind payload).of_runs happend
  rw [hstore] at htouches
  have hscoped : scope.executionId = some execution := by
    unfold requireScoped at hexecution
    split at hexecution
    · rename_i e he
      cases hexecution
      exact he
    · cases hexecution
  refine ⟨htouches.toKeepsScopes, fun id hne ↦ ?_, fun id hid ↦ ?_⟩
  · obtain rfl : execution = id := some.inj (htouches.eq_of_ne hne)
    have howned := hmeets credential hcredential scope hsession (requireAuthority_ok hok) execution hscoped
    have hsame : c'.store.execution execution = k.store.execution execution := by
      rw [((appendAgentEvent_keeps service.host execution kind payload).of_runs happend).execution, hstore]
    refine ⟨credential, hcredential, scope, hsession, fun p hp ↦ ⟨howned p hp, ?_⟩,
      fun hrow ↦ absurd hsame hrow, .inr ?_⟩
    · rw [OwnedBy, hsame]
      exact howned p hp
    · have hauthority' := requireAuthority_ok hok
      rcases hauthority with rfl | rfl
      · exact .inl hauthority'
      · exact .inr hauthority'
  · rw [hqueued] at hid
    cases hid

theorem held_of_ok (h : k.scope = .ok scope) : scope ∈ k.held := by
  rw [held, h]
  rfl

theorem answers_of_fails (h : m.Fails ⟨k.store, faults⟩ e ⟨k.store, faults⟩) :
    Answers service k now request (m.run ⟨k.store, faults⟩).1 (m.run ⟨k.store, faults⟩).2.store := by
  have hrun : m.run ⟨k.store, faults⟩ = (.error e, ⟨k.store, faults⟩) := h
  rw [hrun]
  exact .of_error rfl

theorem submit_answers {submission : Submission} {ack : SubmissionAck} (hk : k.Registered service)
    (hscope : k.scope = .ok scope) (hok : require scope .control submission.projectId none = .ok ())
    (hvalid : k.ValidAt service now)
    (h : ack.duplicate = true ∧ S' = k.store ∨ ack.duplicate = false ∧ TouchesOnly (some submission.executionId) k.store S' ∧ ∃ e, S'.execution submission.executionId = some e ∧ e.projectId = submission.projectId)
    :
    Answers (R := R) service k now (ControlRequest.submit (Q := Q) (M := M) submission)
      (.ok (.submission ack)) S' := by
  have hqueued : ControlRequest.queued (R := R) (ControlRequest.submit (Q := Q) (M := M) submission)
      (.ok (.submission ack)) = if ack.duplicate then [] else [submission.executionId] := rfl
  rcases h with ⟨hduplicate, rfl⟩ | ⟨hnew, htouches, e, he, hproject⟩
  · refine .of_touchesOnly ⟨.refl _, fun _ _ ↦ rfl⟩ ?_
    rw [hqueued, if_pos hduplicate]
  · rw [← hproject] at hok
    refine ⟨htouches.toKeepsScopes, fun id hne ↦ ?_, fun id hid ↦ ?_⟩
    · obtain rfl : submission.executionId = id := some.inj (htouches.eq_of_ne hne)
      obtain ⟨credential, hcredential, hsession⟩ := hk.session hscope hvalid
      exact ⟨credential, hcredential, scope, hsession, .of_require htouches.toKeepsScopes he hok⟩
    · rw [hqueued, if_neg (by rw [hnew]; simp)] at hid
      obtain rfl := List.mem_singleton.1 hid
      exact ⟨scope, hscope, e, he, hok⟩

theorem cancel_answers {execution project : String} {answer : Option ℕ × Bool}
    {c' : Connection ControlStore FamiliarError} {text : String} (hk : k.Registered service)
    (hscope : k.scope = .ok scope)
    (hmeets : require scope .control project (some execution) = .ok () → Endable execution k.store → k.ValidAt service now ∧ ∀ p ∈ scope.projectId, OwnedBy p execution k.store)
    (h : (ControlPlaneService.cancel scope execution project).Runs ⟨k.store, faults⟩ answer c') :
    Answers (R := R) service k now (ControlRequest.cancel (Q := Q) (M := M) execution project)
      (.ok (.health text)) c'.store := by
  obtain ⟨_, c₁, hrequire, -⟩ := h.of_bind
  have hok := (Query.runs_ofExcept.1 hrequire).1
  obtain ⟨c₂, c₃, hc₂, hfinish, hc'⟩ := cancel_runs h
  have htouches := (finish_touchesOnly execution _ _).of_runs hfinish
  rw [hc₂, ← hc'] at htouches
  refine ⟨htouches.toKeepsScopes, fun id hne ↦ ?_, fun id hid ↦ by cases hid⟩
  obtain rfl : execution = id := some.inj (htouches.eq_of_ne hne)
  have hendable : Endable execution k.store := by
    by_contra hno
    have hsame : ((ControlPlaneService.cancel scope execution project).run ⟨k.store, faults⟩).2.store =
        k.store := cancel_spared hno faults
    rw [h] at hsame
    exact hne (congrArg (executionPart · execution) hsame)
  obtain ⟨hvalid, howned⟩ := hmeets hok hendable
  obtain ⟨credential, hcredential, hsession⟩ := hk.session hscope hvalid
  refine ⟨credential, hcredential, scope, hsession, fun p hp ↦ ⟨howned p hp, ?_⟩,
    fun _ ↦ (require_ok hok).1, .inl (require_ok hok).1⟩
  exact htouches.toKeepsScopes.ownedBy (isSome_of_endable hendable) (howned p hp)

/-- **A request that meets its condition changes executions by authority alone.** -/
theorem handle_answers (hk : k.Registered service) {credential : String}
    (hcredential : credential ∈ k.credential) (hmeets : k.RequestMeets service operator now request)
    (faults : List (Option FamiliarError)) :
    let r := (handle service operator now k.scope credential request).run ⟨k.store, faults⟩
    Answers service k now request r.1 r.2.store := by
  intro r
  have hofExcept {α : Type} {x : Except FamiliarError α} :
      (Query.ofExcept x : ControlQuery α).Respects (TouchesOnly none) :=
    .of_readOnly .ofExcept
  have hpure {α : Type} {a : α} : (pure a : ControlQuery α).Respects (TouchesOnly none) :=
    .of_readOnly .pure
  cases request with
  | hello => exact answers_of_readOnly .fail (fun _ ↦ rfl) faults
  | health => exact answers_of_readOnly .pure (fun _ ↦ rfl) faults
  | registerProject projectId root priority ceiling =>
    refine answers_of_respects (hofExcept.bind fun _ ↦ hofExcept.bind fun _ ↦
      .bind ?_ fun _ ↦ hpure) (fun _ ↦ rfl) faults
    exact registerProject_touchesOnly _ _ _ _
  | setProjectState projectId state =>
    refine answers_of_respects (hofExcept.bind fun _ ↦ .bind ?_ fun _ ↦ hpure) (fun _ ↦ rfl) faults
    exact hofExcept.bind fun _ ↦ setProjectState_touchesOnly _ _
  | submit submission =>
    refine answers_of_atomic (handle_atomic rfl) fun response c' h ↦ ?_
    obtain ⟨scope, hscope, h₁⟩ := h.of_ofExcept_bind
    obtain ⟨ack, rfl, hsubmit⟩ := h₁.of_bind_pure
    obtain ⟨_, hok, hsubmit⟩ := hsubmit.of_ofExcept_bind
    exact submit_answers hk hscope hok (hmeets scope (held_of_ok hscope) hok) (submit_runs hsubmit)
  | observe execution project after limit =>
    refine answers_of_readOnly (.bind .ofExcept fun _ ↦ .bind ?_ fun _ ↦
      .pure) (fun _ ↦ rfl) faults
    exact .bind .ofExcept fun _ ↦ .read
  | execution execution project =>
    exact answers_of_readOnly (.bind .ofExcept fun _ ↦ execution_readOnly.bind fun _ ↦
      .pure) (fun _ ↦ rfl) faults
  | requestEscalation requestJson =>
    refine answers_of_respects (.bind ?_ fun _ ↦ hpure) (fun _ ↦ rfl) faults
    refine (Query.Respects.of_readOnly (authenticate_readOnly _)).bind fun _ ↦ hofExcept.bind fun _ ↦ ?_
    exact sidesteps_touchesOnly (pendingGate_sidesteps _ _ _)
  | cancel execution project =>
    refine answers_of_atomic (handle_atomic rfl) fun response c' h ↦ ?_
    obtain ⟨scope, hscope, h₁⟩ := h.of_ofExcept_bind
    obtain ⟨answer, rfl, hcancel⟩ := h₁.of_bind_pure
    exact cancel_answers hk hscope (fun hok ↦ hmeets scope (held_of_ok hscope) hok) hcancel
  | agentView =>
    exact answers_of_readOnly (agentView_readOnly.bind fun _ ↦ Query.ReadOnly.pure) (fun _ ↦ rfl) faults
  | reportProgress payload =>
    refine answers_of_atomic (handle_atomic rfl) fun response c' h ↦ ?_
    obtain ⟨cursor, rfl, hreport⟩ := h.of_bind_pure
    exact reportAgentEvent_answers hcredential rfl (.inl rfl) hmeets rfl hreport
  | submitEvidence payload =>
    refine answers_of_atomic (handle_atomic rfl) fun response c' h ↦ ?_
    obtain ⟨cursor, rfl, hreport⟩ := h.of_bind_pure
    exact reportAgentEvent_answers hcredential rfl (.inr rfl) hmeets rfl hreport
  | operatorQuery query =>
    rcases operator_cases operator .observe k.scope
      (fun dispatcher ↦ dispatcher.query query >>= fun reply ↦
        pure (ControlResponse.operator reply)) ⟨k.store, faults⟩ with
      ⟨e, hfails⟩ | ⟨scope, dispatcher, hscope, hauthority, hoperator, hrun⟩
    · exact answers_of_fails hfails
    · have hreads := hmeets scope (held_of_ok hscope) hauthority dispatcher hoperator
      have hhandle : r = _ := hrun
      rw [hhandle]
      exact answers_of_respects (hreads.bind fun _ ↦ hpure) (fun _ ↦ rfl) faults
  | operatorMutate mutation =>
    rcases operator_cases operator .control k.scope
      (fun dispatcher ↦ dispatcher.mutate mutation >>= fun reply ↦
        pure (ControlResponse.operator reply)) ⟨k.store, faults⟩ with
      ⟨e, hfails⟩ | ⟨scope, dispatcher, hscope, hauthority, hoperator, hrun⟩
    · exact answers_of_fails hfails
    · obtain ⟨hkeeps, hvalid, hall⟩ := hmeets scope (held_of_ok hscope) hauthority dispatcher hoperator
      obtain ⟨credential, hcredential, hsession⟩ := hk.session hscope hvalid
      refine ⟨?_, fun id _ ↦ ⟨credential, hcredential, scope, hsession, fun p hp ↦ ?_,
        fun _ ↦ hauthority, .inl hauthority⟩, fun id hid ↦ ?_⟩
      · have hhandle : r = _ := hrun
        rw [hhandle]
        exact hkeeps.bind (fun _ ↦ .of_readOnly .pure) ⟨k.store, faults⟩
      · rw [hall] at hp
        cases hp
      · cases hid
  | operatorObserve after limit =>
    refine answers_of_readOnly (.bind .ofExcept fun _ ↦ .bind .ofExcept fun _ ↦
      .bind .ofExcept fun _ ↦ ?_) (fun _ ↦ rfl) faults
    exact .pure

theorem stored_of_session {host : Host} {credential expiresAt : String}
    (h : S.session now (host.credentialHash credential) = some scope) :
    Stored host ⟨credential, scope, expiresAt⟩ S := by
  obtain ⟨row, hrow, rfl⟩ := map_eq_some_iff.1 h
  obtain ⟨hmem, hkey⟩ := Table.find_some hrow
  simp only [Bool.and_eq_true, decide_eq_true_eq] at hkey
  exact ⟨row, hmem, hkey.1.1, rfl⟩

/-- Where nothing was authenticated, nothing is done. -/
theorem handle_of_error (service : ControlPlaneService)
    (operator : Option (OperatorDispatcher Q M R)) (now : String) (e : FamiliarError)
    (credential : String) (request : ControlRequest Q M)
    (hrequest : request.presentsCredential = false) (c : Connection ControlStore FamiliarError) :
    (∃ e', (handle service operator now (.error e) credential request).Fails c e' c) ∨
      request = .health := by
  cases request with
  | hello => exact .inl ⟨_, rfl⟩
  | health => exact .inr rfl
  | requestEscalation requestJson => cases hrequest
  | agentView => cases hrequest
  | reportProgress payload => cases hrequest
  | submitEvidence payload => cases hrequest
  | _ => exact .inl ⟨e, rfl⟩

theorem answer_answers (hk : k.Registered service)
    (hmeets : k.RequestMeets service operator now request) (faults : List (Option FamiliarError)) :
    let r := (k.answer service operator now request).run ⟨k.store, faults⟩
    Answers service k now request r.1 r.2.store := by
  intro r
  cases hcredential : k.credential with
  | some credential =>
    have hanswer : k.answer service operator now request =
        handle service operator now k.scope credential request := by
      rw [answer, hcredential]
    have hr : r = (handle service operator now k.scope credential request).run ⟨k.store, faults⟩ :=
      congrArg (Query.run · _) hanswer
    rw [hr]
    exact handle_answers hk hcredential hmeets faults
  | none =>
    have hanswer : k.answer service operator now request =
        if request.presentsCredential then .fail noSession
        else handle service operator now k.scope "" request := by
      rw [answer, hcredential]
    have hr : r = _ := congrArg (Query.run · ⟨k.store, faults⟩) hanswer
    rw [hr]
    cases hpresents : request.presentsCredential with
    | true => exact .of_error rfl
    | false =>
      rcases hscope : k.scope with e | scope
      · rw [if_neg Bool.false_ne_true]
        rcases handle_of_error service operator now e "" request hpresents ⟨k.store, faults⟩ with
          ⟨e', hfails⟩ | rfl
        · exact answers_of_fails hfails
        · exact answers_of_readOnly .pure (fun _ ↦ rfl) faults
      obtain ⟨credential, hmem, -⟩ := hk.held scope hscope
      rw [hcredential] at hmem
      cases hmem

theorem endForeground_touchesOnly (id : String) :
    (ControlPlaneService.endForeground id).Respects (TouchesOnly (some id)) := by
  refine (Query.Respects.of_readOnly Query.ReadOnly.read).bind fun record ↦ ?_
  split
  · exact (Query.Respects.of_readOnly Query.ReadOnly.read).bind fun _ ↦
      (finish_touchesOnly _ _ _).bind fun _ ↦ .of_readOnly .pure
  · exact .of_readOnly .pure

theorem endForeground_changes {c : Connection ControlStore FamiliarError}
    (hne : ((ControlPlaneService.endForeground id).run c).2.store ≠ c.store) :
    (c.store.execution id).any (·.mode = .foregroundOnly) = true ∧ Endable id c.store := by
  by_contra hno
  refine hne (endForeground_spared ?_ c.faults)
  by_cases hforeground : (c.store.execution id).any (·.mode = .foregroundOnly) = true
  · exact .inr fun hendable ↦ hno ⟨hforeground, hendable⟩
  · exact .inl (by simpa using hforeground)

theorem cleanUp_changes (ids : List String) (c : Connection ControlStore FamiliarError) :
    let S' := ((Query.forEach ids fun execution ↦
      .ignoring (ControlPlaneService.endForeground execution) : ControlQuery Unit).run c).2.store
    KeepsScopes c.store S' ∧ ∀ id, S'.executionPart id ≠ c.store.executionPart id → id ∈ ids ∧
      (c.store.execution id).any (·.mode = .foregroundOnly) = true ∧ Endable id c.store := by
  induction ids generalizing c with
  | nil => exact ⟨.refl _, fun id hne ↦ absurd rfl hne⟩
  | cons first ids ih =>
    have htouches := endForeground_touchesOnly first c
    obtain ⟨hkeeps, hchanges⟩ := ih ((ControlPlaneService.endForeground first).run c).2
    refine ⟨htouches.toKeepsScopes.trans hkeeps, fun id hne ↦ ?_⟩
    by_cases hfirst : ((ControlPlaneService.endForeground first).run c).2.store.executionPart id =
        c.store.executionPart id
    · -- the execution is as it was before the first one was ended
      obtain ⟨hmem, hforeground, hendable⟩ := hchanges id fun hsame ↦ hne (hsame.trans hfirst)
      have hrow := congrArg ExecutionPart.row hfirst
      change ControlStore.execution _ id = _ at hrow
      rw [hrow] at hforeground
      rw [Endable, stateOf, hrow] at hendable
      exact ⟨List.mem_cons_of_mem _ hmem, hforeground, hendable⟩
    · obtain rfl : first = id := some.inj (htouches.eq_of_ne hfirst)
      exact ⟨List.mem_cons_self, endForeground_changes fun hsame ↦
        hfirst (congrArg (executionPart · first) hsame)⟩

/-! ### Steps and runs -/

theorem Registered.of_keeps {k' : ServedConnection} (hk : k.Registered service)
    (hcredential : k'.credential = k.credential) (hscope : k'.scope = k.scope)
    (hkeeps : KeepsScopes k.store k'.store)
    (haccepted : ∀ id ∈ k'.accepted, id ∈ k.accepted ∨ k.Owns id k'.store) : k'.Registered service := by
  refine ⟨fun scope hheld ↦ ?_, fun id hid ↦ ?_⟩
  · obtain ⟨credential, hmem, hstored⟩ := hk.held scope (hscope ▸ hheld)
    exact ⟨credential, hcredential ▸ hmem, hkeeps.stored hstored⟩
  · rw [Owns, hscope]
    exact (haccepted id hid).elim (fun hbefore ↦ (hk.accepted id hbefore).keeps hkeeps) fun hnew ↦ hnew

theorem registered_opened (service : ControlPlaneService) (now : String) (credential : Option String)
    (S : ControlStore) (faults : List (Option FamiliarError)) :
    (opened service now credential S faults).Registered service := by
  refine ⟨fun scope hscope ↦ ?_, fun id hid ↦ by cases hid⟩
  rcases credential with _ | credential
  · cases hscope
  refine ⟨credential, rfl, ?_⟩
  change (Except.mapError _ ((service.authenticate now credential).run ⟨S, faults⟩).1) = _ at hscope
  cases hrun : (service.authenticate now credential).run ⟨S, faults⟩ with
  | mk r c' =>
    rw [hrun] at hscope
    rcases r with e | s
    · cases hscope
    cases hscope
    exact stored_of_session (authenticate_session hrun).1

theorem Registered.step (hk : k.Registered service)
    (step : ConnectionStep Q M × List (Option FamiliarError))
    (hmeets : k.StepMeets service operator step.1) :
    (k.step service operator step).Registered service ∧ k.StepSound service operator step := by
  obtain ⟨step, faults⟩ := step
  cases step with
  | malformed => exact ⟨hk, fun id hne ↦ absurd rfl hne⟩
  | broken => exact ⟨hk.of_keeps rfl rfl (.refl _) fun _ hid ↦ .inl hid, fun id hne ↦ absurd rfl hne⟩
  | revoke now credential =>
    have htouches : TouchesOnly none k.store _ :=
      revokeSession_touchesOnly now (service.host.credentialHash credential) ⟨k.store, faults⟩
    refine ⟨hk.of_keeps rfl rfl htouches.toKeepsScopes fun _ hid ↦ .inl hid, fun id hne ↦ ?_⟩
    cases htouches.eq_of_ne hne
  | request now request =>
    rcases hopen : k.isOpen with _ | _
    · have hsame : k.step service operator (.request now request, faults) = k :=
        if_neg (by rw [hopen]; exact Bool.false_ne_true)
      rw [StepSound, hsame]
      exact ⟨hk, fun id hne ↦ absurd rfl hne⟩
    have hstep : k.step service operator (.request now request, faults) = _ := if_pos hopen
    have hanswers := answer_answers hk (hmeets hopen) faults
    rw [StepSound, hstep]
    refine ⟨hk.of_keeps rfl rfl hanswers.keeps fun id hid ↦ ?_, fun id hne ↦ hanswers.changes id hne⟩
    exact (List.mem_append.1 hid).imp_right (hanswers.queued id)
  | disconnect now =>
    rcases hopen : k.isOpen with _ | _
    · have hsame : k.step service operator (ConnectionStep.disconnect (Q := Q) (M := M) now, faults) = k :=
        if_neg (by rw [hopen]; exact Bool.false_ne_true)
      rw [StepSound, hsame]
      exact ⟨hk, fun id hne ↦ absurd rfl hne⟩
    have hstep : k.step service operator (ConnectionStep.disconnect (Q := Q) (M := M) now, faults) = _ :=
      if_pos hopen
    obtain ⟨hkeeps, hchanges⟩ := cleanUp_changes k.foreground ⟨k.store, faults⟩
    rw [StepSound, hstep]
    refine ⟨hk.of_keeps rfl rfl hkeeps fun _ hid ↦ .inl hid, fun id hne ↦ ?_⟩
    obtain ⟨hnoted, hforeground, hendable⟩ := hchanges id hne
    obtain ⟨haccepted, hvalid⟩ := hmeets hopen id hnoted hforeground hendable
    refine ⟨?_, haccepted, hforeground⟩
    -- what was accepted is still of a project of the session, and so it is afterwards
    obtain ⟨scope, hscope, e, he, hok⟩ := hk.accepted id haccepted
    obtain ⟨credential, hcredential, hsession⟩ := hk.session hscope hvalid
    obtain ⟨e', he', hproject⟩ := hkeeps.projects id e he
    rw [← hproject] at hok
    exact ⟨credential, hcredential, scope, hsession, .of_require hkeeps he' hok⟩

theorem Registered.run (hk : k.Registered service)
    (steps : List (ConnectionStep Q M × List (Option FamiliarError)))
    (hmeets : k.RunMeets service operator steps) : k.RunSound service operator steps := by
  induction steps generalizing k with
  | nil => trivial
  | cons step steps ih =>
    obtain ⟨hregistered, hsound⟩ := hk.step step hmeets.1
    exact ⟨hsound, ih hregistered hmeets.2⟩

end ServedConnection

open ServedConnection

/-- **Runs of a connection.** Whatever a connection presented with its hello, whatever it asks for and
whenever its session is revoked or expires: where every step meets its condition, an execution is changed
by authority alone, and the end of the connection ends what was accepted from it. -/
theorem connection_sound (service : ControlPlaneService)
    (operator : Option (OperatorDispatcher Q M R)) (now : String) (credential : Option String)
    (S : ControlStore) (faults : List (Option FamiliarError))
    (steps : List (ConnectionStep Q M × List (Option FamiliarError)))
    (hmeets : (opened service now credential S faults).RunMeets service operator steps) :
    (opened service now credential S faults).RunSound service operator steps :=
  (registered_opened service now credential S faults).run steps hmeets

/-- A connection that queues an execution to end with it and cancels another of its project. Its session is
revoked after it has ended. -/
def tidySteps : List (ConnectionStep Unit Unit × List (Option FamiliarError)) :=
  [(.request "2026-01-01 00:00:01" (.submit ⟨"a2", "alpha", "k3", .foregroundOnly, 0, "\x7b\x7d"⟩), []),
    (.malformed, []),
    (.request "2026-01-01 00:00:02" (.cancel "a1" "alpha"), []),
    (.disconnect "2026-01-01 00:00:03", []),
    (.revoke "2026-01-01 00:00:04" "alpha-session", [])]

theorem connection_sound_tidySteps :
    (opened twoProjectService "2026-01-01 00:00:00" (some "alpha-session") twoProjects []).RunSound
      twoProjectService (none : Option (OperatorDispatcher Unit Unit Unit)) tidySteps := by
  refine connection_sound twoProjectService none _ _ _ _ tidySteps
    ⟨fun _ ↦ ?_, trivial, fun _ ↦ ?_, ?_, trivial, trivial⟩
  · show ∀ scope ∈ held _, require scope .control "alpha" none = .ok () → ValidAt _ _ _
    decide +kernel
  · show ∀ scope ∈ held _, require scope .control "alpha" (some "a1") = .ok () → Endable "a1" _ →
      ValidAt _ _ _ ∧ ∀ p ∈ scope.projectId, OwnedBy p "a1" _
    decide +kernel
  · show _ = true → ∀ id ∈ ServedConnection.foreground _,
      (ControlStore.execution _ id).any (·.mode = .foregroundOnly) = true → Endable id _ →
        id ∈ ServedConnection.accepted _ ∧ ValidAt _ _ _
    decide +kernel

/-- An execution of `beta` is to end with its connection. -/
def foregroundProjects : ControlStore :=
  twoProjects.step (.submit "t" ⟨"b2", "beta", "k3", .foregroundOnly, 0, "\x7b\x7d"⟩, [])

/-- Without any session, to submit what is there already and to go. -/
def refusedSteps : List (ConnectionStep Unit Unit × List (Option FamiliarError)) :=
  [(.request "2026-01-01 00:00:01" (.submit ⟨"b2", "beta", "k4", .foregroundOnly, 0, "\x7b\x7d"⟩), []),
    (.disconnect "2026-01-01 00:00:02", [])]

/-- To cancel after the session was revoked. -/
def revokedSteps : List (ConnectionStep Unit Unit × List (Option FamiliarError)) :=
  [(.revoke "2026-01-01 00:00:01" "alpha-session", []),
    (.request "2026-01-01 00:00:02" (.cancel "a1" "alpha"), [])]

/-- The refused submission ends the execution of another connection, and the revoked session cancels. -/
theorem refused_unsound :
    ¬(opened twoProjectService "2026-01-01 00:00:00" none foregroundProjects []).RunSound
        twoProjectService (none : Option (OperatorDispatcher Unit Unit Unit)) refusedSteps ∧
      ¬(opened twoProjectService "2026-01-01 00:00:00" (some "alpha-session") twoProjects []).RunSound
        twoProjectService (none : Option (OperatorDispatcher Unit Unit Unit)) revokedSteps := by
  constructor
  · rintro ⟨-, hdisconnect, -⟩
    obtain ⟨⟨credential, hcredential, -⟩, -⟩ := hdisconnect "b2" (by decide +kernel)
    cases hcredential
  · rintro ⟨-, hcancel, -⟩
    obtain ⟨credential, hcredential, scope, hsession, -⟩ := hcancel "a1" (by decide +kernel)
    obtain rfl : "alpha-session" = credential := some.inj hcredential
    have hrevoked : (((opened twoProjectService "2026-01-01 00:00:00" (some "alpha-session") twoProjects
        []).step twoProjectService (none : Option (OperatorDispatcher Unit Unit Unit))
          (.revoke "2026-01-01 00:00:01" "alpha-session", [])).store.session "2026-01-01 00:00:02"
            (twoProjectService.host.credentialHash "alpha-session")) = none := by decide +kernel
    cases hrevoked.symm.trans hsession

end FamiliarAi
