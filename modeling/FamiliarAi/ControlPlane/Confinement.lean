import FamiliarAi.ControlPlane.Cancellation
import FamiliarAi.ControlPlane.Isolation
import FamiliarAi.ControlPlane.Transport

/-!
# Sessions bound to a project

When does a session of a project stay in the project? The requests that take an execution's id next
to a project's check the project against the session and the execution against nothing, registration
checks no project at all, and minting compares projects only where both sides have one. `InScope` and
`MintInScope` say what each request and each mint has to be given for the checks to be enough, and
every run of a client whose steps all meet them is confined.
-/

namespace FamiliarAi

open Relational ControlStore

variable {Q M R : Type} {service : ControlPlaneService}
  {operator : Option (OperatorDispatcher Q M R)} {S S' : ControlStore}
  {c c' : Connection ControlStore FamiliarError} {p now : String} {scope : CapabilityScope}
  {grant : CapabilityGrant} {connection : ClientConnection}
  {authenticated : Except FamiliarError CapabilityScope} {authority : Authority}
  {request : ControlRequest Q M} {s : CapabilityScope} {credential : String} {host : Host}
  {α : Type}

/-! ### The conditions -/

def InScope (operator : Option (OperatorDispatcher Q M R)) (p : String) (scope : CapabilityScope)
    (S : ControlStore) : ControlRequest Q M → Prop
  | .registerProject projectId _ _ _ => .control ∈ scope.authorities → projectId = p
  | .submit submission => require scope .control submission.projectId none = .ok () →
      ∀ d ∈ S.duplicateOf submission.idempotencyKey, OwnedBy p d.1 S
  | .observe execution project _ _ =>
      require scope .observe project (some execution) = .ok () → OwnedBy p execution S
  | .cancel execution project =>
      require scope .control project (some execution) = .ok () → OwnedBy p execution S
  | .requestEscalation _ => .requestEscalation ∈ scope.authorities →
      ∀ execution ∈ scope.executionId, OwnedBy p execution S
  | .reportProgress _ => .reportProgress ∈ scope.authorities →
      ∀ execution ∈ scope.executionId, OwnedBy p execution S
  | .submitEvidence _ => .submitEvidence ∈ scope.authorities →
      ∀ execution ∈ scope.executionId, OwnedBy p execution S
  | .operatorQuery _ => .observe ∉ scope.authorities ∨ operator.isNone
  | .operatorMutate _ => .control ∉ scope.authorities ∨ operator.isNone
  | _ => True

instance (request : ControlRequest Q M) : Decidable (InScope operator p scope S request) := by
  cases request <;> dsimp only [InScope] <;> infer_instance

def CapabilityScope.Within (scope issuer : CapabilityScope) : Prop :=
  (∀ a ∈ scope.authorities, a ∈ issuer.authorities) ∧
    ∀ p ∈ issuer.projectId, scope.projectId = some p

instance (issuer : CapabilityScope) : Decidable (scope.Within issuer) :=
  inferInstanceAs (Decidable (_ ∧ _))

def MintInScope (issuer scope : CapabilityScope) : Prop :=
  issuer.clientClass = .internal ∨ .control ∈ issuer.authorities → scope.Within issuer

instance (issuer : CapabilityScope) : Decidable (MintInScope issuer scope) :=
  inferInstanceAs (Decidable (_ → _))

/-- An execution that ends with its connection, if there is one, belongs to the project. -/
def ForegroundOwned (p id : String) (S : ControlStore) : Prop :=
  ∀ e ∈ S.execution id, e.mode = .foregroundOnly → e.projectId = p

instance (id : String) : Decidable (ForegroundOwned p id S) :=
  inferInstanceAs (Decidable (∀ e ∈ _, _ → _))

def ControlResponse.Within (p : String) (S : ControlStore) : ControlResponse R → Prop
  | .submission ack => OwnedBy p ack.executionId S
  | .events stream => ∀ v ∈ stream, OwnedBy p v.executionId S
  | .execution record => ∀ r ∈ record, r.projectId = p
  | .gate id => ∃ g ∈ S.gates.rows, g.gateId = id ∧ g.projectId = p ∧ OwnedBy p g.executionId S
  | .agentView view => view.projectId = p ∧ OwnedBy p view.executionId S
  | .cursor n => ∃ v, S.events.rows[n - 1]? = some v ∧ OwnedBy p v.executionId S
  | .operator _ => False
  | .health _ | .operatorEvents _ | .error _ => True

/-- The store keeps the session under the digest of its credential. -/
def Stored (host : Host) (grant : CapabilityGrant) (S : ControlStore) : Prop :=
  ∃ s ∈ S.sessions.rows, s.sessionHash = host.credentialHash grant.credential ∧
    s.scope = grant.scope

theorem ControlStore.Spares.stored (h : Spares p S S') (hstored : Stored host grant S) :
    Stored host grant S' := by
  obtain ⟨s, hs, hhash⟩ := hstored
  exact ⟨s, h.sessions s hs, hhash⟩

theorem require_ok {project : String} {execution : Option String}
    (h : require scope authority project execution = .ok ()) :
    authority ∈ scope.authorities ∧ ∀ q ∈ scope.projectId, q = project := by
  unfold require at h
  split at h
  · cases h
  · rename_i hauthority
    split at h
    · cases h
    · rename_i hproject
      refine ⟨not_not.1 hauthority, fun q hq ↦ ?_⟩
      rw [Option.mem_def.1 hq] at hproject
      simpa using hproject

theorem requireAuthority_ok (h : requireAuthority scope authority = .ok ()) :
    authority ∈ scope.authorities := by
  unfold requireAuthority at h
  split at h
  · assumption
  · cases h

theorem Stored.session_eq (hstored : Stored host grant S)
    (h : S.session now (host.credentialHash grant.credential) = some s) : s = grant.scope := by
  obtain ⟨row, hrow, hhash, hrowScope⟩ := hstored
  obtain ⟨row', hrow', rfl⟩ := Option.map_eq_some_iff.1 h
  obtain ⟨hmem, hkey⟩ := Table.find_some hrow'
  simp only [Bool.and_eq_true, decide_eq_true_eq] at hkey
  obtain rfl : row' = row := Table.eq_of_clash hmem hrow (by
    simp [sessionSchema, hkey.1.1, hhash])
  exact hrowScope

theorem authenticate_session (h : (service.authenticate now credential).Runs c s c') :
    c.store.session now (service.host.credentialHash credential) = some s ∧ c'.store = c.store := by
  obtain ⟨scope, c₁, hread, hsome⟩ := h.of_bind
  obtain ⟨hscope, hstore⟩ := hread.of_read
  obtain ⟨hs, rfl⟩ := hsome.of_ofExcept
  refine ⟨?_, hstore⟩
  rw [hscope] at hs
  split at hs
  · rename_i scope' hfound
    cases hs
    exact hfound
  · cases hs

theorem authenticate_runs (h : (service.authenticate now grant.credential).Runs c s c')
    (hstored : Stored service.host grant c.store) : s = grant.scope ∧ c'.store = c.store := by
  obtain ⟨hsession, hstore⟩ := authenticate_session h
  exact ⟨hstored.session_eq hsession, hstore⟩

theorem eventsAfter_execution {execution : String} {after : ℤ} {limit : ℕ} {v : ControlEvent}
    (hv : v ∈ S.eventsAfter execution after limit) : v.executionId = execution := by
  obtain ⟨w, hw, rfl⟩ := List.mem_map.1 hv
  have hw' := List.mem_of_mem_take hw
  have hkey := (List.mem_filter.1 hw').2
  simp only [Bool.and_eq_true, decide_eq_true_eq] at hkey
  exact hkey.1

/-! ### Requests -/

theorem reportAgentEvent_runs {kind payload : String} {cursor : ℕ}
    (h : (service.reportAgentEvent now grant.credential authority kind payload).Runs c cursor c')
    (hstored : Stored service.host grant c.store)
    (hin : authority ∈ grant.scope.authorities → ∀ execution ∈ grant.scope.executionId, OwnedBy p execution c.store)
    :
    Spares p c.store c'.store ∧
      ∃ v, c'.store.events.rows[cursor - 1]? = some v ∧ OwnedBy p v.executionId c'.store := by
  obtain ⟨s, c₁, hauthenticate, h₁⟩ := h.of_bind
  obtain ⟨rfl, hstore⟩ := authenticate_runs hauthenticate hstored
  obtain ⟨_, hok, h₂⟩ := h₁.of_ofExcept_bind
  obtain ⟨execution, c₃, hexecution, happend⟩ := h₂.of_bind
  obtain ⟨hexecution, rfl⟩ := hexecution.of_ofExcept
  have howned : OwnedBy p execution c₁.store := by
    rw [hstore]
    refine hin (requireAuthority_ok hok) execution ?_
    unfold requireScoped at hexecution
    split at hexecution
    · rename_i e he
      cases hexecution
      exact he
    · cases hexecution
  have hspares := (appendAgentEvent_confines service.host execution kind payload).of_runs happend
    howned
  obtain ⟨-, h₄⟩ := happend.of_ensure_bind
  obtain ⟨-, h₅⟩ := h₄.of_ensure_bind
  obtain ⟨sequence, c₆, -, hinsert⟩ := h₅.of_bind
  have hchange := hinsert.of_change
  rw [← hstore]
  refine ⟨hspares, ?_⟩
  split at hchange
  · obtain ⟨V, hV, hr⟩ := Option.map_eq_some_iff.1 hchange
    obtain ⟨rfl, hstore'⟩ := Prod.mk.inj hr
    refine ⟨⟨execution ++ ":" ++ kind ++ ":" ++ toString sequence, execution, kind, .json payload⟩,
      ?_, hspares.ownedBy howned⟩
    rw [← hstore']
    show V.rows[V.rows.length - 1]? = _
    rw [Table.rows_insert hV]
    simp
  · cases hchange

variable (operator) in
theorem operator_cases (authority : Authority)
    (authenticated : Except FamiliarError CapabilityScope)
    (f : OperatorDispatcher Q M R → ControlQuery α) (c : Connection ControlStore FamiliarError) :
    let m := Query.ofExcept authenticated >>= fun s ↦ Query.ofExcept (requireAuthority s authority) >>=
      fun _ ↦ Query.ofExcept (requireOperator operator) >>= f
    (∃ e, m.Fails c e c) ∨ ∃ s dispatcher, authenticated = .ok s ∧ authority ∈ s.authorities ∧
      operator = some dispatcher ∧ m.run c = (f dispatcher).run c := by
  intro m
  rcases hs : authenticated with e | s
  · subst hs
    exact .inl ⟨e, rfl⟩
  subst hs
  by_cases hauthority : authority ∈ s.authorities
  · have hcheck : requireAuthority s authority = .ok () := if_pos hauthority
    rcases hoperator : operator with _ | dispatcher
    · refine .inl ⟨.config "operator UI is unavailable", ?_⟩
      change (Query.ofExcept (requireAuthority s authority) >>= _).Fails c _ c
      rw [hcheck, hoperator]
      rfl
    refine .inr ⟨s, dispatcher, rfl, hauthority, rfl, ?_⟩
    change (Query.ofExcept (requireAuthority s authority) >>= _).run c = _
    rw [hcheck, hoperator]
    rfl
  · have hcheck : requireAuthority s authority = .error _ := if_neg hauthority
    refine .inl ⟨.config ("authority denied: " ++ authority.debugName), ?_⟩
    change (Query.ofExcept (requireAuthority s authority) >>= _).Fails c _ c
    rw [hcheck]
    rfl

theorem operator_refused (authority : Authority) {f : OperatorDispatcher Q M R → ControlQuery α}
    (hauthenticated : ∀ s, authenticated = .ok s → s = scope)
    (hin : authority ∉ scope.authorities ∨ operator.isNone) :
    ∃ e, (Query.ofExcept authenticated >>= fun s ↦ Query.ofExcept (requireAuthority s authority) >>=
      fun _ ↦ Query.ofExcept (requireOperator operator) >>= f).Fails c e c := by
  rcases operator_cases operator authority authenticated f c with
    hfails | ⟨s, dispatcher, hs, hauthority, hoperator, -⟩
  · exact hfails
  · obtain rfl := hauthenticated s hs
    rcases hin with hno | hnone
    · exact absurd hauthority hno
    · rw [hoperator] at hnone
      cases hnone

/-- **A request in scope stays in the project**, in what it answers and in what it writes. -/
theorem handle_runs {response : ControlResponse R} (hproject : grant.scope.projectId = some p)
    (hauthenticated : ∀ s, authenticated = .ok s → s = grant.scope)
    (hstored : Stored service.host grant c.store)
    (hin : InScope operator p grant.scope c.store request)
    (h : (handle service operator now authenticated grant.credential request).Runs c response c') :
    Spares p c.store c'.store ∧ response.Within p c'.store := by
  have hmine : ∀ {authority : Authority} {project : String} {execution : Option String},
      require grant.scope authority project execution = .ok () → project = p :=
    fun hok ↦ ((require_ok hok).2 p hproject).symm
  cases request with
  | hello => cases h
  | health =>
    obtain ⟨rfl, rfl⟩ := h.of_pure
    exact ⟨.refl p _, trivial⟩
  | registerProject projectId root priority ceiling =>
    obtain ⟨s, hscope, h₁⟩ := h.of_ofExcept_bind
    obtain rfl := hauthenticated s hscope
    obtain ⟨_, hok, h₂⟩ := h₁.of_ofExcept_bind
    obtain ⟨_, rfl, hregister⟩ := h₂.of_bind_pure
    obtain rfl := hin (requireAuthority_ok hok)
    exact ⟨(registerProject_spares _ _ _ _).of_runs hregister, trivial⟩
  | setProjectState projectId state =>
    obtain ⟨s, hscope, h₁⟩ := h.of_ofExcept_bind
    obtain rfl := hauthenticated s hscope
    obtain ⟨_, rfl, hset⟩ := h₁.of_bind_pure
    obtain ⟨_, hok, hset⟩ := hset.of_ofExcept_bind
    obtain rfl := hmine hok
    exact ⟨(setProjectState_spares _ _).of_runs hset, trivial⟩
  | submit submission =>
    obtain ⟨s, hscope, h₁⟩ := h.of_ofExcept_bind
    obtain rfl := hauthenticated s hscope
    obtain ⟨ack, rfl, hsubmit⟩ := h₁.of_bind_pure
    obtain ⟨_, hok, hsubmit⟩ := hsubmit.of_ofExcept_bind
    exact submit_spares hsubmit (hmine hok) (hin hok)
  | observe execution project after limit =>
    obtain ⟨s, hscope, h₁⟩ := h.of_ofExcept_bind
    obtain rfl := hauthenticated s hscope
    obtain ⟨events, rfl, hobserve⟩ := h₁.of_bind_pure
    obtain ⟨_, hok, hobserve⟩ := hobserve.of_ofExcept_bind
    obtain ⟨rfl, hstore⟩ := hobserve.of_read
    rw [hstore]
    refine ⟨.refl p _, fun v hv ↦ ?_⟩
    rw [eventsAfter_execution hv]
    exact hin hok
  | execution execution project =>
    obtain ⟨s, hscope, h₁⟩ := h.of_ofExcept_bind
    obtain rfl := hauthenticated s hscope
    obtain ⟨record, rfl, hexecution⟩ := h₁.of_bind_pure
    obtain ⟨_, hok, hexecution⟩ := hexecution.of_ofExcept_bind
    obtain ⟨record', c₄, hread, hexecution⟩ := hexecution.of_bind
    obtain ⟨hsame, hpure⟩ := hexecution.of_ensure_bind
    obtain ⟨rfl, rfl⟩ := hpure.of_pure
    rw [hread.of_read.2]
    refine ⟨.refl p _, fun r hr ↦ ?_⟩
    rw [Option.mem_def.1 hr, hmine hok] at hsame
    simpa using hsame
  | requestEscalation requestJson =>
    obtain ⟨id, c₁, hrequest, hpure⟩ := h.of_bind
    obtain ⟨rfl, rfl⟩ := hpure.of_pure
    obtain ⟨s, c₂, hauthenticate, h₂⟩ := hrequest.of_bind
    obtain ⟨rfl, hstore⟩ := authenticate_runs hauthenticate hstored
    obtain ⟨_, hok, hgate⟩ := h₂.of_ofExcept_bind
    have hspares : Spares p c₂.store c₁.store :=
      ((pendingGate_sidesteps _ _ _).of_runs hgate).spares
    obtain ⟨project, c₄, hproject', h₄⟩ := hgate.of_bind
    obtain ⟨hproject', rfl⟩ := hproject'.of_ofExcept
    obtain ⟨execution, hscoped, h₅⟩ := h₄.of_ofExcept_bind
    obtain ⟨earlier, c₆, hread, h₆⟩ := h₅.of_bind
    obtain ⟨_, rfl, hwrite⟩ := h₆.of_bind_pure
    rw [hproject] at hproject'
    cases hproject'
    have hsome : grant.scope.executionId = some execution := by
      split at hscoped
      · rename_i e he
        rw [he, Except.ok.inj hscoped]
      · cases hscoped
    have howned : OwnedBy p execution c₂.store := by
      rw [hstore]
      exact hin (require_ok hok).1 execution hsome
    have hrow := hwrite.of_write
    split at hrow
    · obtain ⟨T, hT, hstore'⟩ := Option.map_eq_some_iff.1 hrow
      have hmem := (Table.mem_insert hT).2 (.inr rfl)
      rw [← hstore]
      refine ⟨hspares, _, by rw [← hstore']; exact hmem, rfl, rfl, hspares.ownedBy howned⟩
    · cases hrow
  | cancel execution project =>
    obtain ⟨s, hscope, h₁⟩ := h.of_ofExcept_bind
    obtain rfl := hauthenticated s hscope
    obtain ⟨_, rfl, hcancel⟩ := h₁.of_bind_pure
    obtain ⟨_, hok, hcancel⟩ := hcancel.of_ofExcept_bind
    obtain ⟨pid, c₄, hread, hcancel⟩ := hcancel.of_bind
    obtain ⟨changed, -, hfinish⟩ := hcancel.of_bind_pure
    have howned : OwnedBy p execution c₄.store := by
      rw [hread.of_read.2]
      exact hin hok
    rw [← hread.of_read.2]
    exact ⟨(finish_confines _ _ _).of_runs hfinish howned, trivial⟩
  | agentView =>
    obtain ⟨view, rfl, hview⟩ := h.of_bind_pure
    obtain ⟨s, c₂, hauthenticate, h₂⟩ := hview.of_bind
    obtain ⟨rfl, hstore⟩ := authenticate_runs hauthenticate hstored
    obtain ⟨_, -, h₃⟩ := h₂.of_ofExcept_bind
    obtain ⟨_, -, h₄⟩ := h₃.of_ofExcept_bind
    obtain ⟨project, c₅, hproject', h₅⟩ := h₄.of_bind
    obtain ⟨hproject', rfl⟩ := hproject'.of_ofExcept
    obtain ⟨execution, -, h₆⟩ := h₅.of_ofExcept_bind
    obtain ⟨attempt, -, h₇⟩ := h₆.of_ofExcept_bind
    obtain ⟨worker, -, h₈⟩ := h₇.of_ofExcept_bind
    obtain ⟨found, c₉, hread, h₉⟩ := h₈.of_bind
    obtain ⟨record, c₁₀, hrecord, h₁₀⟩ := h₉.of_bind
    obtain ⟨hrecord, rfl⟩ := hrecord.of_ofExcept
    obtain ⟨hassigned, h₁₁⟩ := h₁₀.of_ensure_bind
    obtain ⟨warrant, c₁₂, hread', h₁₂⟩ := h₁₁.of_bind
    obtain ⟨reservations, c₁₃, hread'', hpure⟩ := h₁₂.of_bind
    obtain ⟨rfl, rfl⟩ := hpure.of_pure
    have hsame : c₁₃.store = c₂.store := by
      rw [hread''.of_read.2, hread'.of_read.2, hread.of_read.2]
    rw [hproject] at hproject'
    cases hproject'
    rw [hsame, hstore]
    refine ⟨.refl p _, rfl, ownedBy_iff.2 fun e he ↦ ?_⟩
    rw [hread.of_read.1, hstore, he] at hrecord
    cases hrecord
    exact hassigned.1
  | reportProgress payload =>
    obtain ⟨cursor, rfl, hreport⟩ := h.of_bind_pure
    exact reportAgentEvent_runs hreport hstored hin
  | submitEvidence payload =>
    obtain ⟨cursor, rfl, hreport⟩ := h.of_bind_pure
    exact reportAgentEvent_runs hreport hstored hin
  | operatorQuery query =>
    obtain ⟨e, hfails⟩ := operator_refused (c := c) .observe
      (f := fun dispatcher ↦ dispatcher.query query >>= fun reply ↦ pure (ControlResponse.operator reply))
      hauthenticated hin
    exact absurd (hfails.symm.trans h) (by simp)
  | operatorMutate mutation =>
    obtain ⟨e, hfails⟩ := operator_refused (c := c) .control
      (f := fun dispatcher ↦ dispatcher.mutate mutation >>= fun reply ↦ pure (ControlResponse.operator reply))
      hauthenticated hin
    exact absurd (hfails.symm.trans h) (by simp)
  | operatorObserve after limit =>
    obtain ⟨s, -, h₁⟩ := h.of_ofExcept_bind
    obtain ⟨_, -, h₂⟩ := h₁.of_ofExcept_bind
    obtain ⟨dispatcher, -, hpure⟩ := h₂.of_ofExcept_bind
    obtain ⟨rfl, rfl⟩ := hpure.of_pure
    exact ⟨.refl p _, trivial⟩

theorem registerProject_atomic (projectId root : String) (priority : ℤ) (ceiling : ℕ) :
    (registerProject projectId root priority ceiling).Atomic := by
  show (onProjects _).Atomic
  exact .changePart

theorem authenticate_readOnly (credential : String) :
    (service.authenticate now credential).ReadOnly :=
  .bind .read fun _ ↦ .ofExcept

theorem reportAgentEvent_atomic {credential kind payload : String} :
    (service.reportAgentEvent now credential authority kind payload).Atomic := by
  refine .bind (authenticate_readOnly _) fun _ ↦
    .bind .ofExcept fun _ ↦
      .bind .ofExcept fun _ ↦ ?_
  exact .bind .ensure fun _ ↦
    .bind .ensure fun _ ↦
      .bind .read fun _ ↦ .change

theorem requestEscalation_atomic {credential requestJson : String} :
    (service.requestEscalation now credential requestJson).Atomic := by
  refine .bind (authenticate_readOnly _) fun _ ↦
    .bind .ofExcept fun _ ↦ ?_
  refine .bind .ofExcept fun _ ↦
    .bind .ofExcept fun _ ↦
      .bind .read fun earlier ↦ ?_
  exact .bind_pure .write

theorem agentView_readOnly : (service.agentView now credential).ReadOnly := by
  refine (authenticate_readOnly _).bind fun scope ↦ ?_
  refine .bind .ofExcept fun _ ↦ .bind .ofExcept fun _ ↦ ?_
  refine .bind .ofExcept fun project ↦ .bind .ofExcept fun execution ↦ ?_
  refine .bind .ofExcept fun attempt ↦ .bind .ofExcept fun worker ↦ ?_
  refine .bind .read fun found ↦ .bind .ofExcept fun record ↦ ?_
  refine .bind .ensure fun _ ↦ ?_
  exact .bind .read fun _ ↦ .bind .read fun _ ↦ .pure

theorem setProjectState_atomic {projectId state : String} :
    (ControlPlaneService.setProjectState scope projectId state).Atomic := by
  refine .bind .ofExcept fun _ ↦
    .bind .ofExcept fun _ ↦ ?_
  exact .bind_pure .changePart

theorem execution_readOnly {execution project : String} :
    (ControlPlaneService.execution scope execution project).ReadOnly := by
  refine .bind .ofExcept fun _ ↦ .bind .read fun result ↦ ?_
  exact .bind .ensure fun _ ↦ .pure

def ControlRequest.dispatched : ControlRequest Q M → Bool
  | .operatorQuery _ | .operatorMutate _ => true
  | _ => false

theorem handle_atomic (hrequest : request.dispatched = false) :
    (handle service operator now authenticated credential request).Atomic := by
  cases request with
  | hello => exact .fail
  | health => exact Query.ReadOnly.pure.atomic
  | registerProject projectId root priority ceiling =>
    refine .bind .ofExcept fun _ ↦
      .bind .ofExcept fun _ ↦ .bind_pure ?_
    exact registerProject_atomic _ _ _ _
  | setProjectState projectId state =>
    refine .bind .ofExcept fun _ ↦ ?_
    exact .bind_pure setProjectState_atomic
  | submit submission =>
    refine .bind .ofExcept fun _ ↦ .bind_pure ?_
    exact .bind .ofExcept fun _ ↦ .transaction
  | observe execution project after limit =>
    refine (Query.ReadOnly.ofExcept.bind fun _ ↦ Query.ReadOnly.bind ?_ fun _ ↦
      .pure).atomic
    exact Query.ReadOnly.ofExcept.bind fun _ ↦ Query.ReadOnly.read
  | execution execution project =>
    exact (Query.ReadOnly.ofExcept.bind fun _ ↦ execution_readOnly.bind fun _ ↦
      .pure).atomic
  | requestEscalation requestJson => exact .bind_pure requestEscalation_atomic
  | cancel execution project =>
    refine .bind .ofExcept fun _ ↦ ?_
    exact .bind_pure cancel_atomic
  | agentView => exact (agentView_readOnly.bind fun _ ↦ .pure).atomic
  | reportProgress payload => exact .bind_pure reportAgentEvent_atomic
  | submitEvidence payload => exact .bind_pure reportAgentEvent_atomic
  | operatorQuery query => cases hrequest
  | operatorMutate mutation => cases hrequest
  | operatorObserve after limit =>
    refine (Query.ReadOnly.ofExcept.bind fun _ ↦ Query.ReadOnly.ofExcept.bind fun _ ↦
      .bind .ofExcept fun _ ↦ ?_).atomic
    exact Query.ReadOnly.pure

theorem handle_fails {e : FamiliarError}
    (hauthenticated : ∀ s, authenticated = .ok s → s = grant.scope)
    (hin : InScope operator p grant.scope c.store request)
    (h : (handle service operator now authenticated grant.credential request).Fails c e c') :
    c'.store = c.store := by
  rcases hrequest : request.dispatched with _ | _
  · exact handle_atomic hrequest c e c' h
  -- the dispatcher is not reached
  cases request with
  | operatorQuery query =>
    obtain ⟨e', hfails⟩ := operator_refused (c := c) .observe
      (f := fun dispatcher ↦ dispatcher.query query >>= fun reply ↦
        pure (ControlResponse.operator reply)) hauthenticated hin
    exact congrArg Connection.store (Prod.mk.inj (hfails.symm.trans h)).2.symm
  | operatorMutate mutation =>
    obtain ⟨e', hfails⟩ := operator_refused (c := c) .control
      (f := fun dispatcher ↦ dispatcher.mutate mutation >>= fun reply ↦
        pure (ControlResponse.operator reply)) hauthenticated hin
    exact congrArg Connection.store (Prod.mk.inj (hfails.symm.trans h)).2.symm
  | _ => cases hrequest

end FamiliarAi
