import FamiliarAi.ControlPlane.Confinement

/-!
# Runs of a client

A client starts with one session of a project and does what it likes with it: it opens and closes
connections, sends requests over them in any order, and has sessions minted from sessions it has. As
long as every step is in scope, no other project's part of the store changes, no answer tells of
another project, and no session it comes to hold can do more than the first one.
-/

namespace FamiliarAi

open Relational ControlStore List

variable {Q M R : Type} {service : ControlPlaneService}
  {operator : Option (OperatorDispatcher Q M R)} {S S' : ControlStore}
  {c c' : Connection ControlStore FamiliarError} {p id : String} {client : Client R}
  {issuer scope : CapabilityScope} {credential expiresAt : String} {grant : CapabilityGrant} {n : ℕ}

theorem ControlStore.Spares.foregroundOwned (h : Spares p S S') (howned : ForegroundOwned p id S) :
    ForegroundOwned p id S' := by
  intro e he hmode
  by_contra hne
  exact hne (howned e (h.mem_of_foreign he hne) hmode)

theorem endForeground_spares (id : String) :
    (ControlPlaneService.endForeground id).Respects
      fun S S' ↦ ForegroundOwned p id S → Spares p S S' := by
  have : Std.Refl fun S S' ↦ ForegroundOwned p id S → Spares p S S' := ⟨fun S _ ↦ .refl p S⟩
  refine .of_atomic (endForeground_atomic id) fun c a c' h howned ↦ ?_
  obtain ⟨record, c₁, hread, h₁⟩ := h.of_bind
  obtain ⟨hrecord, hstore⟩ := hread.of_read
  rw [← hstore]
  split at h₁
  · rename_i hforeground
    obtain ⟨pid, c₂, hpid, h₂⟩ := h₁.of_bind
    obtain ⟨changed, -, hfinish⟩ := h₂.of_bind_pure
    rw [← hpid.of_read.2]
    refine (finish_confines _ _ _).of_runs hfinish (ownedBy_iff.2 fun e he ↦ ?_)
    rw [hpid.of_read.2, hstore] at he
    rw [hrecord, he] at hforeground
    exact howned e he (of_decide_eq_true hforeground)
  · obtain ⟨-, rfl⟩ := h₁.of_pure
    exact .refl p _

theorem endConnection_spares {connection : ClientConnection}
    (howned : ∀ id ∈ connection.foreground, ForegroundOwned p id c.store) :
    Spares p c.store ((endConnection connection).run c).2.store := by
  obtain ⟨grant, scope, ids⟩ := connection
  induction ids generalizing c with
  | nil => exact .refl p _
  | cons id ids ih =>
    have hone := endForeground_spares id c (howned id mem_cons_self)
    exact hone.trans (ih fun id' hid' ↦
      hone.foregroundOwned (howned id' (mem_cons_of_mem _ hid')))

theorem mintSession_atomic :
    (service.mintSession issuer scope credential expiresAt).Atomic := by
  refine .bind .ensure fun _ ↦
    .bind .ensure fun _ ↦ ?_
  exact .bind_pure .write

theorem mintSession_runs
    (h : (service.mintSession issuer scope credential expiresAt).Runs c grant c')
    (hp : scope.projectId = some p) :
    Spares p c.store c'.store ∧ Stored service.host grant c'.store ∧ grant.scope = scope := by
  obtain ⟨-, h₁⟩ := h.of_ensure_bind
  obtain ⟨-, h₂⟩ := h₁.of_ensure_bind
  obtain ⟨_, rfl, hstore⟩ := h₂.of_bind_pure
  obtain ⟨hspares, hstored⟩ := storeSession_spares hstore hp
  exact ⟨hspares, hstored, rfl⟩

theorem mintSession_issuer
    (h : (service.mintSession issuer scope credential expiresAt).Runs c grant c') :
    issuer.clientClass = .internal ∨ .control ∈ issuer.authorities := by
  obtain ⟨_, c₁, hcontrol, -⟩ := h.of_bind
  exact (Query.runs_ensure.1 hcontrol).1

theorem CapabilityScope.Within.refl (scope : CapabilityScope) : scope.Within scope :=
  ⟨fun _ h ↦ h, fun _ h ↦ h⟩

theorem CapabilityScope.Within.trans {s s' s'' : CapabilityScope} (h : s.Within s')
    (h' : s'.Within s'') : s.Within s'' :=
  ⟨fun a ha ↦ h'.1 a (h.1 a ha), fun p hp ↦ h.2 p (h'.2 p hp)⟩

/-! ### Steps -/

def StepInScope (operator : Option (OperatorDispatcher Q M R)) (p : String) (client : Client R) :
    ClientStep Q M → Prop
  | .connect _ _ => True
  | .request n _ request =>
    ∀ k ∈ client.connections[n]?, InScope operator p k.grant.scope client.store request
  | .disconnect n =>
    ∀ k ∈ client.connections[n]?, ∀ id ∈ k.foreground, ForegroundOwned p id client.store
  | .mint issuer scope _ _ => MintInScope issuer.scope scope

instance : ∀ step : ClientStep Q M, Decidable (StepInScope operator p client step)
  | .connect _ _ => inferInstanceAs (Decidable True)
  | .request _ _ _ => inferInstanceAs (Decidable (∀ k ∈ _, _))
  | .disconnect _ => inferInstanceAs (Decidable (∀ k ∈ _, ∀ id ∈ _, _))
  | .mint issuer scope _ _ => inferInstanceAs (Decidable (MintInScope issuer.scope scope))

def RunInScope (service : ControlPlaneService) (operator : Option (OperatorDispatcher Q M R))
    (p : String) (client : Client R) :
    List (ClientStep Q M × List (Option FamiliarError)) → Prop
  | [] => True
  | step :: steps => StepInScope operator p client step.1 ∧
      RunInScope service operator p (client.step service operator step) steps

instance decidableRunInScope : ∀ (client : Client R)
    (steps : List (ClientStep Q M × List (Option FamiliarError))),
    Decidable (RunInScope service operator p client steps)
  | _, [] => inferInstanceAs (Decidable True)
  | client, step :: steps =>
    have := decidableRunInScope (client.step service operator step) steps
    inferInstanceAs (Decidable (_ ∧ _))

/-- **The invariant of a confined client**, which started with `first` on the store `S`. -/
structure Confined (host : Host) (p : String) (first : CapabilityScope) (S : ControlStore)
    (client : Client R) : Prop where
  store : Spares p S client.store
  grants : ∀ g ∈ client.grants,
    g.scope.projectId = some p ∧ g.scope.Within first ∧ Stored host g client.store
  /-- Every connection was opened with a session held, and authenticated as that. -/
  connections : ∀ k ∈ client.connections,
    k.grant ∈ client.grants ∧ ∀ s, k.scope = .ok s → s = k.grant.scope
  /-- Every answer was about the project. -/
  answers : ∀ a ∈ client.answers, a.1.Within p a.2

variable {first : CapabilityScope}

theorem Confined.connect (h : Confined service.host p first S client) (now : String)
    (grant : CapabilityGrant) (faults : List (Option FamiliarError)) :
    Confined service.host p first S
      (client.step service operator (ClientStep.connect (Q := Q) (M := M) now grant, faults)) := by
  simp only [Client.step]
  split
  · rename_i hgrant
    refine ⟨h.store, h.grants, fun k hk ↦ ?_, h.answers⟩
    rcases mem_append.1 hk with hk | hk
    · exact h.connections k hk
    · obtain rfl := mem_singleton.1 hk
      refine ⟨hgrant, fun s hs ↦ ?_⟩
      exact (authenticate_runs (Prod.ext hs rfl) (h.grants grant hgrant).2.2).1
  · exact h

theorem Confined.request (h : Confined service.host p first S client) {now : String}
    {request : ControlRequest Q M} (faults : List (Option FamiliarError))
    (hin : StepInScope operator p client (.request n now request)) :
    Confined service.host p first S
      (client.step service operator (.request n now request, faults)) := by
  simp only [Client.step]
  split
  · rename_i k hk
    obtain ⟨hgrant, hauthenticated⟩ := h.connections k (mem_of_getElem? hk)
    obtain ⟨hproject, hwithin, hstored⟩ := h.grants k.grant hgrant
    have hnote : (k.note request).grant = k.grant ∧ (k.note request).scope = k.scope := by
      unfold ClientConnection.note
      split
      · split
        · exact ⟨rfl, rfl⟩
        · exact ⟨rfl, rfl⟩
      · exact ⟨rfl, rfl⟩
    have hconnections : ∀ k' ∈ client.connections.set n (k.note request),
        k'.grant ∈ client.grants ∧ ∀ s, k'.scope = .ok s → s = k'.grant.scope := by
      intro k' hk'
      rcases mem_or_eq_of_mem_set hk' with hk' | rfl
      · exact h.connections k' hk'
      · rw [hnote.1, hnote.2]
        exact ⟨hgrant, hauthenticated⟩
    have hanswered : ∀ {r : Except FamiliarError (ControlResponse R)} {S₁ : ControlStore},
        Spares p client.store S₁ → (ControlResponse.ofExcept r).Within p S₁ →
        Confined service.host p first S
          { client with
            store := S₁
            connections := client.connections.set n (k.note request)
            answers := client.answers ++ [(.ofExcept r, S₁)] } := by
      intro r S₁ hspares hresponse
      refine ⟨h.store.trans hspares, fun g hg ↦ ?_, hconnections, fun a ha ↦ ?_⟩
      · obtain ⟨hp, hw, hs⟩ := h.grants g hg
        exact ⟨hp, hw, hspares.stored hs⟩
      · rcases mem_append.1 ha with ha | ha
        · exact h.answers a ha
        · obtain rfl := mem_singleton.1 ha
          exact hresponse
    cases hrun : (handle service operator now k.scope k.grant.credential request).run
        ⟨client.store, faults⟩ with
    | mk r c' =>
      rcases r with e | response
      · have hstore := handle_fails hauthenticated (hin k hk) hrun
        exact hanswered (r := .error e) (hstore ▸ .refl p _) trivial
      obtain ⟨hspares, hresponse⟩ :=
        handle_runs hproject hauthenticated hstored (hin k hk) hrun
      exact hanswered (r := .ok response) hspares hresponse
  · exact h

theorem Confined.disconnect (h : Confined service.host p first S client)
    (faults : List (Option FamiliarError))
    (hin : StepInScope (Q := Q) (M := M) operator p client (.disconnect n)) :
    Confined service.host p first S
      (client.step service operator (ClientStep.disconnect (Q := Q) (M := M) n, faults)) := by
  simp only [Client.step]
  split
  · rename_i k hk
    have hspares := endConnection_spares (c := ⟨client.store, faults⟩) (hin k hk)
    refine ⟨h.store.trans hspares, fun g hg ↦ ?_, fun k' hk' ↦ ?_, h.answers⟩
    · obtain ⟨hp, hw, hs⟩ := h.grants g hg
      exact ⟨hp, hw, hspares.stored hs⟩
    · exact h.connections k' (mem_of_mem_eraseIdx hk')
  · exact h

theorem Confined.mint (h : Confined service.host p first S client) {issuer : CapabilityGrant}
    {scope : CapabilityScope} (credential expiresAt : String) (faults : List (Option FamiliarError))
    (hin : MintInScope issuer.scope scope) :
    Confined service.host p first S (client.step service operator
      (ClientStep.mint (Q := Q) (M := M) issuer scope credential expiresAt, faults)) := by
  simp only [Client.step]
  split
  · rename_i hissuer
    obtain ⟨hproject, hwithin, -⟩ := h.grants issuer hissuer
    split
    · rename_i grant c' hrun
      have hscope := hin (mintSession_issuer hrun)
      obtain ⟨hspares, hstored, hsame⟩ := mintSession_runs hrun (hscope.2 p hproject)
      refine ⟨h.store.trans hspares, fun g hg ↦ ?_, fun k hk ↦ ?_, h.answers⟩
      · rcases mem_append.1 hg with hg | hg
        · obtain ⟨hp, hw, hs⟩ := h.grants g hg
          exact ⟨hp, hw, hspares.stored hs⟩
        · obtain rfl := mem_singleton.1 hg
          rw [hsame]
          exact ⟨hscope.2 p hproject, hscope.trans hwithin, hstored⟩
      · obtain ⟨hk, hauthenticated⟩ := h.connections k hk
        exact ⟨mem_append_left _ hk, hauthenticated⟩
    · rename_i e c' hrun
      have hstore : c'.store = client.store := mintSession_atomic _ _ _ hrun
      rw [hstore]
      exact h
  · exact h

theorem Confined.step (h : Confined service.host p first S client)
    (step : ClientStep Q M × List (Option FamiliarError))
    (hin : StepInScope operator p client step.1) :
    Confined service.host p first S (client.step service operator step) := by
  obtain ⟨step, faults⟩ := step
  cases step with
  | connect now grant => exact h.connect now grant faults
  | request n now request => exact h.request faults hin
  | disconnect n => exact h.disconnect faults hin
  | mint issuer scope credential expiresAt => exact h.mint credential expiresAt faults hin

theorem Confined.run (h : Confined service.host p first S client)
    (steps : List (ClientStep Q M × List (Option FamiliarError)))
    (hin : RunInScope service operator p client steps) :
    Confined service.host p first S (client.run service operator steps) := by
  induction steps generalizing client with
  | nil => exact h
  | cons step steps ih => exact ih (h.step step hin.1) hin.2

/-- **Runs in scope are isolated.** A client that starts with one session of a project, and whose
steps are all in scope, changes no other project's part of the store, is told of no other project,
and holds no session that can do more than the first. -/
theorem run_isolated (service : ControlPlaneService) (operator : Option (OperatorDispatcher Q M R))
    (p : String) (S : ControlStore) (grant : CapabilityGrant)
    (steps : List (ClientStep Q M × List (Option FamiliarError)))
    (hproject : grant.scope.projectId = some p) (hstored : Stored service.host grant S)
    (hin : RunInScope service operator p (⟨S, [grant], [], []⟩ : Client R) steps) :
    let client := (⟨S, [grant], [], []⟩ : Client R).run service operator steps
    (∀ q, q ≠ p → client.store.partOf q = S.partOf q) ∧
      (∀ a ∈ client.answers, a.1.Within p a.2) ∧
      ∀ g ∈ client.grants, g.scope.projectId = some p ∧ g.scope.Within grant.scope := by
  intro client
  have hfirst : Confined service.host p grant.scope S (⟨S, [grant], [], []⟩ : Client R) := by
    refine ⟨.refl p S, fun g hg ↦ ?_, fun k hk ↦ ?_, fun a ha ↦ ?_⟩
    · obtain rfl := mem_singleton.1 hg
      exact ⟨hproject, .refl _, hstored⟩
    · cases hk
    · cases ha
  have hlast := hfirst.run steps hin
  exact ⟨hlast.store.others, hlast.answers,
    fun g hg ↦ ⟨(hlast.grants g hg).1, (hlast.grants g hg).2.1⟩⟩

/-- A service whose credentials are stored under their SHA-256 digests. -/
def twoProjectService : ControlPlaneService where
  host :=
    { credentialHash := fun credential ↦
        if credential = "alpha-session" then
          "619486052d844a0f6341aa76c2e054bda907c6ab3fcd451de56ffc59b07c65ce"
        else
          "3e323a7328d01dcea2293b0eca68d32abc7d31de57094fd30ed50a18df216e55"
      isJson := fun text ↦ text = "\x7b\x7d" }

/-- An operator's session of the project `alpha`. -/
def alphaGrant : CapabilityGrant where
  credential := "alpha-session"
  scope := ⟨.operator, some "alpha", none, none, none, [.control, .observe]⟩
  expiresAt := "2030-01-01 00:00:00"

/-- Two projects with one queued execution each, and the session of the first. -/
def twoProjects : ControlStore :=
  ((storeSession "619486052d844a0f6341aa76c2e054bda907c6ab3fcd451de56ffc59b07c65ce"
    alphaGrant.scope alphaGrant.expiresAt).run
      ⟨(initial none).run
        [(.registerProject "alpha" "/alpha" 0 1, []), (.registerProject "beta" "/beta" 0 1, []),
          (.submit "t" ⟨"a1", "alpha", "k1", .detached, 0, "\x7b\x7d"⟩, []),
          (.submit "t" ⟨"b1", "beta", "k2", .detached, 0, "\x7b\x7d"⟩, [])], []⟩).2.store

/-- A client that observes and cancels what is its own, and passes on less than it has. -/
def ownSteps : List (ClientStep Unit Unit × List (Option FamiliarError)) :=
  [(.connect "2026-01-01 00:00:00" alphaGrant, []),
    (.request 0 "2026-01-01 00:00:01" (.observe "a1" "alpha" 0 10), []),
    (.mint alphaGrant ⟨.observer, some "alpha", none, none, none, [.observe]⟩ "child-session"
      "2030-01-01 00:00:00", []),
    (.request 0 "2026-01-01 00:00:02" (.cancel "a1" "alpha"), []),
    (.disconnect 0, [])]

theorem run_isolated_ownSteps :
    let client := (⟨twoProjects, [alphaGrant], [], []⟩ : Client Unit).run twoProjectService none
      ownSteps
    (∀ q, q ≠ "alpha" → client.store.partOf q = twoProjects.partOf q) ∧
      (∀ a ∈ client.answers, a.1.Within "alpha" a.2) ∧
      ∀ g ∈ client.grants, g.scope.projectId = some "alpha" ∧ g.scope.Within alphaGrant.scope :=
  run_isolated twoProjectService none "alpha" twoProjects alphaGrant ownSteps rfl
    (by
      have hmem : (⟨"619486052d844a0f6341aa76c2e054bda907c6ab3fcd451de56ffc59b07c65ce",
          alphaGrant.scope, alphaGrant.expiresAt, none⟩ : SessionRow) ∈
          twoProjects.sessions.rows := by decide +kernel
      exact ⟨_, hmem, rfl, rfl⟩)
    (by decide +kernel)

/-- The same session, out of scope. -/
def foreignSteps : List (ClientStep Unit Unit × List (Option FamiliarError)) :=
  [(.connect "2026-01-01 00:00:00" alphaGrant, []),
    (.request 0 "2026-01-01 00:00:01" (.observe "b1" "alpha" 0 10), []),
    (.request 0 "2026-01-01 00:00:02" (.cancel "b1" "alpha"), []),
    (.request 0 "2026-01-01 00:00:03" (.registerProject "beta" "/elsewhere" 0 (some 1)), []),
    (.mint alphaGrant ⟨.operator, none, none, none, none, [.control, .observe, .readWarrant]⟩
      "child-session" "2030-01-01 00:00:00", [])]

/-- It reads the events of an execution of `beta` and cancels it, moves the project's root, and comes
to hold a session of every project with an authority it did not have. -/
theorem foreignSteps_unconfined :
    let client := (⟨twoProjects, [alphaGrant], [], []⟩ : Client Unit).run twoProjectService none
      foreignSteps
    client.answers.map (·.1) =
        [.events [⟨2, "b1:submitted", "b1", "submitted", .empty⟩], .health "cancelled",
          .health "registered"] ∧
      twoProjects.stateOf "b1" = some .queued ∧ client.store.stateOf "b1" = some .cancelled ∧
      (client.store.project "beta").map (·.rootPath) = some "/elsewhere" ∧
      client.grants.map (·.scope) =
        [alphaGrant.scope, ⟨.operator, none, none, none, none, [.control, .observe, .readWarrant]⟩] :=
  by decide +kernel

end FamiliarAi
