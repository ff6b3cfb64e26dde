import FamiliarAi.Reservation.Run

/-!
# What a failed ledger operation leaves behind

Almost every ledger operation is one transaction, so a failure at any of its statements leaves every
table as it was; so does an acquisition that is refused. Two operations are more than one
transaction, by design:

* `recover` commits the observation about the owner before it returns anything, since a reservation
  is released only on durable evidence. If the second transaction fails, the observation stays.
* `expireDue` expires each due reservation by itself. If one fails, the ones before it stay expired.
-/

namespace FamiliarAi

open Relational Relation

variable {L : Ledger} {c c' : Connection Ledger FamiliarError} {e : FamiliarError}
  {evidence : OwnerLivenessEvidence} {id : String}

/-- The row that `recover` records. -/
def OwnerLivenessEvidence.row (evidence : OwnerLivenessEvidence) (id : String) : LivenessRow :=
  ⟨id, evidence.ownerInstanceId, evidence.nonceOrGeneration, evidence.resolution,
    evidence.provenance, evidence.observedAt⟩

/-- The event that `recover` records with it. -/
def OwnerLivenessEvidence.event (evidence : OwnerLivenessEvidence) (id : String) : EventRow :=
  ⟨id, "liveness-observed", evidence.provenance, evidence.resolution.asStr⟩

/-- The evidence is about the exact owner instance of the reservation. -/
def Ledger.Identifies (L : Ledger) (id : String) (evidence : OwnerLivenessEvidence) : Prop :=
  ∃ row, L.reservation id = some row ∧ row.owner.ownerInstanceId = evidence.ownerInstanceId ∧
    row.owner.nonceOrGeneration = evidence.nonceOrGeneration

/-- The reservations were expired completely, one after another, and nothing else happened. -/
def Ledger.ExpiresAll : List String → Ledger → Ledger → Prop
  | [], L, L' => L' = L
  | id :: ids, L, L' => ∃ c c', c.store = L ∧ (expireOne id).Runs c () c' ∧ ExpiresAll ids c'.store L'

theorem acquire_atomic (random : Option String) (owner : ReservationOwnerIdentity)
    (requests : List ResourceRequest) (mode : GrantMode) (expiresAt : Option String) :
    (acquire random owner requests mode expiresAt).Atomic :=
  .bind .ofExcept fun _ ↦
    .bind .ofExcept fun _ ↦ .transactionWith

theorem acquire_refused {random : Option String} {owner : ReservationOwnerIdentity}
    {requests unavailable : List ResourceRequest} {mode : GrantMode} {expiresAt : Option String}
    (h : (acquire random owner requests mode expiresAt).Runs c (.refused unavailable) c') :
    c'.store = c.store := by
  obtain ⟨_, c₁, howner, h₁⟩ := h.of_bind
  obtain ⟨_, c₂, hrequests, h₂⟩ := h₁.of_bind
  obtain ⟨-, rfl⟩ := howner.of_ofExcept
  obtain ⟨-, rfl⟩ := hrequests.of_ofExcept
  rcases h₂.of_transactionWith with ⟨c₃, c₄, hstore, hbody, -⟩ | ⟨c₃, c₄, -, -, hstore⟩
  · -- the body only asks for a commit with a grant
    obtain ⟨⟨unavailable', grants⟩, c₅, hassess, hbody⟩ := hbody.of_bind
    dsimp only at hbody
    split at hbody
    · cases (Query.runs_pure.1 hbody).1
    · obtain ⟨_, _, -, hbody⟩ := hbody.of_bind
      obtain ⟨_, _, -, hbody⟩ := hbody.of_bind
      obtain ⟨_, _, -, hbody⟩ := hbody.of_bind
      obtain ⟨_, _, -, hbody⟩ := hbody.of_bind
      obtain ⟨_, _, -, hbody⟩ := hbody.of_bind
      cases (Query.runs_pure.1 hbody).1
  · exact hstore

theorem observeLiveness_runs {u : Unit} (h : (observeLiveness id evidence).Runs c u c') :
    c.store.Identifies id evidence ∧
      c'.store = { c.store with
        evidence := c.store.evidence ++ [evidence.row id]
        events := c.store.events ++ [evidence.event id] } := by
  obtain ⟨c₁, c₂, hstore, hbody, hstore'⟩ := h.of_transaction
  obtain ⟨row, c₃, hrow, h₁⟩ := hbody.of_bind
  obtain ⟨hrow, hstore₃⟩ := hrow.of_read
  split at h₁
  · exact absurd h₁ Query.not_runs_fail
  · rename_i row _
    obtain ⟨howner, h₂⟩ := h₁.of_ensure_bind
    obtain ⟨_, c₅, hwrite, hevent⟩ := h₂.of_bind
    refine ⟨⟨row, by rw [← hstore, ← hrow], howner⟩, ?_⟩
    rw [hstore', event_runs hevent, ← Option.some.inj hwrite.of_write, hstore₃, hstore]
    rfl

theorem recover_fails (h : (recover id evidence).Fails c e c') :
    c'.store = c.store ∨ evidence.resolution = .provablyDead ∧ c.store.Identifies id evidence ∧
      c'.store = { c.store with
        evidence := c.store.evidence ++ [evidence.row id]
        events := c.store.events ++ [evidence.event id] } := by
  rcases Query.fails_bind h with h | ⟨_, c₁, hobserve, h⟩
  · exact .inl (Query.Atomic.transaction _ _ _ h)
  · split at h
    · rename_i hdead
      obtain ⟨hidentifies, hstore⟩ := observeLiveness_runs hobserve
      have hresolve := Query.Atomic.bind_pure (g := fun _ ↦ true) (Query.Atomic.transaction) _ _ _ h
      exact .inr ⟨hdead, hidentifies, hresolve.trans hstore⟩
    · cases h

theorem forEach_expireOne_fails {ids : List String} (h : (Query.forEach ids expireOne).Fails c e c')
    :
    ∃ done rest, ids = done ++ rest ∧ Ledger.ExpiresAll done c.store c'.store := by
  induction ids generalizing c with
  | nil => cases h
  | cons id ids ih =>
    rcases Query.fails_bind h with h | ⟨_, c₁, hid, h⟩
    · exact ⟨[], id :: ids, rfl, Query.Atomic.transaction _ _ _ h⟩
    · obtain ⟨done, rest, rfl, hdone⟩ := ih h
      exact ⟨id :: done, rest, rfl, c, c₁, rfl, hid, hdone⟩

theorem expireDue_fails {now : String} (h : (expireDue now).Fails c e c') :
    ∃ done rest, c.store.dueIds now = done ++ rest ∧ Ledger.ExpiresAll done c.store c'.store := by
  rcases Query.fails_bind h with h | ⟨ids, c₁, hids, h⟩
  · exact ⟨[], _, rfl, Query.ReadOnly.read.atomic _ _ _ h⟩
  · obtain ⟨rfl, hstore⟩ := hids.of_read
    rcases Query.fails_bind h with h | ⟨_, c₂, -, h⟩
    · obtain ⟨done, rest, hids, hdone⟩ := forEach_expireOne_fails h
      exact ⟨done, rest, hids, hstore ▸ hdone⟩
    · cases h

/-- What a failed call may have left behind. -/
def LedgerCall.Leftover (L L' : Ledger) : LedgerCall → Prop
  | .recover id evidence =>
    L' = L ∨ evidence.resolution = .provablyDead ∧ L.Identifies id evidence ∧
      L' = { L with
        evidence := L.evidence ++ [evidence.row id], events := L.events ++ [evidence.event id] }
  | .expireDue now => ∃ done rest, L.dueIds now = done ++ rest ∧ Ledger.ExpiresAll done L L'
  | _ => L' = L

/-- **A failed or refused call leaves nothing behind**, at whatever statement it fails, except what
`recover` and `expireDue` commit before they are done. -/
theorem LedgerCall.fails_leftover (call : LedgerCall) (c c' : Connection Ledger FamiliarError) :
    (∀ unavailable, call.query.Runs c (.acquired (.refused unavailable)) c' → c'.store = c.store) ∧
    ∀ e, call.query.Fails c e c' → call.Leftover c.store c'.store := by
  refine ⟨fun unavailable h ↦ ?_, fun e h ↦ ?_⟩
  · cases call with
    | acquire random owner requests mode expiresAt =>
      obtain ⟨outcome, c₁, hacquire, hpure⟩ := h.of_bind
      obtain ⟨hanswer, rfl⟩ := hpure.of_pure
      obtain rfl := LedgerAnswer.acquired.inj hanswer
      exact acquire_refused hacquire
    | definePool | settle | commit | release | expireDue | renew | recover =>
      obtain ⟨_, _, -, hpure⟩ := h.of_bind
      cases (Query.runs_pure.1 hpure).1
  · cases call with
    | definePool poolId resourceType capacity renewable =>
      exact Query.Atomic.bind_pure (g := fun _ ↦ LedgerAnswer.done)
        (.bind .ofExcept fun _ ↦ .write) _ _ _ h
    | acquire random owner requests mode expiresAt =>
      exact Query.Atomic.bind_pure (acquire_atomic random owner requests mode expiresAt) _ _ _ h
    | settle id observation actor =>
      exact Query.Atomic.bind_pure Query.Atomic.transaction _ _ _ h
    | commit id observed actor =>
      exact Query.Atomic.bind_pure Query.Atomic.transaction _ _ _ h
    | release id actor =>
      exact Query.Atomic.bind_pure (g := fun _ ↦ LedgerAnswer.done) Query.Atomic.transaction _ _ _ h
    | renew id newExpiry actor justification =>
      exact Query.Atomic.bind_pure (g := fun _ ↦ LedgerAnswer.done) Query.Atomic.transaction _ _ _ h
    | expireDue now =>
      rcases Query.fails_bind h with h | ⟨ids, c₁, -, h⟩
      · exact expireDue_fails h
      · cases h
    | recover id evidence =>
      rcases Query.fails_bind h with h | ⟨ids, c₁, -, h⟩
      · exact recover_fails h
      · cases h

/-- A pool is defined, and a reservation is taken out of it and released. -/
def releasedCalls : List (LedgerCall × List (Option FamiliarError)) :=
  [(.definePool "session" .totalTokens 10 true, []),
    (.acquire (some "00") ⟨"owner-1", none, "nonce-1", "drive-component", "project-1", "execution-1",
      "component-1"⟩ [⟨"session", .totalTokens, 4⟩] .allOrNothing none, []),
    (.release "res_00" "operator", [])]

/-- The owner of the released reservation is found dead. -/
def lateRecovery : LedgerCall :=
  .recover "res_00" ⟨"owner-1", "nonce-1", .provablyDead, "process-table", "now"⟩

theorem recover_leaves_evidence :
    ¬∀ L : Ledger, L.Reachable → ∀ (call : LedgerCall) (faults : List (Option FamiliarError)) (e c'),
      call.query.Fails ⟨L, faults⟩ e c' → c'.store = L := by
  intro h
  have hfails : (lateRecovery.query.run ⟨Ledger.run .empty releasedCalls, []⟩).1 =
      .error (.database "reservation is already terminal") := by decide +kernel
  have hevidence : (lateRecovery.query.run ⟨Ledger.run .empty releasedCalls, []⟩).2.store ≠
      Ledger.run .empty releasedCalls := by decide +kernel
  exact hevidence (h _ ⟨releasedCalls, rfl⟩ lateRecovery [] _ _ (Prod.ext hfails rfl))

end FamiliarAi
