import FamiliarAi.Reservation.Conservation

/-!
# The ledger operations are sequences of moves

Whatever a ledger operation does, at whatever point it fails, takes the ledger through a sequence of
the moves of `FamiliarAi.Reservation.Conservation`. What every move keeps is therefore kept by every
run of operations: the conservation of capacity, and that a reservation which is no longer held stays
in the state it ended in.
-/

namespace FamiliarAi

open Relational Relation

namespace Ledger

variable {L L' : Ledger} {id : String}

/-- Reservations stay, and a reservation that is not held stays in its state. -/
def Advances (L L' : Ledger) : Prop :=
  ∀ id s, L.stateOf id = some s → ∃ s', L'.stateOf id = some s' ∧ (s ≠ .held → s' = s)

theorem Advances.refl (L : Ledger) : Advances L L :=
  fun _ s hs ↦ ⟨s, hs, fun _ ↦ rfl⟩

theorem Advances.trans {L'' : Ledger} (h : Advances L L') (h' : Advances L' L'') :
    Advances L L'' := by
  intro id s hs
  obtain ⟨s', hs', hkeep⟩ := h id s hs
  obtain ⟨s'', hs'', hkeep'⟩ := h' id s' hs'
  refine ⟨s'', hs'', fun hne ↦ ?_⟩
  rw [hkeep' (by rwa [hkeep hne]), hkeep hne]

theorem Moves.advances (h : Moves L L') : Advances L L' := by
  intro id s hs
  cases h with
  | idle h => exact ⟨s, (h.states id).trans hs, fun _ ↦ rfl⟩
  | define h => exact ⟨s, hs, fun _ ↦ rfl⟩
  | openHeld h hheld =>
    obtain ⟨hnone, hstate⟩ := stateOf_insert h
    refine ⟨s, ?_, fun _ ↦ rfl⟩
    rw [hstate, if_neg]
    · exact hs
    · rintro rfl
      rw [hnone] at hs
      cases hs
  | take hheld hpools hcovers hitems => exact ⟨s, hs, fun _ ↦ rfl⟩
  | @resolve _ id' s' h =>
    rw [h.states]
    split
    · rename_i hid
      rw [hid, h.held] at hs
      exact ⟨s', rfl, fun hne ↦ absurd (Option.some.inj hs).symm hne⟩
    · exact ⟨s, hs, fun _ ↦ rfl⟩

theorem advances_of_moves (h : ReflTransGen Moves L L') : Advances L L' := by
  induction h with
  | refl => exact Advances.refl L
  | tail _ hmove ih => exact ih.trans hmove.advances

theorem conserves_of_moves (h : ReflTransGen Moves L L') (hL : L.Conserves) : L'.Conserves := by
  induction h with
  | refl => exact hL
  | tail _ hmove ih => exact hmove.conserves ih

end Ledger

section Bookkeeping

variable {L : Ledger} {id : String} {c c' : Connection Ledger FamiliarError}
  {f : ReservationRow → ReservationRow} {s : ReservationState} {u : Unit} {L' L'' : Ledger}

theorem Ledger.Idles.trans (h : Idles L L') (h' : Idles L' L'') : Idles L L'' where
  pools := h'.pools.trans h.pools
  grants := h'.grants.trans h.grants
  credits := h'.credits.trans h.credits
  states id := (h'.states id).trans (h.states id)

theorem Ledger.idles_log (L : Ledger) (evidence : List LivenessRow) (events : List EventRow) :
    Ledger.Idles L { L with evidence := evidence, events := events } :=
  ⟨rfl, rfl, rfl, fun _ ↦ rfl⟩

theorem idles_of_event {kind actor detail : String} (h : (event id kind actor detail).Runs c u c') :
    Ledger.Idles c.store c'.store := by
  rw [event_runs h]
  exact c.store.idles_log _ _

theorem Ledger.stateOf_update {T : Table reservationSchema}
    (h : L.reservations.update (fun r ↦ r.reservationId = id) f = some T)
    (hid : ∀ r, (f r).reservationId = r.reservationId) (id' : String) :
    ({ L with reservations := T } : Ledger).stateOf id' =
      if id' = id then (L.reservation id).map fun r ↦ (f r).state else L.stateOf id' := by
  have hstate : ({ L with reservations := T } : Ledger).stateOf id' = (L.reservation id').map
      fun r ↦ (if decide (r.reservationId = id) then f r else r).state :=
    Ledger.stateOf_of_map (Table.rows_update h) (fun r ↦ by split <;> simp [hid]) id'
  rw [hstate]
  cases hr : L.reservation id' with
  | none =>
    split
    · rename_i heq
      rw [← heq, hr]
      rfl
    · rw [Ledger.stateOf, hr]
      rfl
  | some r =>
    have hrid := (Ledger.reservation_some hr).2
    split
    · rename_i heq
      rw [← heq, hr]
      simp [hrid]
    · rename_i hne
      rw [Ledger.stateOf, hr]
      simp [hrid, hne]

theorem idles_of_updateReservation (h : (updateReservation id f).Runs c u c')
    (hid : ∀ r, (f r).reservationId = r.reservationId) (hstate : ∀ r, (f r).state = r.state) :
    Ledger.Idles c.store c'.store := by
  obtain ⟨T, hT, hstore⟩ := updateReservation_runs h
  rw [hstore]
  refine ⟨rfl, rfl, rfl, fun id' ↦ ?_⟩
  rw [Ledger.stateOf_update hT hid]
  split
  · rename_i heq
    rw [heq, Ledger.stateOf]
    simp [hstate]
  · rfl

theorem Ledger.Resolves.of_drains {amount : ReservationGrantItem → ℕ}
    (hheld : L.stateOf id = some .held) (hended : s ≠ .held)
    (hamount : ∀ item ∈ L.reservationItems id, s.Returns item.grantedAmount (amount item))
    (hdrains : Drains id ((L.reservationItems id).map fun item ↦ (item.key, amount item)) L c.store)
    (h : (updateReservation id f).Runs c u c') (hid : ∀ r, (f r).reservationId = r.reservationId)
    (hstate : ∀ r, (f r).state = s) : Ledger.Resolves id s L c'.store := by
  obtain ⟨T, hT, hstore⟩ := updateReservation_runs h
  have hsame : ∀ id', c.store.reservation id' = L.reservation id' := by
    intro id'
    unfold Ledger.reservation
    rw [hdrains.reservations]
  refine ⟨hheld, hended, ⟨amount, hamount, c.store, hdrains, ?_, ?_, ?_⟩, fun id' ↦ ?_⟩
  · rw [hstore]
  · rw [hstore]
    rfl
  · rw [hstore]
  · rw [hstore, Ledger.stateOf_update hT hid, hsame]
    split
    · obtain ⟨r, hr, -⟩ := Option.map_eq_some_iff.1 hheld
      rw [hr]
      simp [hstate]
    · rw [Ledger.stateOf, hsame]
      rfl

theorem Ledger.Resolves.idles (h : Resolves id s L L') (h' : Idles L' L'') :
    Resolves id s L L'' := by
  obtain ⟨amount, hamount, L₁, hdrains, hpools, hgrants, hcredits⟩ := h.drains
  exact ⟨h.held, h.ended, ⟨amount, hamount, L₁, hdrains, h'.pools.trans hpools,
    h'.grants.trans hgrants, h'.credits.trans hcredits⟩,
    fun id' ↦ (h'.states id').trans (h.states id')⟩

end Bookkeeping

/-! ### Operations -/

section Operations

variable {c c' : Connection Ledger FamiliarError} {id : String}

theorem definePool_moves (poolId : String) (resourceType : ResourceType) (capacity : ℕ)
    (renewable : Bool) :
    (definePool poolId resourceType capacity renewable).Respects (ReflTransGen Ledger.Moves) := by
  refine .of_atomic (.bind .ofExcept fun _ ↦ .write) fun c u c' h ↦ ?_
  obtain ⟨amount, -, hwrite⟩ := h.of_ofExcept_bind
  obtain ⟨T, hT, hstore⟩ := Option.map_eq_some_iff.1 hwrite.of_write
  rw [← hstore]
  exact ReflTransGen.single (.define hT)

theorem assess_readOnly (mode : GrantMode) (requests : List ResourceRequest) :
    (assess mode requests).ReadOnly := by
  induction requests with
  | nil => exact .pure
  | cons request requests ih =>
    exact .bind .read fun _ ↦ ih.bind fun _ ↦ .pure

/-- The loop of `acquire`: the open reservation takes its grants one by one. -/
theorem moves_of_takeGrants {grants : List ReservationGrantItem} {u : Unit}
    (hheld : c.store.stateOf id = some .held)
    (h : (Query.forEach grants (takeGrant id)).Runs c u c') :
    ReflTransGen Ledger.Moves c.store c'.store := by
  induction grants generalizing c with
  | nil =>
    rw [← Query.runs_forEach_nil.1 h]
  | cons grant grants ih =>
    obtain ⟨c₁, hgrant, hgrants⟩ := Query.runs_forEach_cons.1 h
    obtain ⟨pools, items, hpools, hcovers, hitems, hstore⟩ := takeGrant_runs hgrant
    have hmove : Ledger.Moves c.store c₁.store := by
      rw [hstore]
      exact .take hheld hpools hcovers hitems
    have hheld₁ : c₁.store.stateOf id = some .held := by
      rw [hstore]
      exact hheld
    exact (ReflTransGen.single hmove).trans (ih hheld₁ hgrants)

theorem acquire_moves (random : Option String) (owner : ReservationOwnerIdentity)
    (requests : List ResourceRequest) (mode : GrantMode) (expiresAt : Option String) :
    (acquire random owner requests mode expiresAt).Respects (ReflTransGen Ledger.Moves) := by
  refine (Query.Respects.of_readOnly Query.ReadOnly.ofExcept).bind fun _ ↦
    (Query.Respects.of_readOnly Query.ReadOnly.ofExcept).bind fun _ ↦
      Query.Respects.transactionWith fun c a c' h ↦ ?_
  obtain ⟨⟨unavailable, grants⟩, c₁, hassess, h₁⟩ := h.of_bind
  rw [← (assess_readOnly mode requests).store_eq hassess]
  dsimp only at h₁
  split at h₁
  · cases (Query.runs_pure.1 h₁).1
  · obtain ⟨hex, -, h₂⟩ := h₁.of_ofExcept_bind
    obtain ⟨sequence, c₃, hsequence, h₃⟩ := h₂.of_bind
    obtain ⟨_, c₄, hinsert, h₄⟩ := h₃.of_bind
    obtain ⟨_, c₅, hgrants, h₅⟩ := h₄.of_bind
    obtain ⟨_, -, hevent⟩ := h₅.of_bind_pure
    obtain ⟨T, hT, hstore⟩ := Option.map_eq_some_iff.1 hinsert.of_write
    rw [← hsequence.of_read.2]
    have hopen : Ledger.Moves c₃.store c₄.store := by
      rw [← hstore]
      exact .openHeld hT rfl
    have hheld : c₄.store.stateOf ("res_" ++ hex) = some .held := by
      rw [← hstore, (Ledger.stateOf_insert hT).2, if_pos rfl]
    exact ((ReflTransGen.single hopen).trans (moves_of_takeGrants hheld hgrants)).tail
      (.idle (idles_of_event hevent))

theorem resolveReturning_moves (id : String) (state : ReservationState) (actor detail : String)
    (hended : state ≠ .held) (hreturns : ∀ amount, state.Returns amount amount) :
    (resolveReturning id state actor detail).Respects (ReflTransGen Ledger.Moves) := by
  refine .transaction fun c a c' h ↦ ?_
  obtain ⟨_, c₁, hheld, h₁⟩ := h.of_bind
  obtain ⟨hheld, hstore₁⟩ := requireHeld_runs hheld
  obtain ⟨c₂, hstore₂, h₂⟩ := h₁.of_read_bind
  obtain ⟨_, c₃, hcredits, h₃⟩ := h₂.of_bind
  obtain ⟨_, c₄, hupdate, hevent⟩ := h₃.of_bind
  have hdrains := Ledger.Drains.of_forEach hcredits
  rw [hstore₂, hstore₁] at hdrains
  have hresolves := Ledger.Resolves.of_drains hheld hended (fun item _ ↦ hreturns _) hdrains hupdate
    (fun _ ↦ rfl) fun _ ↦ rfl
  exact ReflTransGen.single (.resolve (hresolves.idles (idles_of_event hevent)))

theorem settle_runs {observation : SettlementObservation} {actor : String}
    {result : SettlementResult} (h : (settle id observation actor).Runs c result c') :
    Ledger.Resolves id .committed c.store c'.store ∨
      observation = .unknown .holdReservation ∧ Ledger.Idles c.store c'.store := by
  obtain ⟨c₀, c₁, hstart, hbody, hend⟩ := h.of_transaction
  rw [← hstart, hend]
  obtain ⟨_, c₂, hheld, h₁⟩ := hbody.of_bind
  obtain ⟨hheld, hstore₁⟩ := requireHeld_runs hheld
  split at h₁
  · -- the reservation is retained
    rename_i hhold
    obtain ⟨_, c₃, hupdate, h₂⟩ := h₁.of_bind
    obtain ⟨_, -, hevent⟩ := h₂.of_bind_pure
    have hflag := idles_of_updateReservation hupdate (fun _ ↦ rfl) fun _ ↦ rfl
    rw [hstore₁] at hflag
    exact .inr ⟨hhold, hflag.trans (idles_of_event hevent)⟩
  · obtain ⟨c₃, hstore₂, h₂⟩ := h₁.of_read_bind
    obtain ⟨anyOverrun, c₄, hsettle, h₃⟩ := h₂.of_bind
    obtain ⟨_, c₅, hupdate, h₄⟩ := h₃.of_bind
    obtain ⟨_, -, hevent⟩ := h₄.of_bind_pure
    have hdrains := Ledger.Drains.of_settleItems hsettle
    rw [hstore₂, hstore₁] at hdrains
    have hresolves := Ledger.Resolves.of_drains (s := .committed) hheld (by decide)
      (fun item _ ↦ Nat.sub_le _ _) hdrains hupdate (fun _ ↦ rfl) fun _ ↦ rfl
    exact .inl (hresolves.idles (idles_of_event hevent))

theorem settle_moves (id : String) (observation : SettlementObservation) (actor : String) :
    (settle id observation actor).Respects (ReflTransGen Ledger.Moves) := by
  refine .of_atomic .transaction fun c result c' h ↦ ?_
  rcases settle_runs h with hresolves | ⟨-, hidles⟩
  · exact ReflTransGen.single (.resolve hresolves)
  · exact ReflTransGen.single (.idle hidles)

theorem renew_moves (id newExpiry actor justification : String) :
    (renew id newExpiry actor justification).Respects (ReflTransGen Ledger.Moves) := by
  refine .transaction fun c a c' h ↦ ?_
  obtain ⟨_, c₁, hheld, h₁⟩ := h.of_bind
  obtain ⟨-, hstore₁⟩ := requireHeld_runs hheld
  obtain ⟨nonrenewable, c₂, hcount, h₂⟩ := h₁.of_bind
  obtain ⟨-, h₃⟩ := h₂.of_ensure_bind
  obtain ⟨_, c₄, hupdate, hevent⟩ := h₃.of_bind
  have hdeadline := idles_of_updateReservation hupdate (fun r ↦ by split <;> rfl)
    fun r ↦ by split <;> rfl
  rw [hcount.of_read.2, hstore₁] at hdeadline
  exact ReflTransGen.single (.idle (hdeadline.trans (idles_of_event hevent)))

theorem observeLiveness_moves (id : String) (evidence : OwnerLivenessEvidence) :
    (observeLiveness id evidence).Respects (ReflTransGen Ledger.Moves) := by
  refine .transaction fun c a c' h ↦ ?_
  obtain ⟨row, c₁, hrow, h₁⟩ := h.of_bind
  split at h₁
  · exact absurd h₁ Query.not_runs_fail
  · obtain ⟨-, h₂⟩ := h₁.of_ensure_bind
    obtain ⟨_, c₃, hwrite, hevent⟩ := h₂.of_bind
    have hlog : Ledger.Idles c.store c₃.store := by
      rw [← Option.some.inj hwrite.of_write, hrow.of_read.2]
      exact c.store.idles_log _ _
    exact ReflTransGen.single (.idle (hlog.trans (idles_of_event hevent)))

/-- **Every call takes the ledger through a sequence of moves**, at whatever statement it fails. -/
theorem LedgerCall.query_moves (call : LedgerCall) :
    call.query.Respects (ReflTransGen Ledger.Moves) := by
  have hpure : ∀ a : LedgerAnswer,
      (pure a : LedgerQuery LedgerAnswer).Respects (ReflTransGen Ledger.Moves) :=
    fun _ ↦ .of_readOnly .pure
  cases call with
  | definePool poolId resourceType capacity renewable =>
    exact (definePool_moves poolId resourceType capacity renewable).bind fun _ ↦ hpure _
  | acquire random owner requests mode expiresAt =>
    exact (acquire_moves random owner requests mode expiresAt).bind fun _ ↦ hpure _
  | settle id observation actor =>
    exact (settle_moves id observation actor).bind fun _ ↦ hpure _
  | commit id observed actor =>
    exact (settle_moves id (.known observed) actor).bind fun _ ↦ hpure _
  | release id actor =>
    exact (resolveReturning_moves id .released actor _ (by decide) fun _ ↦ rfl).bind fun _ ↦ hpure _
  | expireDue now =>
    have hexpire : (FamiliarAi.expireDue now).Respects (ReflTransGen Ledger.Moves) := by
      refine (Query.Respects.of_readOnly Query.ReadOnly.read).bind fun ids ↦ ?_
      refine Query.Respects.bind (Query.Respects.forEach (fun id ↦ ?_) ids) fun _ ↦
        .of_readOnly .pure
      exact resolveReturning_moves id .expired _ _ (by decide) fun _ ↦ rfl
    exact hexpire.bind fun _ ↦ hpure _
  | renew id newExpiry actor justification =>
    exact (renew_moves id newExpiry actor justification).bind fun _ ↦ hpure _
  | recover id evidence =>
    have hrecover : (FamiliarAi.recover id evidence).Respects (ReflTransGen Ledger.Moves) := by
      refine (observeLiveness_moves id evidence).bind fun _ ↦ ?_
      split
      · exact (resolveReturning_moves id .recovered _ _ (by decide) fun _ ↦ rfl).bind fun _ ↦
          .of_readOnly .pure
      · exact .of_readOnly .pure
    exact hrecover.bind fun _ ↦ hpure _

end Operations

end FamiliarAi
