import FamiliarAi.Reservation.Atomicity

/-!
# The shares of several holders

What an owner that holds several reservations at once may rely on: what it holds is part of what the
pool has given away, acquiring one more share leaves the shares it has alone, and so does settling
another one.
-/

namespace FamiliarAi

open Relational Relation List

namespace Ledger

variable {L L' L'' : Ledger} {id : String} {key : PoolKey} {ids : List String}

theorem sum_map_ite_le (key : PoolKey) (hids : ids.Nodup) (g : Grant)
    (hheld : ∀ id ∈ ids, L.stateOf id = some .held) :
    ((ids.map fun id ↦ if g.reservationId = id ∧ g.pool = key then g.amount else 0).sum : ℤ) ≤
      if g.pool = key ∧ L.stateOf g.reservationId = some .held then (g.amount : ℤ) else 0 := by
  by_cases hmem : g.reservationId ∈ ids
  · have hsingle := Table.sum_map_eq_of_single (fun _ ↦ 0)
      (fun id ↦ if g.reservationId = id ∧ g.pool = key then g.amount else 0) hids hmem
      fun id _ hne ↦ if_neg fun h ↦ hne h.1.symm
    simp only [map_const', sum_replicate, nsmul_zero, zero_add, add_zero, true_and] at hsingle
    rw [hsingle]
    by_cases hpool : g.pool = key
    · rw [if_pos hpool, if_pos ⟨hpool, hheld _ hmem⟩]
    · rw [if_neg hpool]
      split
      · exact Int.natCast_nonneg _
      · rfl
  · have hzero : (ids.map fun id ↦
        if g.reservationId = id ∧ g.pool = key then g.amount else 0).sum = 0 := by
      refine sum_eq_zero fun x hx ↦ ?_
      obtain ⟨id, hid, rfl⟩ := List.mem_map.1 hx
      refine if_neg fun h ↦ hmem ?_
      rw [h.1]
      exact hid
    rw [hzero]
    split
    · exact Int.natCast_nonneg _
    · rfl

theorem sum_granted_le_heldOn (hids : ids.Nodup) (hheld : ∀ id ∈ ids, L.stateOf id = some .held)
    (key : PoolKey) :
    ((ids.map fun id ↦ L.granted id key).sum : ℤ) ≤ L.heldOn key := by
  unfold granted heldOn
  generalize L.grants = grants
  induction grants with
  | nil => simp
  | cons g grants ih =>
    have hhead := sum_map_ite_le key hids g hheld
    simp only [map_cons, sum_cons, sum_map_add, Nat.cast_add] at ih ⊢
    omega

theorem Conserves.heldOn_add_consumedOn_le (hL : L.Conserves) {p : PoolRow}
    (hp : p ∈ L.pools.rows) : L.heldOn p.key + L.consumedOn p.key ≤ p.capacity := by
  have hcheck := Table.check_of_mem hp
  simp only [poolSchema, Bool.and_eq_true, decide_eq_true_eq] at hcheck
  have hbalanced := hL.balanced p hp
  rw [hL.outstanding_eq] at hbalanced
  omega

/-- From `L` to `L'` the pools keep their capacities, and every reservation but `id` keeps its state
and what it was granted. -/
structure Spares (id : String) (L L' : Ledger) : Prop where
  capacities : ∀ p ∈ L.pools.rows, ∃ p' ∈ L'.pools.rows, p'.key = p.key ∧ p'.capacity = p.capacity
  states : ∀ id', id' ≠ id → L'.stateOf id' = L.stateOf id'
  granted : ∀ id', id' ≠ id → ∀ key, L'.granted id' key = L.granted id' key

theorem Spares.refl (id : String) (L : Ledger) : Spares id L L :=
  ⟨fun p hp ↦ ⟨p, hp, rfl, rfl⟩, fun _ _ ↦ rfl, fun _ _ _ ↦ rfl⟩

/-- Moving nothing. -/
theorem Idles.spares (h : Idles L L') : Spares id L L' := by
  refine ⟨fun p hp ↦ ⟨p, h.pools ▸ hp, rfl, rfl⟩, fun id' _ ↦ h.states id', fun id' _ key ↦ ?_⟩
  unfold Ledger.granted
  rw [h.grants]

theorem Resolves.spares {s : ReservationState} (h : Resolves id s L L') : Spares id L L' := by
  obtain ⟨amount, -, L₁, hdrains, hpools, hgrants, -⟩ := h.drains
  refine ⟨fun p hp ↦ ?_, fun id' hne ↦ ?_, fun id' _ key ↦ ?_⟩
  · obtain ⟨p', hp', hsame⟩ := hdrains.pools p hp
    exact ⟨p', hpools ▸ hp', hsame⟩
  · rw [h.states, if_neg hne]
  · unfold Ledger.granted
    rw [hgrants, hdrains.grants]

/-- From `L` to `L'` the new reservation `id` was opened, and took the given amounts from the given
pools. -/
structure Opens (id : String) (amounts : List (PoolKey × ℕ)) (L L' : Ledger) : Prop where
  capacities : ∀ p ∈ L.pools.rows, ∃ p' ∈ L'.pools.rows, p'.key = p.key ∧ p'.capacity = p.capacity
  fresh : L.stateOf id = none
  states : ∀ id', L'.stateOf id' = if id' = id then some .held else L.stateOf id'
  grants : L'.grants = L.grants ++ amounts.map fun a ↦ ⟨id, a.1, a.2⟩
  credits : L'.credits = L.credits

variable {amounts : List (PoolKey × ℕ)}

theorem Opens.ne (h : Opens id amounts L L') (hL : L.Conserves) {g : Grant} (hg : g ∈ L.grants) :
    g.reservationId ≠ id := by
  intro hid
  have hsome := hL.granted_to g hg
  rw [hid, h.fresh] at hsome
  cases hsome

theorem Opens.spares (h : Opens id amounts L L') : Spares id L L' := by
  refine ⟨h.capacities, fun id' hne ↦ by rw [h.states, if_neg hne], fun id' hne key ↦ ?_⟩
  unfold Ledger.granted
  rw [h.grants, map_append, sum_append, List.map_map]
  refine Nat.add_eq_left.2 (sum_eq_zero fun x hx ↦ ?_)
  obtain ⟨a, -, rfl⟩ := List.mem_map.1 hx
  exact if_neg fun h ↦ hne h.1.symm

theorem Opens.granted (h : Opens id amounts L L') (hL : L.Conserves) (key : PoolKey) :
    L'.granted id key = (amounts.map fun a ↦ if a.1 = key then a.2 else 0).sum := by
  have hold : (L.grants.map fun g ↦
      if g.reservationId = id ∧ g.pool = key then g.amount else 0).sum = 0 := by
    refine sum_eq_zero fun x hx ↦ ?_
    obtain ⟨g, hg, rfl⟩ := List.mem_map.1 hx
    exact if_neg fun hif ↦ h.ne hL hg hif.1
  unfold Ledger.granted
  rw [h.grants, map_append, sum_append, List.map_map, hold, Nat.zero_add]
  congr 1
  refine map_congr_left fun a _ ↦ ?_
  simp

theorem Opens.consumedOn (h : Opens id amounts L L') (hL : L.Conserves) (key : PoolKey) :
    L'.consumedOn key = L.consumedOn key := by
  have hnew : (amounts.map ((fun g : Grant ↦
      if g.pool = key ∧ L'.stateOf g.reservationId = some .committed then
        (g.amount : ℤ) - L'.returned g.reservationId g.pool else 0) ∘
          fun a ↦ ⟨id, a.1, a.2⟩)).sum = 0 := by
    refine sum_eq_zero fun x hx ↦ ?_
    obtain ⟨a, -, rfl⟩ := List.mem_map.1 hx
    refine if_neg fun hif ↦ ?_
    have hheld := h.states id
    rw [if_pos rfl, hif.2] at hheld
    cases hheld
  unfold Ledger.consumedOn
  rw [h.grants, map_append, sum_append, List.map_map, hnew, add_zero]
  refine congrArg List.sum (map_congr_left fun g hg ↦ ?_)
  rw [h.states, if_neg (h.ne hL hg), returned_congr h.credits]

end Ledger

/-! ### Defining, acquiring and settling -/

section Operations

variable {c c' : Connection Ledger FamiliarError} {id : String} {requests : List ResourceRequest}
  {u : Unit}

theorem definePool_defines {poolId : String} {resourceType : ResourceType} {capacity : ℕ}
    {renewable : Bool} (h : (definePool poolId resourceType capacity renewable).Runs c u c')
    (hnew : ∀ p ∈ c.store.pools.rows, p.key ≠ ⟨poolId, resourceType.asStr⟩) :
    capacity ≤ maxSqlAmount ∧ c'.store.pools.rows = c.store.pools.rows ++
      [⟨⟨poolId, resourceType.asStr⟩, capacity, capacity, renewable⟩] := by
  obtain ⟨amount, hsql, hwrite⟩ := h.of_ofExcept_bind
  obtain rfl := eq_of_sqlAmount hsql
  obtain ⟨T, hT, hstore⟩ := Option.map_eq_some_iff.1 hwrite.of_write
  refine ⟨?_, ?_⟩
  · unfold sqlAmount at hsql
    split at hsql
    · assumption
    · cases hsql
  · rw [← hstore]
    unfold upsertPool at hT
    split at hT
    · exact Table.rows_insert hT
    · rename_i p hfind
      obtain ⟨hp, hkey⟩ := Table.find_some hfind
      exact absurd (of_decide_eq_true hkey) (hnew p hp)

/-- The loop of `acquire`, in terms of the grants it takes. -/
theorem takeGrants_runs {grants : List ReservationGrantItem}
    (h : (Query.forEach grants (takeGrant id)).Runs c u c') :
    (∀ p ∈ c.store.pools.rows,
        ∃ p' ∈ c'.store.pools.rows, p'.key = p.key ∧ p'.capacity = p.capacity) ∧
      c'.store.reservations = c.store.reservations ∧ c'.store.credits = c.store.credits ∧
      c'.store.grants = c.store.grants ++ grants.map (·.grant id) := by
  induction grants generalizing c with
  | nil =>
    rw [← Query.runs_forEach_nil.1 h]
    exact ⟨fun p hp ↦ ⟨p, hp, rfl, rfl⟩, rfl, rfl, (append_nil _).symm⟩
  | cons grant grants ih =>
    obtain ⟨c₁, hgrant, hgrants⟩ := Query.runs_forEach_cons.1 h
    obtain ⟨pools, items, hpools, -, hitems, hstore⟩ := takeGrant_runs hgrant
    obtain ⟨hcapacities, hreservations, hcredits, hall⟩ := ih hgrants
    rw [hstore] at hcapacities hreservations hcredits hall
    refine ⟨fun p hp ↦ ?_, hreservations, hcredits, ?_⟩
    · obtain ⟨p', hp', hkey, hcapacity⟩ := hcapacities _ ((Table.mem_update hpools).2 ⟨p, hp, rfl⟩)
      refine ⟨p', hp', hkey.trans ?_, hcapacity.trans ?_⟩
      · split <;> rfl
      · split <;> rfl
    · rw [hall]
      unfold Ledger.grants
      rw [Table.rows_insert hitems, map_append, append_assoc]
      rfl

/-- What `assess` would grant in full. -/
theorem assess_grants (id : String) {out : List ResourceRequest × List ReservationGrantItem}
    (h : (assess .allOrNothing requests).Runs c out c') (hpos : ∀ r ∈ requests, 0 < r.amount) :
    out.2.map (·.grant id) =
      requests.map fun r ↦ ⟨id, ⟨r.poolId, r.resourceType.asStr⟩, r.amount⟩ := by
  induction requests generalizing c c' out with
  | nil =>
    rw [← (Query.runs_pure.1 h).1]
    rfl
  | cons request requests ih =>
    obtain ⟨available, c₁, -, h₁⟩ := h.of_bind
    obtain ⟨⟨unavailable, grants⟩, c₂, hrest, hpure⟩ := h₁.of_bind
    have hgrants := ih hrest fun r hr ↦ hpos r (mem_cons_of_mem _ hr)
    dsimp only at hpure
    rw [← (Query.runs_pure.1 hpure).1, if_pos (hpos request mem_cons_self), map_cons,
      map_cons, hgrants]
    rfl

theorem pos_of_validateRequests (h : validateRequests requests = .ok u) :
    ∀ r ∈ requests, 0 < r.amount := by
  intro r hr
  unfold validateRequests at h
  split at h
  · cases h
  · rename_i hvalid
    refine Nat.pos_of_ne_zero fun hzero ↦ hvalid ?_
    have hany : requests.any (·.amount == 0) = true := List.any_eq_true.2 ⟨r, hr, by simp [hzero]⟩
    simp [hany]

theorem acquire_opens {random : Option String} {owner : ReservationOwnerIdentity}
    {expiresAt : Option String} {arrival : ℕ} {items : List ReservationGrantItem}
    (h : (acquire random owner requests .allOrNothing expiresAt).Runs c (.granted id arrival items) c')
    :
    Ledger.Opens id (requests.map fun r ↦ (⟨r.poolId, r.resourceType.asStr⟩, r.amount))
      c.store c'.store := by
  obtain ⟨_, c₁, howner, h₁⟩ := h.of_bind
  obtain ⟨_, c₂, hrequests, h₂⟩ := h₁.of_bind
  obtain ⟨-, rfl⟩ := howner.of_ofExcept
  obtain ⟨hvalid, rfl⟩ := hrequests.of_ofExcept
  rcases h₂.of_transactionWith with ⟨c₃, c₄, hstart, hbody, hend⟩ | ⟨c₃, c₄, hstart, hbody, -⟩
  · obtain ⟨⟨unavailable, grants⟩, c₅, hassess, hbody⟩ := hbody.of_bind
    have hstore₅ := (assess_readOnly .allOrNothing requests).store_eq hassess
    have hgrants := assess_grants id hassess (pos_of_validateRequests hvalid)
    dsimp only at hbody
    split at hbody
    · cases (Query.runs_pure.1 hbody).1
    · obtain ⟨hex, -, h₆⟩ := hbody.of_ofExcept_bind
      obtain ⟨sequence, c₇, hsequence, h₇⟩ := h₆.of_bind
      obtain ⟨_, c₈, hinsert, h₈⟩ := h₇.of_bind
      obtain ⟨_, c₉, htake, h₉⟩ := h₈.of_bind
      obtain ⟨_, hanswer, hevent⟩ := h₉.of_bind_pure
      obtain ⟨rfl, -, -⟩ : "res_" ++ hex = id ∧ sequence = arrival ∧ grants = items := by
        simpa using hanswer
      obtain ⟨T, hT, hinserted⟩ := Option.map_eq_some_iff.1 hinsert.of_write
      obtain ⟨hfresh, hstates⟩ := Ledger.stateOf_insert hT
      obtain ⟨hcapacities, hreservations, hcredits, hall⟩ := takeGrants_runs htake
      rw [← hinserted] at hcapacities hreservations hcredits hall
      have hstore : c₇.store = c.store := by rw [hsequence.of_read.2, hstore₅, hstart]
      rw [hstore] at hcapacities hreservations hcredits hall hT hfresh hstates
      have hidles := idles_of_event hevent
      rw [hend]
      refine ⟨fun p hp ↦ ?_, hfresh, fun id' ↦ ?_, ?_, hidles.credits.trans hcredits⟩
      · obtain ⟨p', hp', hsame⟩ := hcapacities p hp
        exact ⟨p', hidles.pools ▸ hp', hsame⟩
      · rw [hidles.states, ← hstates]
        unfold Ledger.stateOf Ledger.reservation
        rw [hreservations]
      · rw [hidles.grants, hall, hgrants, List.map_map]
        rfl
  · -- a rollback answers no grant
    obtain ⟨⟨unavailable, grants⟩, c₅, hassess, hbody⟩ := hbody.of_bind
    dsimp only at hbody
    split at hbody
    · cases (Query.runs_pure.1 hbody).1
    · obtain ⟨_, _, -, hbody⟩ := hbody.of_bind
      obtain ⟨_, _, -, hbody⟩ := hbody.of_bind
      obtain ⟨_, _, -, hbody⟩ := hbody.of_bind
      obtain ⟨_, _, -, hbody⟩ := hbody.of_bind
      obtain ⟨_, _, -, hbody⟩ := hbody.of_bind
      cases (Query.runs_pure.1 hbody).1

theorem settle_spares {observation : SettlementObservation} {actor : String}
    {result : SettlementResult} (h : (settle id observation actor).Runs c result c') :
    Ledger.Spares id c.store c'.store := by
  rcases settle_runs h with hresolves | ⟨-, hidles⟩
  · exact hresolves.spares
  · exact hidles.spares

end Operations

end FamiliarAi
