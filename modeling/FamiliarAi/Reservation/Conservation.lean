import FamiliarAi.Reservation.Effects

/-!
# Conservation of reserved capacity

Every unit of a pool is available, or granted to a reservation that is still held, or granted to a
settled reservation that did not give it back. The invariant behind this is `Ledger.Conserves`: the
capacity of a pool is what is available plus, over all grants from it, what has not been returned
(`Ledger.outstanding`), and how much a grant has returned is determined by the state of its
reservation (`ReservationState.Returns`).

The law is kept by each statement that moves capacity: returning an amount moves it from the
outstanding part to the available part, and taking a grant moves it the other way. An operation that
resolves a reservation returns the amounts first and changes the state last, so what is carried
through its loop is `Drains`: the record of what was returned, and the balance.
-/

namespace FamiliarAi

open Relational List

def ReservationState.Returns : ReservationState → ℕ → ℕ → Prop
  | .held, _, returned => returned = 0
  | .committed, amount, returned => returned ≤ amount
  | _, amount, returned => returned = amount

namespace Ledger

variable {L L' : Ledger} {id id' : String} {key key' : PoolKey}
  {c c' : Connection Ledger FamiliarError} {items : List ReservationGrantItem}
  {T : Table reservationSchema} {cs : List (PoolKey × ℕ)} {r : ReservationRow} {renewable : Bool}
  {capacity : ℤ} {amount : ℕ} {g : Grant} {u : Unit}

/-- What the grants from a pool have not returned. -/
def outstanding (L : Ledger) (key : PoolKey) : ℤ :=
  (L.grants.map fun g ↦
    if g.pool = key then (g.amount : ℤ) - L.returned g.reservationId g.pool else 0).sum

/-- The capacity of every pool is what is available plus what is outstanding. -/
def Balanced (L : Ledger) : Prop :=
  ∀ p ∈ L.pools.rows, p.capacity = p.available + L.outstanding p.key

/-- **The invariant of the ledger.** -/
structure Conserves (L : Ledger) : Prop where
  granted_to : ∀ g ∈ L.grants, (L.stateOf g.reservationId).isSome
  granted_from : ∀ g ∈ L.grants, ∃ p ∈ L.pools.rows, p.key = g.pool
  credited_to : ∀ c ∈ L.credits, ∃ s, L.stateOf c.reservationId = some s ∧ s ≠ .held
  credited_for : ∀ c ∈ L.credits, ∃ g ∈ L.grants, g.reservationId = c.reservationId ∧ g.pool = c.pool
  /-- No capacity is lost or forged. -/
  balanced : L.Balanced
  returns : ∀ g ∈ L.grants, ∀ s, L.stateOf g.reservationId = some s →
    s.Returns g.amount (L.returned g.reservationId g.pool)

theorem returned_congr (h : L'.credits = L.credits) : L'.returned id key = L.returned id key := by
  unfold returned
  rw [h]

theorem returned_append {cs : List Credit} (h : L'.credits = L.credits ++ cs) :
    L'.returned id key = L.returned id key +
      (cs.map fun c ↦ if c.reservationId = id ∧ c.pool = key then c.amount else 0).sum := by
  unfold returned
  rw [h, map_append, sum_append]

theorem returned_eq_zero (h : ∀ c ∈ L.credits, c.reservationId ≠ id) : L.returned id key = 0 := by
  unfold returned
  refine sum_eq_zero fun x hx ↦ ?_
  obtain ⟨c, hc, rfl⟩ := mem_map.1 hx
  exact if_neg fun hif ↦ h c hc hif.1

theorem outstanding_congr (hgrants : L'.grants = L.grants) (hcredits : L'.credits = L.credits) :
    L'.outstanding key = L.outstanding key := by
  unfold outstanding
  simp only [hgrants, returned_congr hcredits]

theorem outstanding_eq_zero (h : ∀ g ∈ L.grants, g.pool ≠ key) : L.outstanding key = 0 := by
  unfold outstanding
  refine sum_eq_zero fun x hx ↦ ?_
  obtain ⟨g, hg, rfl⟩ := mem_map.1 hx
  exact if_neg (h g hg)

theorem outstanding_credit (key : PoolKey) (hg : g ∈ L.grants) (hgrants : L'.grants = L.grants)
    (hcredits : L'.credits = L.credits ++ [⟨g.reservationId, g.pool, amount⟩]) :
    L'.outstanding key = L.outstanding key - if g.pool = key then (amount : ℤ) else 0 := by
  -- only the grant itself sees the new credit
  have hreturned : ∀ g' ∈ L.grants, L'.returned g'.reservationId g'.pool =
      L.returned g'.reservationId g'.pool + if g' = g then amount else 0 := by
    intro g' hg'
    rw [returned_append hcredits]
    simp only [map_cons, map_nil, sum_cons, sum_nil, Nat.add_zero]
    congr 1
    by_cases h : g' = g
    · rw [if_pos h, if_pos]
      rw [h]
      exact ⟨rfl, rfl⟩
    · rw [if_neg h, if_neg]
      exact fun hkey ↦ h (grant_unique hg hg' hkey.1 hkey.2).symm
  have hsum := Table.sum_map_eq_of_single
    (fun g' ↦ if g'.pool = key then (g'.amount : ℤ) - L.returned g'.reservationId g'.pool else 0)
    (fun g' ↦ if g'.pool = key then (g'.amount : ℤ) - L'.returned g'.reservationId g'.pool else 0)
    L.nodup_grants hg fun g' hg' hne ↦ by
      simp only [hreturned g' hg', if_neg hne, Nat.add_zero]
  have hself := hreturned g hg
  simp only [if_true] at hself
  unfold outstanding
  rw [hgrants]
  simp only [hself] at hsum
  split
  · rename_i hpool
    simp only [hpool, if_true] at hsum
    push_cast at hsum
    omega
  · rename_i hpool
    simp only [hpool, if_false] at hsum
    omega

theorem outstanding_grant (hgrants : L'.grants = L.grants ++ [g])
    (hcredits : L'.credits = L.credits) (hfresh : L.returned g.reservationId g.pool = 0) :
    L'.outstanding key = L.outstanding key + if g.pool = key then (g.amount : ℤ) else 0 := by
  unfold outstanding
  simp only [hgrants, returned_congr hcredits, map_append, sum_append, map_cons,
    map_nil, sum_cons, sum_nil, hfresh, add_zero, Nat.cast_zero, sub_zero]

/-! ### Returning the items of a reservation -/

/-- From `L` to `L'` the amounts `cs` were returned on behalf of the reservation `id`, and nothing
was granted, resolved or opened. -/
structure Drains (id : String) (cs : List (PoolKey × ℕ)) (L L' : Ledger) : Prop where
  grants : L'.grants = L.grants
  reservations : L'.reservations = L.reservations
  credits : L'.credits = L.credits ++ cs.map fun c ↦ ⟨id, c.1, c.2⟩
  pools : ∀ p ∈ L.pools.rows, ∃ p' ∈ L'.pools.rows, p'.key = p.key ∧ p'.capacity = p.capacity
  balanced : (∀ c ∈ cs, ∃ g ∈ L.grants, g.reservationId = id ∧ g.pool = c.1) →
    L.Balanced → L'.Balanced

theorem Drains.refl (id : String) (L : Ledger) : Drains id [] L L where
  grants := rfl
  reservations := rfl
  credits := (append_nil _).symm
  pools p hp := ⟨p, hp, rfl, rfl⟩
  balanced _ h := h

theorem Drains.trans {cs cs' : List (PoolKey × ℕ)} {L'' : Ledger} (h : Drains id cs L L')
    (h' : Drains id cs' L' L'') : Drains id (cs ++ cs') L L'' where
  grants := h'.grants.trans h.grants
  reservations := h'.reservations.trans h.reservations
  credits := by rw [h'.credits, h.credits, map_append, append_assoc]
  pools p hp := by
    obtain ⟨p', hp', hkey, hcapacity⟩ := h.pools p hp
    obtain ⟨p'', hp'', hkey', hcapacity'⟩ := h'.pools p' hp'
    exact ⟨p'', hp'', hkey'.trans hkey, hcapacity'.trans hcapacity⟩
  balanced hcs hL := by
    refine h'.balanced (fun c hc ↦ ?_) (h.balanced (fun c hc ↦ hcs c (mem_append_left _ hc)) hL)
    rw [h.grants]
    exact hcs c (mem_append_right _ hc)

theorem Drains.of_creditPool (h : (creditPool id key amount).Runs c u c') :
    Drains id [(key, amount)] c.store c'.store := by
  obtain ⟨T, hT, hstore⟩ := creditPool_runs h
  rw [hstore]
  refine ⟨rfl, rfl, rfl, fun p hp ↦ ?_, fun hgrant hL p' hp' ↦ ?_⟩
  · refine ⟨_, (Table.mem_update hT).2 ⟨p, hp, rfl⟩, ?_⟩
    split <;> exact ⟨rfl, rfl⟩
  · obtain ⟨g, hg, rfl, rfl⟩ := hgrant _ (mem_singleton.2 rfl)
    obtain ⟨p, hp, rfl⟩ := (Table.mem_update hT).1 hp'
    have hbalanced := hL p hp
    let L' : Ledger := { c.store with
      pools := T, credits := c.store.credits ++ [⟨g.reservationId, g.pool, amount⟩] }
    have hcredit : ∀ key, L'.outstanding key =
        c.store.outstanding key - if g.pool = key then (amount : ℤ) else 0 :=
      fun key ↦ outstanding_credit key hg rfl rfl
    by_cases hkey : p.key = g.pool
    · show _ = _ + L'.outstanding _
      simp only [hkey, decide_true, if_true, hcredit] at hbalanced ⊢
      omega
    · show _ = _ + L'.outstanding _
      simp only [hkey, decide_false, Bool.false_eq_true, if_false, hcredit,
        if_neg (Ne.symm hkey)] at hbalanced ⊢
      omega

theorem Drains.of_observe {T : Table itemSchema} {p : ItemRow → Bool} {f : ItemRow → ItemRow}
    (hT : L.items.update p f = some T) (hf : ∀ i, (f i).grant = i.grant) :
    Drains id [] L { L with items := T } := by
  have hgrants : ({ L with items := T } : Ledger).grants = L.grants := by
    unfold Ledger.grants
    rw [Table.rows_update hT, map_map]
    refine map_congr_left fun i _ ↦ ?_
    simp only [Function.comp_apply]
    split
    · exact hf i
    · rfl
  refine ⟨hgrants, rfl, (append_nil _).symm, fun p hp ↦ ⟨p, hp, rfl, rfl⟩, fun _ hL p hp ↦ ?_⟩
  rw [outstanding_congr hgrants rfl]
  exact hL p hp

/-- The loop of `resolve_returning`: every item is returned in full. -/
theorem Drains.of_forEach
    (h : (Query.forEach items fun item ↦ creditPool id item.key item.grantedAmount).Runs c u c') :
    Drains id (items.map fun item ↦ (item.key, item.grantedAmount)) c.store c'.store := by
  induction items generalizing c with
  | nil =>
    rw [← Query.runs_forEach_nil.1 h]
    exact Drains.refl id _
  | cons item items ih =>
    obtain ⟨c₁, hitem, hitems⟩ := Query.runs_forEach_cons.1 h
    exact (Drains.of_creditPool hitem).trans (ih hitems)

/-- The loop of `settle`: of every item, what was not consumed is returned. -/
theorem Drains.of_settleItems {observation : SettlementObservation} {b : Bool}
    (h : (settleItems id observation items).Runs c b c') :
    Drains id (items.map fun item ↦ (item.key, item.grantedAmount - observation.observed item))
      c.store c'.store := by
  induction items generalizing c b with
  | nil =>
    rw [← (Query.runs_pure.1 h).2]
    exact Drains.refl id _
  | cons item items ih =>
    obtain ⟨_, c₁, hcredit, h₁⟩ := h.of_bind
    obtain ⟨observed, c₂, hobserved, h₂⟩ := h₁.of_bind
    obtain ⟨overrun, c₃, hoverrun, h₃⟩ := h₂.of_bind
    obtain ⟨_, c₄, hwrite, h₄⟩ := h₃.of_bind
    obtain ⟨rest, c₅, hrest, hpure⟩ := h₄.of_bind
    obtain ⟨-, rfl⟩ := hobserved.of_ofExcept
    obtain ⟨-, rfl⟩ := hoverrun.of_ofExcept
    obtain ⟨-, rfl⟩ := hpure.of_pure
    obtain ⟨T, hT, hstore⟩ := Option.map_eq_some_iff.1 hwrite.of_write
    have hobserve : Drains id [] c₁.store c₄.store := by
      rw [← hstore]
      exact Drains.of_observe hT fun _ ↦ rfl
    exact (Drains.of_creditPool hcredit).trans (hobserve.trans (ih hrest))

theorem Drains.returned_eq (h : Drains id cs L L') (hkeys : (cs.map (·.1)).Nodup) {c : PoolKey × ℕ}
    (hc : c ∈ cs) (hzero : L.returned id c.1 = 0) : L'.returned id c.1 = c.2 := by
  rw [returned_append h.credits, hzero, Nat.zero_add, map_map]
  have hsingle := Table.sum_map_eq_of_single (fun _ ↦ 0)
    (fun c' : PoolKey × ℕ ↦ if c'.1 = c.1 then c'.2 else 0) (Nodup.of_map _ hkeys) hc
    fun c' hc' hne ↦ if_neg fun hkey ↦ hne (inj_on_of_nodup_map hkeys hc' hc hkey)
  simp only [map_const', sum_replicate, nsmul_zero, zero_add, add_zero, if_true] at hsingle
  rw [← hsingle]
  congr 1
  refine map_congr_left fun c' _ ↦ ?_
  simp

theorem Drains.returned_other (h : Drains id cs L L') (hne : id' ≠ id) :
    L'.returned id' key = L.returned id' key := by
  rw [returned_append h.credits, map_map]
  refine Nat.add_eq_left.2 (sum_eq_zero fun x hx ↦ ?_)
  obtain ⟨c, -, rfl⟩ := mem_map.1 hx
  exact if_neg fun hif ↦ hne hif.1.symm

/-! ### The moves of the ledger

What the operations do to the flow of capacity, forgetting how they do it: nothing, redefining a
pool, opening a reservation, taking a grant, resolving a reservation. -/

/-- Nothing that the flow of capacity depends on changed. -/
structure Idles (L L' : Ledger) : Prop where
  pools : L'.pools = L.pools
  grants : L'.grants = L.grants
  credits : L'.credits = L.credits
  states : ∀ id, L'.stateOf id = L.stateOf id

/-- The held reservation `id` returned an amount for each of its items and moved to the state `s`,
which the amounts agree with. -/
structure Resolves (id : String) (s : ReservationState) (L L' : Ledger) : Prop where
  held : L.stateOf id = some .held
  ended : s ≠ .held
  drains : ∃ amount : ReservationGrantItem → ℕ,
    (∀ item ∈ L.reservationItems id, s.Returns item.grantedAmount (amount item)) ∧
    ∃ L₁, Drains id ((L.reservationItems id).map fun item ↦ (item.key, amount item)) L L₁ ∧
      L'.pools = L₁.pools ∧ L'.grants = L₁.grants ∧ L'.credits = L₁.credits
  states : ∀ id', L'.stateOf id' = if id' = id then some s else L.stateOf id'

/-- **One move of the ledger.** -/
inductive Moves (L : Ledger) : Ledger → Prop
  /-- Bookkeeping. -/
  | idle {L' : Ledger} (h : Idles L L') : Moves L L'
  | define {T : Table poolSchema} {key : PoolKey} {capacity : ℤ} {renewable : Bool}
      (h : upsertPool L.pools key capacity renewable = some T) : Moves L { L with pools := T }
  | openHeld {T : Table reservationSchema} {r : ReservationRow}
      (h : L.reservations.insert r = some T) (hheld : r.state = .held) :
      Moves L { L with reservations := T }
  | take {pools : Table poolSchema} {items : Table itemSchema} {id : String} {key : PoolKey}
      {requested amount : ℕ} (hheld : L.stateOf id = some .held)
      (hpools : L.pools.update (·.covers key amount)
        (fun p ↦ { p with available := p.available - amount }) = some pools)
      (hcovers : ∃ p ∈ L.pools.rows, p.covers key amount = true)
      (hitems : L.items.insert
        { reservationId := id, pool := key, requestedAmount := requested,
          grantedAmount := amount } = some items) :
      Moves L { L with pools := pools, items := items }
  /-- A held reservation ends. -/
  | resolve {L' : Ledger} {id : String} {s : ReservationState} (h : Resolves id s L L') : Moves L L'

/-! ### Every move conserves -/

theorem Idles.conserves (h : Idles L L') (hL : L.Conserves) : L'.Conserves where
  granted_to g hg := by
    rw [h.states]
    exact hL.granted_to g (h.grants ▸ hg)
  granted_from g hg := by
    rw [h.pools]
    exact hL.granted_from g (h.grants ▸ hg)
  credited_to c hc := by
    rw [h.states]
    exact hL.credited_to c (h.credits ▸ hc)
  credited_for c hc := by
    rw [h.grants]
    exact hL.credited_for c (h.credits ▸ hc)
  balanced p hp := by
    rw [outstanding_congr h.grants h.credits]
    exact hL.balanced p (h.pools ▸ hp)
  returns g hg s hs := by
    rw [returned_congr h.credits]
    exact hL.returns g (h.grants ▸ hg) s (h.states _ ▸ hs)

theorem upsertPool_rows {T T' : Table poolSchema}
    (h : upsertPool T key capacity renewable = some T') :
    (T'.rows = T.rows ++ [⟨key, capacity, capacity, renewable⟩] ∧ ∀ p ∈ T.rows, p.key ≠ key) ∨
      ∃ F : PoolRow → PoolRow, T'.rows = T.rows.map F ∧
        ∀ p, (F p).key = p.key ∧ (F p).capacity - (F p).available = p.capacity - p.available := by
  unfold upsertPool at h
  split at h
  · rename_i hnone
    refine .inl ⟨Table.rows_insert h, fun p hp hkey ↦ ?_⟩
    simpa [hkey] using Table.find_none hnone hp
  · refine .inr ⟨_, Table.rows_update h, fun p ↦ ?_⟩
    split
    · rename_i hp
      simp only [Bool.and_eq_true, decide_eq_true_eq] at hp
      exact ⟨hp.1.symm, by dsimp only; omega⟩
    · exact ⟨rfl, rfl⟩

theorem Conserves.define {T : Table poolSchema} (hL : L.Conserves)
    (h : upsertPool L.pools key capacity renewable = some T) :
    ({ L with pools := T } : Ledger).Conserves := by
  have hsame : ∀ key', ({ L with pools := T } : Ledger).outstanding key' = L.outstanding key' :=
    fun _ ↦ outstanding_congr rfl rfl
  refine ⟨hL.granted_to, fun g hg ↦ ?_, hL.credited_to, hL.credited_for, fun p hp ↦ ?_, hL.returns⟩
  · obtain ⟨p, hp, hkey⟩ := hL.granted_from g hg
    rcases upsertPool_rows h with ⟨hrows, -⟩ | ⟨F, hrows, hF⟩
    · exact ⟨p, hrows ▸ mem_append_left _ hp, hkey⟩
    · exact ⟨F p, hrows ▸ mem_map_of_mem hp, (hF p).1.trans hkey⟩
  · rw [hsame]
    rcases upsertPool_rows h with ⟨hrows, hnew⟩ | ⟨F, hrows, hF⟩
    · rcases mem_append.1 (hrows ▸ hp) with hold | hnewest
      · exact hL.balanced p hold
      · -- nothing can have been granted from a pool that did not exist
        rw [mem_singleton.1 hnewest]
        rw [outstanding_eq_zero fun g hg hkey ↦ ?_]
        · simp
        · obtain ⟨q, hq, hqkey⟩ := hL.granted_from g hg
          exact hnew q hq (hqkey.trans hkey)
    · obtain ⟨q, hq, rfl⟩ := mem_map.1 (hrows ▸ hp)
      have hbalanced := hL.balanced q hq
      have hdiff := (hF q).2
      rw [(hF q).1]
      omega

theorem stateOf_insert (h : L.reservations.insert r = some T) :
    L.stateOf r.reservationId = none ∧ ∀ id,
      ({ L with reservations := T } : Ledger).stateOf id =
        if id = r.reservationId then some r.state else L.stateOf id := by
  have hnone : L.stateOf r.reservationId = none := by
    by_contra hsome
    obtain ⟨r', hr', hid⟩ := stateOf_isSome_iff.1 (Option.isSome_iff_ne_none.2 hsome)
    have hclash := Table.not_clash_of_insert h hr'
    simp [reservationSchema, hid] at hclash
  refine ⟨hnone, fun id ↦ ?_⟩
  have hfind : ({ L with reservations := T } : Ledger).reservation id =
      (L.reservation id).or ([r].find? fun r ↦ r.reservationId = id) := by
    unfold reservation Table.find
    rw [Table.rows_insert h, find?_append]
  unfold stateOf at hnone ⊢
  rw [hfind]
  split
  · rename_i hid
    rw [hid, Option.map_eq_none_iff.1 hnone]
    simp
  · rename_i hid
    cases hr : L.reservation id with
    | none => simp [Ne.symm hid]
    | some r' => simp

theorem Conserves.openHeld (hL : L.Conserves) (h : L.reservations.insert r = some T) :
    ({ L with reservations := T } : Ledger).Conserves := by
  obtain ⟨hnone, hstate⟩ := stateOf_insert h
  -- the new reservation is not one that anything was granted to or returned for
  have hother : ∀ id, (L.stateOf id).isSome →
      ({ L with reservations := T } : Ledger).stateOf id = L.stateOf id := by
    intro id hid
    rw [hstate, if_neg]
    rintro rfl
    rw [hnone] at hid
    cases hid
  refine ⟨fun g hg ↦ ?_, hL.granted_from, fun c hc ↦ ?_, hL.credited_for, fun p hp ↦ ?_,
    fun g hg s hs ↦ ?_⟩
  · rw [hother _ (hL.granted_to g hg)]
    exact hL.granted_to g hg
  · obtain ⟨s, hs, hne⟩ := hL.credited_to c hc
    exact ⟨s, (hother _ (by rw [hs]; rfl)).trans hs, hne⟩
  · have hsame : ({ L with reservations := T } : Ledger).outstanding p.key = L.outstanding p.key :=
      outstanding_congr rfl rfl
    rw [hsame]
    exact hL.balanced p hp
  · rw [hother _ (hL.granted_to g hg)] at hs
    exact hL.returns g hg s hs

theorem Conserves.take {pools : Table poolSchema} {items : Table itemSchema}
    {requested amount : ℕ} (hL : L.Conserves) (hheld : L.stateOf id = some .held)
    (hpools : L.pools.update (·.covers key amount)
      (fun p ↦ { p with available := p.available - amount }) = some pools)
    (hcovers : ∃ p ∈ L.pools.rows, p.covers key amount = true)
    (hitems : L.items.insert
      { reservationId := id, pool := key, requestedAmount := requested,
        grantedAmount := amount } = some items) :
    ({ L with pools := pools, items := items } : Ledger).Conserves := by
  obtain ⟨p₀, hp₀, hcover⟩ := hcovers
  simp only [PoolRow.covers, Bool.and_eq_true, decide_eq_true_eq] at hcover
  have hgrants : ({ L with pools := pools, items := items } : Ledger).grants =
      L.grants ++ [⟨id, key, amount⟩] := by
    unfold grants
    rw [Table.rows_insert hitems, map_append]
    rfl
  have hzero : L.returned id key = 0 := by
    refine returned_eq_zero fun c hc hid ↦ ?_
    obtain ⟨s, hs, hne⟩ := hL.credited_to c hc
    rw [hid, hheld] at hs
    exact hne (Option.some.inj hs).symm
  have hkeys : ∀ p ∈ L.pools.rows, ∃ p' ∈ pools.rows, p'.key = p.key := by
    intro p hp
    refine ⟨_, (Table.mem_update hpools).2 ⟨p, hp, rfl⟩, ?_⟩
    split <;> rfl
  refine ⟨fun g hg ↦ ?_, fun g hg ↦ ?_, hL.credited_to, fun c hc ↦ ?_, fun p' hp' ↦ ?_,
    fun g hg s hs ↦ ?_⟩
  · rcases mem_append.1 (hgrants ▸ hg) with hold | hnew
    · exact hL.granted_to g hold
    · rw [mem_singleton.1 hnew]
      show (L.stateOf id).isSome = true
      rw [hheld]
      rfl
  · rcases mem_append.1 (hgrants ▸ hg) with hold | hnew
    · obtain ⟨p, hp, hkey⟩ := hL.granted_from g hold
      obtain ⟨p', hp', hkey'⟩ := hkeys p hp
      exact ⟨p', hp', hkey'.trans hkey⟩
    · rw [mem_singleton.1 hnew]
      obtain ⟨p', hp', hkey'⟩ := hkeys p₀ hp₀
      exact ⟨p', hp', hkey'.trans hcover.1⟩
  · obtain ⟨g, hg, hfor⟩ := hL.credited_for c hc
    exact ⟨g, hgrants ▸ mem_append_left _ hg, hfor⟩
  · rw [outstanding_grant hgrants rfl hzero]
    obtain ⟨p, hp, rfl⟩ := (Table.mem_update hpools).1 hp'
    have hbalanced := hL.balanced p hp
    by_cases hkey : p.key = key
    · -- the only pool with this key is the one that has enough
      have hsame : p = p₀ := Table.eq_of_clash hp hp₀ (by
        simp [poolSchema, hkey, hcover.1])
      subst hsame
      simp only [PoolRow.covers, hkey, hcover.2, decide_true, Bool.and_self, if_true] at hbalanced ⊢
      omega
    · simp only [PoolRow.covers, hkey, decide_false, Bool.false_and, Bool.false_eq_true, if_false,
        if_neg (Ne.symm hkey)] at hbalanced ⊢
      omega
  · rcases mem_append.1 (hgrants ▸ hg) with hold | hnew
    · exact hL.returns g hold s hs
    · rw [mem_singleton.1 hnew] at hs ⊢
      obtain rfl : ReservationState.held = s := Option.some.inj (hheld.symm.trans hs)
      exact hzero

theorem Resolves.conserves {s : ReservationState} (h : Resolves id s L L') (hL : L.Conserves) :
    L'.Conserves := by
  obtain ⟨amount, hamount, L₁, hdrains, hpools, hgrants, hcredits⟩ := h.drains
  have hgrants' : L'.grants = L.grants := hgrants.trans hdrains.grants
  have hstates : ∀ id', (L.stateOf id').isSome → (L'.stateOf id').isSome := by
    intro id' hid'
    rw [h.states]
    split
    · rfl
    · exact hid'
  -- nothing was returned for this reservation before
  have hzero : ∀ key, L.returned id key = 0 := by
    intro key
    refine returned_eq_zero fun c hc hid ↦ ?_
    obtain ⟨s', hs', hne⟩ := hL.credited_to c hc
    rw [hid, h.held] at hs'
    exact hne (Option.some.inj hs').symm
  refine ⟨fun g hg ↦ ?_, fun g hg ↦ ?_, fun c hc ↦ ?_, fun c hc ↦ ?_, ?_, fun g hg s' hs' ↦ ?_⟩
  · exact hstates _ (hL.granted_to g (hgrants' ▸ hg))
  · obtain ⟨p, hp, hkey⟩ := hL.granted_from g (hgrants' ▸ hg)
    obtain ⟨p', hp', hkey', -⟩ := hdrains.pools p hp
    exact ⟨p', hpools ▸ hp', hkey'.trans hkey⟩
  · rw [hcredits, hdrains.credits] at hc
    rcases mem_append.1 hc with hold | hnew
    · obtain ⟨s', hs', hne⟩ := hL.credited_to c hold
      refine ⟨s', ?_, hne⟩
      rw [h.states, if_neg]
      · exact hs'
      · intro hid
        rw [hid, h.held] at hs'
        exact hne (Option.some.inj hs').symm
    · obtain ⟨c', -, rfl⟩ := mem_map.1 hnew
      exact ⟨s, by rw [h.states, if_pos rfl], h.ended⟩
  · rw [hgrants']
    rw [hcredits, hdrains.credits] at hc
    rcases mem_append.1 hc with hold | hnew
    · exact hL.credited_for c hold
    · obtain ⟨c', hc', rfl⟩ := mem_map.1 hnew
      obtain ⟨item, hitem, rfl⟩ := mem_map.1 hc'
      exact ⟨item.grant id, grant_mem_of_reservationItems hitem, rfl, rfl⟩
  · have hbalanced : L₁.Balanced := by
      refine hdrains.balanced (fun c hc ↦ ?_) hL.balanced
      obtain ⟨item, hitem, rfl⟩ := mem_map.1 hc
      exact ⟨item.grant id, grant_mem_of_reservationItems hitem, rfl, rfl⟩
    intro p hp
    rw [outstanding_congr hgrants hcredits]
    exact hbalanced p (hpools ▸ hp)
  · have hg : g ∈ L.grants := hgrants' ▸ hg
    rw [returned_congr hcredits]
    rw [h.states] at hs'
    split at hs'
    · rename_i hid
      obtain rfl := Option.some.inj hs'
      obtain ⟨item, hitem, rfl⟩ := mem_reservationItems hg hid
      have hkeys : (((L.reservationItems id).map fun item ↦ (item.key, amount item)).map
          (·.1)).Nodup := by
        rw [map_map]
        exact L.reservationItems_keys_nodup id
      have hreturned := hdrains.returned_eq hkeys (mem_map_of_mem hitem) (hzero _)
      show s.Returns item.grantedAmount (L₁.returned id item.key)
      rw [hreturned]
      exact hamount item hitem
    · rename_i hid
      rw [hdrains.returned_other hid]
      exact hL.returns g hg s' hs'

/-- **Every move keeps the invariant.** -/
theorem Moves.conserves (h : Moves L L') (hL : L.Conserves) : L'.Conserves := by
  cases h with
  | idle h => exact h.conserves hL
  | define h => exact hL.define h
  | openHeld h hheld => exact hL.openHeld h
  | take hheld hpools hcovers hitems => exact hL.take hheld hpools hcovers hitems
  | resolve h => exact h.conserves hL

end Ledger

end FamiliarAi
