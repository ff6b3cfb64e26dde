import FamiliarAi.Reservation.Ledger

/-!
# What the ledger operations do when they succeed

One lemma for each statement and each operation of the ledger: from a successful run, the ledger it
left in terms of the ledger it found. The invariants of the ledger are derived from these lemmas and
never unfold an operation.

What conservation is about is the list of **grants** of a ledger: which reservation was granted how
much of which pool. Observing consumption rewrites an item but never its grant.
-/

namespace FamiliarAi

open Relational List

variable {id : String} {L : Ledger}

/-- What an item says was taken from a pool, and for whom. -/
structure Grant where
  reservationId : String
  pool : PoolKey
  amount : ℕ
  deriving DecidableEq

def ItemRow.grant (i : ItemRow) : Grant :=
  ⟨i.reservationId, i.pool, i.grantedAmount⟩

namespace Ledger

variable {L : Ledger} {id : String}

def grants (L : Ledger) : List Grant :=
  L.items.rows.map ItemRow.grant

theorem mem_grants {g : Grant} :
    g ∈ L.grants ↔ ∃ i ∈ L.items.rows, i.grant = g :=
  List.mem_map

theorem grant_unique {g g' : Grant} (hg : g ∈ L.grants) (hg' : g' ∈ L.grants)
    (hid : g.reservationId = g'.reservationId) (hpool : g.pool = g'.pool) : g = g' := by
  obtain ⟨i, hi, rfl⟩ := mem_grants.1 hg
  obtain ⟨i', hi', rfl⟩ := mem_grants.1 hg'
  have hclash : itemSchema.clash i i' = true := by
    simp only [itemSchema, Bool.and_eq_true, decide_eq_true_eq]
    exact ⟨hid, hpool⟩
  rw [Table.eq_of_clash hi hi' hclash]

theorem nodup_grants (L : Ledger) : L.grants.Nodup := by
  refine Nodup.map_on (fun i hi i' hi' h ↦ ?_) L.items.nodup
  have hclash : itemSchema.clash i i' = true := by
    simp only [ItemRow.grant, Grant.mk.injEq] at h
    simp [itemSchema, h.1, h.2.1]
  exact Table.eq_of_clash hi hi' hclash

theorem reservation_some {r : ReservationRow} (h : L.reservation id = some r) :
    r ∈ L.reservations.rows ∧ r.reservationId = id := by
  obtain ⟨hmem, hid⟩ := Table.find_some h
  exact ⟨hmem, of_decide_eq_true hid⟩

theorem stateOf_isSome_iff :
    (L.stateOf id).isSome ↔ ∃ r ∈ L.reservations.rows, r.reservationId = id := by
  unfold stateOf reservation Table.find
  simp [find?_isSome]

theorem stateOf_of_map {L L' : Ledger} {F : ReservationRow → ReservationRow}
    (h : L'.reservations.rows = L.reservations.rows.map F)
    (hid : ∀ r, (F r).reservationId = r.reservationId) (id : String) :
    L'.stateOf id = (L.reservation id).map fun r ↦ (F r).state := by
  unfold stateOf reservation Table.find
  rw [h, find?_map, Option.map_map]
  congr 2
  funext r
  simp [hid]

end Ledger

/-! ### Statements -/

theorem eq_of_sqlAmount {value amount : ℕ} (h : sqlAmount value = .ok amount) :
    amount = value := by
  unfold sqlAmount at h
  split at h
  · exact (Except.ok.inj h).symm
  · cases h

section Statements

variable {c c' : Connection Ledger FamiliarError} {id : String} {u : Unit}

theorem requireHeld_runs (h : (requireHeld id).Runs c u c') :
    c.store.stateOf id = some .held ∧ c'.store = c.store := by
  obtain ⟨c₁, hstore, h⟩ := h.of_read_bind
  split at h
  · rename_i hheld
    obtain ⟨-, rfl⟩ := h.of_pure
    exact ⟨hheld, hstore⟩
  · exact absurd h Query.not_runs_fail
  · exact absurd h Query.not_runs_fail

theorem event_runs {kind actor detail : String} (h : (event id kind actor detail).Runs c u c') :
    c'.store = { c.store with events := c.store.events ++ [⟨id, kind, actor, detail⟩] } := by
  have hwrite := h.of_write
  split at hwrite
  · exact (Option.some.inj hwrite).symm
  · cases hwrite

theorem updateReservation_runs {f : ReservationRow → ReservationRow}
    (h : (updateReservation id f).Runs c u c') :
    ∃ T, c.store.reservations.update (fun r ↦ r.reservationId = id) f = some T ∧
      c'.store = { c.store with reservations := T } := by
  obtain ⟨T, hT, hstore⟩ := Option.map_eq_some_iff.1 h.of_write
  exact ⟨T, hT, hstore.symm⟩

theorem creditPool_runs {key : PoolKey} {amount : ℕ} (h : (creditPool id key amount).Runs c u c') :
    ∃ T, c.store.pools.update (fun p ↦ p.key = key)
        (fun p ↦ { p with available := p.available + amount }) = some T ∧
      c'.store =
        { c.store with pools := T, credits := c.store.credits ++ [⟨id, key, amount⟩] } := by
  obtain ⟨amount', hsql, hwrite⟩ := h.of_ofExcept_bind
  obtain rfl := eq_of_sqlAmount hsql
  obtain ⟨T, hT, hstore⟩ := Option.map_eq_some_iff.1 hwrite.of_write
  exact ⟨T, hT, hstore.symm⟩

theorem takeGrant_runs {grant : ReservationGrantItem} (h : (takeGrant id grant).Runs c u c') :
    ∃ pools items,
      c.store.pools.update (·.covers grant.key grant.grantedAmount)
        (fun p ↦ { p with available := p.available - grant.grantedAmount }) = some pools ∧
      (∃ p ∈ c.store.pools.rows, p.covers grant.key grant.grantedAmount = true) ∧
      c.store.items.insert
        { reservationId := id, pool := grant.key, requestedAmount := grant.requestedAmount,
          grantedAmount := grant.grantedAmount } = some items ∧
      c'.store = { c.store with pools := pools, items := items } := by
  obtain ⟨amount, hsql, h₁⟩ := h.of_ofExcept_bind
  obtain rfl := eq_of_sqlAmount hsql
  obtain ⟨changed, c₂, hupdate, h₂⟩ := h₁.of_bind
  obtain ⟨rfl, h₃⟩ := h₂.of_ensure_bind
  obtain ⟨requested, hsql', h₄⟩ := h₃.of_ofExcept_bind
  obtain rfl := eq_of_sqlAmount hsql'
  obtain ⟨pools, hpools, hchanged⟩ := Option.map_eq_some_iff.1 hupdate.of_change
  obtain ⟨hcount, hstore⟩ := Prod.mk.inj hchanged
  have hpos : 0 < c.store.pools.count (·.covers grant.key grant.grantedAmount) := by
    rw [hcount]
    exact Nat.one_pos
  have hinsert := h₄.of_write
  split at hinsert
  · obtain ⟨items, hitems, hstore'⟩ := Option.map_eq_some_iff.1 hinsert
    rw [← hstore] at hitems hstore'
    exact ⟨pools, items, hpools, Table.count_pos_iff.1 hpos, hitems, hstore'.symm⟩
  · cases hinsert

end Statements

def ReservationGrantItem.grant (g : ReservationGrantItem) (id : String) : Grant :=
  ⟨id, g.key, g.grantedAmount⟩

theorem Ledger.reservationItems_perm (L : Ledger) (id : String) :
    ((L.reservationItems id).map (·.grant id)).Perm
      (L.grants.filter fun g ↦ g.reservationId = id) := by
  have hgrants : (L.grants.filter fun g ↦ g.reservationId = id) =
      (L.items.rows.filter fun i ↦ i.reservationId = id).map ItemRow.grant := by
    unfold grants
    rw [List.filter_map]
    rfl
  unfold reservationItems
  rw [hgrants, List.map_map]
  refine Perm.trans (Perm.of_eq ?_)
    ((perm_insertionSort (fun i i' ↦ i.pool.Before i'.pool) _).map ItemRow.grant)
  refine map_congr_left fun i hi ↦ ?_
  have hid : i.reservationId = id := by
    simpa using (mem_filter.1 ((mem_insertionSort _).1 hi)).2
  simp [ReservationGrantItem.grant, ReservationGrantItem.key, ItemRow.grant, hid]

theorem Ledger.mem_reservationItems {g : Grant} (hg : g ∈ L.grants) (hid : g.reservationId = id) :
    ∃ item ∈ L.reservationItems id, item.grant id = g := by
  have hmem := (L.reservationItems_perm id).mem_iff.2 (mem_filter.2 ⟨hg, by simpa using hid⟩)
  exact List.mem_map.1 hmem

theorem Ledger.grant_mem_of_reservationItems {item : ReservationGrantItem}
    (h : item ∈ L.reservationItems id) : item.grant id ∈ L.grants :=
  (mem_filter.1 ((L.reservationItems_perm id).mem_iff.1 (List.mem_map_of_mem h))).1

theorem Ledger.reservationItems_keys_nodup (L : Ledger) (id : String) :
    ((L.reservationItems id).map (·.key)).Nodup := by
  have hnodup : ((L.reservationItems id).map (·.grant id)).Nodup :=
    (L.reservationItems_perm id).nodup_iff.2 (L.nodup_grants.filter _)
  refine Nodup.map_on (fun a ha b hb hkey ↦ ?_) (Nodup.of_map _ hnodup)
  have hgrant : a.grant id = b.grant id :=
    grant_unique (grant_mem_of_reservationItems ha) (grant_mem_of_reservationItems hb) rfl hkey
  exact inj_on_of_nodup_map hnodup ha hb hgrant

end FamiliarAi
