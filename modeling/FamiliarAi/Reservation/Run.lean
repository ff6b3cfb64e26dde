import FamiliarAi.Reservation.Refinement

/-!
# Runs of the ledger

What holds after every sequence of ledger calls, whatever the engine does to their statements: the
capacity law in the terms of the durable rows, and that a reservation ends at most once and never
gives back more than it took.
-/

namespace FamiliarAi

open Relational Relation

namespace Ledger

variable {L : Ledger} {id : String} {key : PoolKey}

def heldOn (L : Ledger) (key : PoolKey) : ℤ :=
  (L.grants.map fun g ↦
    if g.pool = key ∧ L.stateOf g.reservationId = some .held then (g.amount : ℤ) else 0).sum

/-- What settled reservations were granted from a pool and did not return. -/
def consumedOn (L : Ledger) (key : PoolKey) : ℤ :=
  (L.grants.map fun g ↦
    if g.pool = key ∧ L.stateOf g.reservationId = some .committed then
      (g.amount : ℤ) - L.returned g.reservationId g.pool
    else 0).sum

def granted (L : Ledger) (id : String) (key : PoolKey) : ℕ :=
  (L.grants.map fun g ↦ if g.reservationId = id ∧ g.pool = key then g.amount else 0).sum

/-- How often a reservation leaves the state `held` during a run. -/
def departures (id : String) (L : Ledger) :
    List (LedgerCall × List (Option FamiliarError)) → ℕ
  | [] => 0
  | call :: calls =>
    (if L.stateOf id = some .held ∧ (L.step call).stateOf id ≠ some .held then 1 else 0) +
      departures id (L.step call) calls

theorem conserves_empty : (empty : Ledger).Conserves where
  granted_to := by simp [grants, empty]
  granted_from := by simp [grants, empty]
  credited_to := by simp [empty]
  credited_for := by simp [empty]
  balanced p hp := by simp [empty] at hp
  returns := by simp [grants, empty]

theorem step_moves (L : Ledger) (call : LedgerCall × List (Option FamiliarError)) :
    ReflTransGen Moves L (L.step call) :=
  call.1.query_moves ⟨L, call.2⟩

theorem run_moves (L : Ledger) (calls : List (LedgerCall × List (Option FamiliarError))) :
    ReflTransGen Moves L (L.run calls) := by
  induction calls generalizing L with
  | nil => exact .refl
  | cons call calls ih => exact (L.step_moves call).trans (ih _)

theorem run_conserves_of (hL : L.Conserves)
    (calls : List (LedgerCall × List (Option FamiliarError))) : (L.run calls).Conserves :=
  conserves_of_moves (L.run_moves calls) hL

theorem Conserves.outstanding_eq (hL : L.Conserves) (key : PoolKey) :
    L.outstanding key = L.heldOn key + L.consumedOn key := by
  unfold outstanding heldOn consumedOn
  rw [← List.sum_map_add]
  refine congrArg List.sum (List.map_congr_left fun g hg ↦ ?_)
  by_cases hkey : g.pool = key
  · obtain ⟨s, hs⟩ := Option.isSome_iff_exists.1 (hL.granted_to g hg)
    have hreturns := hL.returns g hg s hs
    cases s with
    | held =>
      simp only [ReservationState.Returns] at hreturns
      rw [hkey] at hreturns
      simp [hkey, hs, hreturns]
    | committed => simp [hkey, hs]
    | released | expired | recovered =>
      simp only [ReservationState.Returns] at hreturns
      rw [hkey] at hreturns
      simp [hkey, hs, hreturns]
  · simp [hkey]

theorem granted_eq {g : Grant} (hg : g ∈ L.grants) : L.granted g.reservationId g.pool = g.amount := by
  have hsingle := Table.sum_map_eq_of_single (fun _ ↦ 0)
    (fun g' ↦ if g'.reservationId = g.reservationId ∧ g'.pool = g.pool then g'.amount else 0)
    L.nodup_grants hg fun g' hg' hne ↦ if_neg fun h ↦ hne (grant_unique hg' hg h.1 h.2)
  simp only [List.map_const', List.sum_replicate, nsmul_zero, zero_add, add_zero, and_self,
    if_true] at hsingle
  exact hsingle

theorem Conserves.returned_le (hL : L.Conserves) (id : String) (key : PoolKey) :
    L.returned id key ≤ L.granted id key := by
  by_cases h : ∃ g ∈ L.grants, g.reservationId = id ∧ g.pool = key
  · obtain ⟨g, hg, rfl, rfl⟩ := h
    obtain ⟨s, hs⟩ := Option.isSome_iff_exists.1 (hL.granted_to g hg)
    have hreturns := hL.returns g hg s hs
    rw [granted_eq hg]
    cases s with
    | held =>
      simp only [ReservationState.Returns] at hreturns
      omega
    | committed => exact hreturns
    | released | expired | recovered => exact hreturns.le
  · -- what was never granted was never returned
    have hzero : L.returned id key = 0 := by
      refine List.sum_eq_zero fun x hx ↦ ?_
      obtain ⟨c, hc, rfl⟩ := List.mem_map.1 hx
      refine if_neg fun hif ↦ h ?_
      obtain ⟨g, hg, hid, hpool⟩ := hL.credited_for c hc
      exact ⟨g, hg, hid.trans hif.1, hpool.trans hif.2⟩
    rw [hzero]
    exact Nat.zero_le _

/-- A reservation that has ended does not leave the state `held` again. -/
theorem departures_of_ended {s : ReservationState} (hs : L.stateOf id = some s) (hended : s ≠ .held)
    (calls : List (LedgerCall × List (Option FamiliarError))) : departures id L calls = 0 := by
  induction calls generalizing L with
  | nil => rfl
  | cons call calls ih =>
    obtain ⟨s', hs', hkeep⟩ := advances_of_moves (L.step_moves call) id s hs
    rw [hkeep hended] at hs'
    rw [departures, ih hs', hs, if_neg fun h ↦ hended (Option.some.inj h.1)]

theorem departures_le_one (id : String) (L : Ledger)
    (calls : List (LedgerCall × List (Option FamiliarError))) : departures id L calls ≤ 1 := by
  induction calls generalizing L with
  | nil => exact Nat.zero_le _
  | cons call calls ih =>
    rw [departures]
    split
    · rename_i hleave
      obtain ⟨s', hs', -⟩ := advances_of_moves (L.step_moves call) id .held hleave.1
      rw [departures_of_ended hs' fun hheld ↦ hleave.2 (hs'.trans (congrArg some hheld))]
    · rw [Nat.zero_add]
      exact ih _

/-- **Conservation of capacity over every run.** After any sequence of ledger calls, with any engine
faults, a pool has between nothing and its capacity available; its capacity is what is available,
what held reservations were granted and what settled reservations did not return. A reservation
leaves the state `held` at most once, and returns to a pool at most what it was granted from it. -/
theorem run_conservation (calls : List (LedgerCall × List (Option FamiliarError))) :
    (∀ p ∈ (run empty calls).pools.rows, 0 ≤ p.available ∧ p.available ≤ p.capacity ∧
      p.capacity =
        p.available + (run empty calls).heldOn p.key + (run empty calls).consumedOn p.key) ∧
    ∀ id, departures id empty calls ≤ 1 ∧
      ∀ key, (run empty calls).returned id key ≤ (run empty calls).granted id key := by
  have hconserves := run_conserves_of conserves_empty calls
  refine ⟨fun p hp ↦ ?_, fun id ↦ ⟨departures_le_one id _ _, hconserves.returned_le id⟩⟩
  have hcheck := Table.check_of_mem hp
  simp only [poolSchema, Bool.and_eq_true, decide_eq_true_eq] at hcheck
  refine ⟨hcheck.1.2, hcheck.2, ?_⟩
  rw [add_assoc, ← hconserves.outstanding_eq]
  exact hconserves.balanced p hp

end Ledger

end FamiliarAi
