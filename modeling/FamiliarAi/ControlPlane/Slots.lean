import FamiliarAi.ControlPlane.Repository

/-!
# Slot accounting of the control plane

Which executions take up a slot is kept twice: in the states of the executions, and in the
reservations they hold. The scheduling operations are seen here as sequences of a few moves on the
two (`ControlStore.Moves`): an execution is queued, claimed, left as a live orphan, or it leaves its
slot. Every move keeps the two accounts in step (`ControlStore.Slotted`) and leaves an execution that
has ended alone.
-/

namespace FamiliarAi

open Relational Relation

namespace ControlStore

variable {S S' S'' : ControlStore} {id id' : String}

/-- The state lookup after the execution `id` is moved to `s`. -/
def Becomes (S S' : ControlStore) (id : String) (s : ExecutionState) : Prop :=
  ∀ id', S'.stateOf id' = if id' = id then some s else S.stateOf id'

/-- **One move of the scheduler**: what happens to the states and to the held reservations. -/
inductive Moves (S S' : ControlStore) : Prop
  /-- Neither changes. -/
  | keep (hstate : ∀ id, S'.stateOf id = S.stateOf id) (hholds : ∀ id, S'.holds id = S.holds id)
  | queue (id : String) (hnew : S.stateOf id = none) (hstate : Becomes S S' id .queued)
      (hholds : ∀ id, S'.holds id = S.holds id)
  | claim (id : String) (hqueued : S.stateOf id = some .queued) (hstate : Becomes S S' id .running)
      (hholds : ∀ id', S'.holds id' = S.holds id' + if id' = id then 1 else 0)
  | leave (id : String) (s : ExecutionState)
      (hfrom : S.stateOf id = some .running ∨ S.stateOf id = some .queued)
      (hfree : s.occupies = false) (hstate : Becomes S S' id s)
      (hholds : ∀ id', S'.holds id' = S.holds id' - if id' = id then 1 else 0)
  | orphan (id : String) (hrunning : S.stateOf id = some .running)
      (hstate : Becomes S S' id .ambiguousLiveOrphan) (hholds : ∀ id, S'.holds id = S.holds id)

/-- **The invariant of the slots**: the executions that take up a slot hold one reservation each,
and nothing else holds one. -/
def Slotted (S : ControlStore) : Prop :=
  ∀ id, S.holds id = if (S.stateOf id).any ExecutionState.occupies then 1 else 0

theorem Moves.slotted (h : Moves S S') (hS : S.Slotted) : S'.Slotted := by
  intro id'
  have hid := hS id'
  cases h with
  | keep hstate hholds => rw [hholds, hstate, hid]
  | queue id hnew hstate hholds =>
    rw [hholds, hstate, hid]
    by_cases heq : id' = id
    · simp [heq, hnew]
    · simp [heq]
  | claim id hqueued hstate hholds =>
    rw [hholds, hstate, hid]
    by_cases heq : id' = id
    · simp [heq, hqueued]
    · simp [heq]
  | leave id s hfrom hfree hstate hholds =>
    rw [hholds, hstate, hid]
    by_cases heq : id' = id
    · rcases hfrom with hfrom | hfrom
      · simp [heq, hfrom, hfree]
      · simp [heq, hfrom, hfree]
    · simp [heq]
  | orphan id hrunning hstate hholds =>
    rw [hholds, hstate, hid]
    by_cases heq : id' = id
    · simp [heq, hrunning]
    · simp [heq]

theorem Moves.terminal {s : ExecutionState} (h : Moves S S') (hs : S.stateOf id' = some s)
    (hterminal : s.IsTerminal) : S'.stateOf id' = some s := by
  have hne : ∀ id : String, (S.stateOf id = none ∨ S.stateOf id = some .queued ∨
      S.stateOf id = some .running) → id' ≠ id := by
    rintro id hid rfl
    rw [hs] at hid
    rcases hid with hid | hid | hid
    · cases hid
    · cases hid
      exact hterminal
    · cases hid
      exact hterminal
  cases h with
  | keep hstate hholds => rw [hstate, hs]
  | queue id hnew hstate hholds => rw [hstate, if_neg (hne id (.inl hnew)), hs]
  | claim id hqueued hstate hholds => rw [hstate, if_neg (hne id (.inr (.inl hqueued))), hs]
  | leave id s hfrom hfree hstate hholds => rw [hstate, if_neg (hne id (.inr hfrom.symm)), hs]
  | orphan id hrunning hstate hholds => rw [hstate, if_neg (hne id (.inr (.inr hrunning))), hs]

/-! ### Statements that move nothing -/

/-- The executions and the reservations are the same. -/
structure Keeps (S S' : ControlStore) : Prop where
  executions : S'.executions = S.executions
  reservations : S'.reservations = S.reservations

theorem Keeps.refl (S : ControlStore) : Keeps S S := ⟨rfl, rfl⟩

theorem Keeps.trans (h : Keeps S S') (h' : Keeps S' S'') : Keeps S S'' :=
  ⟨h'.executions.trans h.executions, h'.reservations.trans h.reservations⟩

theorem Keeps.execution (h : Keeps S S') (id : String) : S'.execution id = S.execution id := by
  show S'.executions.find _ = _
  rw [h.executions]
  rfl

theorem Keeps.stateOf (h : Keeps S S') (id : String) : S'.stateOf id = S.stateOf id := by
  show (S'.execution id).map _ = _
  rw [h.execution]
  rfl

theorem Keeps.holds (h : Keeps S S') (id : String) : S'.holds id = S.holds id := by
  show S'.reservations.count _ = _
  rw [h.reservations]
  rfl

theorem Keeps.moves (h : Keeps S S') : Moves S S' :=
  .keep h.stateOf h.holds

theorem Keeps.occupiedIn (h : Keeps S S') (p : String) : S'.occupiedIn p = S.occupiedIn p := by
  show S'.executions.count _ = _
  rw [h.executions]
  rfl

instance : Std.Refl Keeps := ⟨Keeps.refl⟩

instance : IsTrans ControlStore Keeps := ⟨fun _ _ _ ↦ Keeps.trans⟩

end ControlStore

open ControlStore

section Statements

variable {α : Type}

theorem onProjects_keeps (f : Table projectSchema → Option (α × Table projectSchema)) :
    (onProjects f).Respects Keeps :=
  .changePart fun _ _ ↦ ⟨rfl, rfl⟩

theorem onPools_keeps (f : Table poolSchema → Option (α × Table poolSchema)) :
    (onPools f).Respects Keeps :=
  .changePart fun _ _ ↦ ⟨rfl, rfl⟩

theorem onWorkers_keeps (f : Table workerSchema → Option (α × Table workerSchema)) :
    (onWorkers f).Respects Keeps :=
  .changePart fun _ _ ↦ ⟨rfl, rfl⟩

theorem read_keeps (f : ControlStore → α) : (Query.read f : ControlQuery α).Respects Keeps :=
  .of_readOnly .read

theorem pure_keeps (a : α) : (pure a : ControlQuery α).Respects Keeps :=
  .of_readOnly .pure

theorem ensure_keeps (p : Prop) [Decidable p] (e : FamiliarError) :
    (Query.ensure p e : ControlQuery Unit).Respects Keeps :=
  .of_readOnly .ensure

theorem ofExcept_keeps (x : Except FamiliarError α) :
    (Query.ofExcept x : ControlQuery α).Respects Keeps :=
  .of_readOnly .ofExcept

theorem sideTable_keeps : sideTable.Respects Keeps :=
  read_keeps _

theorem insertEvent_keeps (row : ControlEventRow) : (insertEvent row).Respects Keeps := by
  refine .change fun S n S' h ↦ ?_
  split at h
  · obtain ⟨T, -, hr⟩ := Option.map_eq_some_iff.1 h
    rw [← (Prod.mk.inj hr).2]
    exact ⟨rfl, rfl⟩
  · cases h

theorem insertReservationEvent_keeps (row : EventRow) :
    (insertReservationEvent row).Respects Keeps := by
  refine .write fun S S' h ↦ ?_
  split at h
  · rw [← Option.some.inj h]
    exact ⟨rfl, rfl⟩
  · cases h

theorem ensureSlotPool_keeps (poolId : String) (capacity occupied : ℕ) :
    (ensureSlotPool poolId capacity occupied).Respects Keeps :=
  (ofExcept_keeps _).bind fun _ ↦ onPools_keeps _

theorem ensureSlotPool_runs {c c' : Connection ControlStore FamiliarError} {poolId : String}
    {capacity occupied : ℕ} {u : Unit}
    (h : (ensureSlotPool poolId capacity occupied).Runs c u c') :
    ∃ T, c'.store = { c.store with pools := T } := by
  obtain ⟨_, -, hpools⟩ := h.of_ofExcept_bind
  obtain ⟨T, -, hstore⟩ := Query.Runs.of_changePart hpools
  exact ⟨T, hstore⟩

theorem takeSlot_keeps (poolId : String) : (takeSlot poolId).Respects Keeps :=
  (onPools_keeps _).bind fun _ ↦ ensure_keeps _ _

theorem insertSlotItem_keeps (reservationId poolId : String) :
    (insertSlotItem reservationId poolId).Respects Keeps := by
  refine .write fun S S' h ↦ ?_
  split at h
  · obtain ⟨T, -, hr⟩ := Option.map_eq_some_iff.1 h
    rw [← hr]
    exact ⟨rfl, rfl⟩
  · cases h

end Statements

section Reservations

variable {c c' : Connection ControlStore FamiliarError} {u : Unit}

theorem acquireControlPlaneReservation_runs {execution project pool : String}
    {attempt generation : ℕ}
    (h : (acquireControlPlaneReservation execution project attempt generation pool).Runs c u c') :
    c'.store.executions = c.store.executions ∧
      ∀ id, c'.store.holds id = c.store.holds id + if id = execution then 1 else 0 := by
  obtain ⟨_, c₁, hglobal, h₁⟩ := h.of_bind
  obtain ⟨_, c₂, hproject, h₂⟩ := h₁.of_bind
  obtain ⟨sequence, c₃, hsequence, h₃⟩ := h₂.of_bind
  obtain ⟨installation, c₄, hinstallation, h₄⟩ := h₃.of_bind
  obtain ⟨_, c₅, hinsert, h₅⟩ := h₄.of_bind
  have hbefore : Keeps c.store c₄.store :=
    ((((takeSlot_keeps _).of_runs hglobal).trans ((takeSlot_keeps _).of_runs hproject)).trans
      ((read_keeps _).of_runs hsequence)).trans ((read_keeps _).of_runs hinstallation)
  have hafter : Keeps c₅.store c'.store := by
    refine Query.Respects.of_runs ?_ h₅
    exact (insertSlotItem_keeps _ _).bind fun _ ↦ (insertSlotItem_keeps _ _).bind fun _ ↦
      (insertReservationEvent_keeps _).bind fun _ ↦ read_keeps _
  obtain ⟨T, hT, hstore⟩ := Query.Runs.of_changePart hinsert
  obtain ⟨T', hT', hr⟩ := Option.map_eq_some_iff.1 hT
  obtain rfl : T' = T := (Prod.mk.inj hr).2
  refine ⟨?_, fun id ↦ ?_⟩
  · rw [hafter.executions, hstore]
    exact hbefore.executions
  · rw [hafter.holds, ← hbefore.holds, hstore]
    refine (Table.count_insert hT').trans ?_
    congr 1
    refine if_congr ?_ rfl rfl
    simp [ReservationRow.isHeldBy, eq_comm]

theorem heldReservation_spec (S : ControlStore) (execution : String) :
    (S.heldReservation execution = none ∧ S.holds execution = 0) ∨
      ∃ r ∈ S.reservations.rows, r.isHeldBy execution = true ∧
        S.heldReservation execution = some r.reservationId := by
  show (_ = none ∧ _) ∨ ∃ r ∈ _, _ ∧ Option.map _ _ = _
  cases hhead : ((S.reservations.rows.filter (·.isHeldBy execution)).insertionSort
      fun r r' ↦ r'.arrivalSequence ≤ r.arrivalSequence).head? with
  | none =>
    refine .inl ⟨congrArg (Option.map _) hhead, Table.count_eq_zero_iff.2 fun r hr ↦ ?_⟩
    by_contra hheld
    have hfilter : r ∈ S.reservations.rows.filter (·.isHeldBy execution) :=
      List.mem_filter.2 ⟨hr, by simpa using hheld⟩
    have hmem := (List.mem_insertionSort fun r r' : ReservationRow ↦
      r'.arrivalSequence ≤ r.arrivalSequence).2 hfilter
    rw [List.head?_eq_none_iff.1 hhead] at hmem
    cases hmem
  | some r =>
    have hmem := (List.mem_insertionSort _).1 (List.mem_of_head? hhead)
    exact .inr ⟨r, (List.mem_filter.1 hmem).1, (List.mem_filter.1 hmem).2, rfl⟩

theorem releaseControlPlaneReservation_runs {execution reason : String}
    (h : (releaseControlPlaneReservation execution reason).Runs c u c') :
    c'.store.executions = c.store.executions ∧
      ∀ id, c'.store.holds id = c.store.holds id - if id = execution then 1 else 0 := by
  obtain ⟨reservation, c₁, hread, h₁⟩ := h.of_bind
  obtain ⟨hreservation, hstore₁⟩ := hread.of_read
  rcases heldReservation_spec c.store execution with
    ⟨hnone, hzero⟩ | ⟨r, hr, hheld, hsome⟩
  · rw [hreservation, hnone] at h₁
    obtain ⟨-, rfl⟩ := h₁.of_pure
    refine ⟨by rw [hstore₁], fun id ↦ ?_⟩
    rw [hstore₁]
    by_cases heq : id = execution
    · rw [heq, hzero, Nat.zero_sub]
    · rw [if_neg heq, Nat.sub_zero]
  · rw [hreservation, hsome] at h₁
    obtain ⟨items, c₂, hitems, h₂⟩ := h₁.of_bind
    obtain ⟨_, c₃, hpools, h₃⟩ := h₂.of_bind
    obtain ⟨_, c₄, hupdate, hevent⟩ := h₃.of_bind
    have hbefore : Keeps c.store c₃.store := by
      have hloop : Keeps c₂.store c₃.store :=
        (Query.Respects.forEach (fun _ ↦ onPools_keeps _) items).of_runs hpools
      rw [← hstore₁]
      exact ((read_keeps _).of_runs hitems).trans hloop
    have hafter : Keeps c₄.store c'.store := (insertReservationEvent_keeps _).of_runs hevent
    obtain ⟨T, hT, hstore⟩ := Query.Runs.of_changePart hupdate
    obtain ⟨T', hT', heq⟩ := Option.map_eq_some_iff.1 hT
    obtain rfl : T' = T := (Prod.mk.inj heq).2
    rw [hbefore.reservations] at hT'
    refine ⟨?_, fun id ↦ ?_⟩
    · rw [hafter.executions, hstore]
      exact hbefore.executions
    · have hstate : r.state = .held := by
        simp only [ReservationRow.isHeldBy, Bool.and_eq_true, decide_eq_true_eq] at hheld
        exact hheld.2
      -- the reservation id is a key, so exactly this row is released
      have hcount := Table.count_update_single (q := (·.isHeldBy id)) hT' hr (by simp [hstate])
        fun r' hr' hp ↦ by
          simp only [decide_eq_true_eq] at hp
          exact Table.eq_of_clash hr' hr (by simp [reservationSchema, hp.1])
      have hafter' : c'.store.holds id = T'.count (·.isHeldBy id) := by
        rw [hafter.holds, hstore]
        rfl
      rw [hafter']
      have hreleased : ReservationRow.isHeldBy { r with state := .released } id = false := by
        simp [ReservationRow.isHeldBy]
      simp only [hreleased, Bool.false_eq_true, if_false, Nat.add_zero] at hcount
      show _ = c.store.reservations.count (·.isHeldBy id) - _
      rw [← hcount]
      simp only [ReservationRow.isHeldBy, Bool.and_eq_true, decide_eq_true_eq] at hheld ⊢
      by_cases hid : id = execution
      · simp [hid, hheld]
      · have hne : r.owner.executionId ≠ id := fun h ↦ hid (h.symm.trans hheld.1.1)
        simp [hid, hne]

end Reservations

end FamiliarAi
