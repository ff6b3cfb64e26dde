import FamiliarAi.ControlPlane.Scheduling

/-!
# Crash recovery of the control plane

Recovery moves every execution that was running: back to the queue when its worker is gone, and else
to the live orphans. Each execution is one move, and each leaves one event, whose id is made of the
execution and the kind of the recovery alone.
-/

namespace FamiliarAi

open Relational Relation ControlStore

variable {S : ControlStore} {c c' : Connection ControlStore FamiliarError} {live : List String}
  {e : ExecutionRow} {es : List ExecutionRow} {n : ℕ} {u : Unit} {α : Type}

def SameEvents (S S' : ControlStore) : Prop :=
  S'.events = S.events

instance : Std.Refl SameEvents := ⟨fun _ ↦ rfl⟩

instance : IsTrans ControlStore SameEvents := ⟨fun _ _ _ h h' ↦ Eq.trans h' h⟩

theorem onExecutions_sameEvents (f : Table executionSchema → Option (α × Table executionSchema)) :
    (onExecutions f).Respects SameEvents :=
  .changePart fun _ _ ↦ rfl

theorem onWorkers_sameEvents (f : Table workerSchema → Option (α × Table workerSchema)) :
    (onWorkers f).Respects SameEvents :=
  .changePart fun _ _ ↦ rfl

theorem onPools_sameEvents (f : Table poolSchema → Option (α × Table poolSchema)) :
    (onPools f).Respects SameEvents :=
  .changePart fun _ _ ↦ rfl

theorem onReservations_sameEvents
    (f : Table reservationSchema → Option (α × Table reservationSchema)) :
    (onReservations f).Respects SameEvents :=
  .changePart fun _ _ ↦ rfl

theorem recoverWorker_sameEvents (kind : RecoveryKind) (worker : Option String) :
    (recoverWorker kind worker).Respects SameEvents := by
  cases worker with
  | none => exact .of_readOnly .pure
  | some worker =>
    exact (onWorkers_sameEvents _).bind fun _ ↦ .of_readOnly .pure

theorem insertReservationEvent_sameEvents (row : EventRow) :
    (insertReservationEvent row).Respects SameEvents := by
  refine .write fun S S' h ↦ ?_
  split at h
  · rw [← Option.some.inj h]
    rfl
  · cases h

theorem releaseControlPlaneReservation_sameEvents (execution reason : String) :
    (releaseControlPlaneReservation execution reason).Respects SameEvents := by
  refine (Query.Respects.of_readOnly Query.ReadOnly.read).bind fun reservation ↦ ?_
  rcases reservation with _ | reservation
  · exact .of_readOnly Query.ReadOnly.pure
  exact (Query.Respects.of_readOnly Query.ReadOnly.read).bind fun items ↦
    (Query.Respects.forEach (fun _ ↦ onPools_sameEvents _) items).bind fun _ ↦
      (onReservations_sameEvents _).bind fun _ ↦ insertReservationEvent_sameEvents _

theorem recoverWorker_keeps (kind : RecoveryKind) (worker : Option String) :
    (recoverWorker kind worker).Respects Keeps := by
  cases worker with
  | none => exact pure_keeps _
  | some worker => exact (onWorkers_keeps _).bind fun _ ↦ pure_keeps _

theorem insertEvent_runs {row : ControlEventRow} (h : (insertEvent row).Runs c n c') :
    ∃ V, c.store.events.insert row = some V ∧ c'.store = { c.store with events := V } := by
  have hchange := h.of_change
  split at hchange
  · obtain ⟨V, hV, hr⟩ := Option.map_eq_some_iff.1 hchange
    exact ⟨V, hV, (Prod.mk.inj hr).2.symm⟩
  · cases hchange

/-! ### Recovering one execution -/

def recoveryEvent (live : List String) (e : ExecutionRow) : ControlEventRow :=
  let kind := recoveryKind live e.workerIdentity
  ⟨recoveryEventId e.executionId kind, e.executionId, kind.name, .empty⟩

theorem recoverOne_runs (h : (recoverOne live e).Runs c n c') :
    ∃ T V, c.store.executions.update (fun r ↦ r.executionId = e.executionId ∧ r.state = .running)
        (fun r ↦ { r with state := (recoveryKind live e.workerIdentity).state }) = some T ∧
      c'.store.executions = T ∧ c.store.events.insert (recoveryEvent live e) = some V ∧
      c'.store.events = V ∧ ∀ id, c'.store.holds id = c.store.holds id -
        if id = e.executionId ∧ (recoveryKind live e.workerIdentity).state = .queued then 1 else 0 := by
  obtain ⟨changed, c₁, hupdate, h₁⟩ := h.of_bind
  obtain ⟨_, c₂, hworker, h₂⟩ := h₁.of_bind
  obtain ⟨_, c₃, hrelease, h₃⟩ := h₂.of_bind
  obtain ⟨cursor, c₄, hevent, hpure⟩ := h₃.of_bind
  obtain ⟨-, rfl⟩ := hpure.of_pure
  obtain ⟨T, hT, -, hstore⟩ := onExecutions_runs hupdate
  obtain ⟨V, hV, hstore'⟩ := insertEvent_runs hevent
  have hkeep := (recoverWorker_keeps _ _).of_runs hworker
  have hafter : Keeps c₃.store c₄.store := (insertEvent_keeps _).of_runs hevent
  have hevents : c₃.store.events = c.store.events := by
    have hworker' := (recoverWorker_sameEvents _ _).of_runs hworker
    have hupdate' := (onExecutions_sameEvents _).of_runs hupdate
    refine Eq.trans ?_ (hworker'.trans hupdate')
    rcases Query.runs_when.1 hrelease with ⟨-, hrelease⟩ | ⟨-, rfl⟩
    · exact (releaseControlPlaneReservation_sameEvents _ _).of_runs hrelease
    · rfl
  have hrows : c₂.store.executions = T := by rw [hkeep.executions, hstore]
  have hsame : ∀ id, c₂.store.holds id = c.store.holds id := by
    intro id
    rw [hkeep.holds, hstore]
    rfl
  refine ⟨T, V, hT, ?_, hevents ▸ hV, by rw [hstore'], fun id ↦ ?_⟩
  · rw [hafter.executions]
    rcases Query.runs_when.1 hrelease with ⟨-, hrelease⟩ | ⟨-, rfl⟩
    · rw [(releaseControlPlaneReservation_runs hrelease).1, hrows]
    · exact hrows
  · rw [hafter.holds]
    rcases Query.runs_when.1 hrelease with ⟨hqueued, hrelease⟩ | ⟨hqueued, rfl⟩
    · rw [(releaseControlPlaneReservation_runs hrelease).2, hsame]
      simp only [hqueued, and_true]
    · rw [hsame]
      simp only [hqueued, and_false, if_false, Nat.sub_zero]

theorem recoverOne_moves (h : (recoverOne live e).Runs c n c')
    (hrunning : c.store.stateOf e.executionId = some .running) :
    Moves c.store c'.store ∧
      ∀ id, id ≠ e.executionId → c'.store.stateOf id = c.store.stateOf id := by
  obtain ⟨T, V, hT, hexecutions, -, -, hholds⟩ := recoverOne_runs h
  obtain ⟨r, hr, hstate⟩ := Option.map_eq_some_iff.1 hrunning
  have hbecomes : Becomes c.store c'.store e.executionId
      (recoveryKind live e.workerIdentity).state := by
    intro id
    have hset := becomes_of_update (s := (recoveryKind live e.workerIdentity).state) hT
      (fun _ ↦ rfl) (fun r hr ↦ (of_decide_eq_true hr).1) hr
      (by simp [(mem_of_execution hr).2, hstate]) rfl id
    rw [← hset]
    show (c'.store.executions.find _).map _ = _
    rw [hexecutions]
    rfl
  refine ⟨?_, fun id hid ↦ by rw [hbecomes, if_neg hid]⟩
  cases hkind : recoveryKind live e.workerIdentity with
  | runnerInterrupted =>
    rw [hkind] at hbecomes hholds
    refine .leave e.executionId .queued (.inl hrunning) rfl hbecomes fun id ↦ ?_
    rw [hholds]
    simp [RecoveryKind.state]
  | ambiguousLiveOrphan =>
    rw [hkind] at hbecomes hholds
    refine .orphan e.executionId hrunning hbecomes fun id ↦ ?_
    rw [hholds]
    simp [RecoveryKind.state]

def DistinctIds (es : List ExecutionRow) : Prop :=
  es.Pairwise fun e e' ↦ e.executionId ≠ e'.executionId

theorem runningRows_distinctIds : DistinctIds S.runningRows := by
  refine (List.Pairwise.filter _ S.executions.admits.2).imp fun {e e'} h heq ↦ ?_
  simp [executionSchema, heq] at h

theorem stateOf_of_mem_runningRows (he : e ∈ S.runningRows) :
    S.stateOf e.executionId = some .running := by
  obtain ⟨hmem, hrunning⟩ := List.mem_filter.1 he
  rw [stateOf, execution_eq_some hmem rfl, Option.map_some, of_decide_eq_true hrunning]

theorem recoverAll_moves (h : (recoverAll live es).Runs c n c') (hdistinct : DistinctIds es)
    (hrunning : ∀ e ∈ es, c.store.stateOf e.executionId = some .running) :
    ReflTransGen Moves c.store c'.store := by
  induction es generalizing c n with
  | nil =>
    obtain ⟨-, rfl⟩ := h.of_pure
    exact .refl
  | cons e es ih =>
    obtain ⟨changed, c₁, hone, h₁⟩ := h.of_bind
    obtain ⟨rest, -, hrest⟩ := h₁.of_bind_pure
    obtain ⟨hmoves, hothers⟩ := recoverOne_moves hone (hrunning e List.mem_cons_self)
    obtain ⟨hhead, htail⟩ := List.pairwise_cons.1 hdistinct
    refine .head hmoves (ih hrest htail fun e' he' ↦ ?_)
    rw [hothers _ (hhead e' he').symm]
    exact hrunning e' (List.mem_cons_of_mem _ he')

theorem recoverRunning_atomic : (recoverRunning live).Atomic :=
  .bind .read fun _ ↦ .transaction

theorem recoverRunning_runs (h : (recoverRunning live).Runs c n c') :
    ∃ c₁ c₂, c₁.store = c.store ∧ (recoverAll live c.store.runningRows).Runs c₁ n c₂ ∧
      c'.store = c₂.store := by
  obtain ⟨c₁, hstore, htransaction⟩ := h.of_read_bind
  obtain ⟨c₂, c₃, hbegin, hbody, hend⟩ := htransaction.of_transaction
  exact ⟨c₂, c₃, hbegin.trans hstore, hbody, hend⟩

theorem recoverRunning_moves (live : List String) :
    (recoverRunning live).Respects (ReflTransGen Moves) := by
  refine .of_atomic recoverRunning_atomic fun c n c' h ↦ ?_
  obtain ⟨c₁, c₂, hbegin, hbody, hend⟩ := recoverRunning_runs h
  rw [hend, ← hbegin]
  refine recoverAll_moves hbody runningRows_distinctIds fun e he ↦ ?_
  rw [hbegin]
  exact stateOf_of_mem_runningRows he

end FamiliarAi
