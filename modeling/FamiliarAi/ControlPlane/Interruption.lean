import FamiliarAi.ControlPlane.Recovery

/-!
# When crash recovery succeeds

The id of a recovery event is made of the execution and the kind of the recovery, without the attempt.
The second time the same execution is interrupted in the same way its event id is taken, the
insertion fails, and the whole recovery is rolled back: on that store recovery fails from then on.
Nothing else can make it fail on an engine without faults, so recovery succeeds exactly when no
running execution has its coming event already (`recoverRunning_returns_iff`).
-/

namespace FamiliarAi

open Relational Relation ControlStore List

variable {S S' : ControlStore} {c c' : Connection ControlStore FamiliarError} {live : List String}
  {e e' : ExecutionRow} {es : List ExecutionRow} {n : ℕ}

theorem executionId_eq_of_recoveryEvent
    (h : (recoveryEvent live e).eventId = (recoveryEvent live e').eventId) :
    e.executionId = e'.executionId := by
  change recoveryEventId _ _ = recoveryEventId _ _ at h
  unfold recoveryEventId at h
  -- the two kinds differ in their last letter, so the kinds agree and can be cancelled
  have hlast := congrArg (fun s : String ↦ s.toList.getLast?) h
  simp only [String.toList_append, getLast?_append] at hlast
  cases hkind : recoveryKind live e.workerIdentity <;>
    cases hkind' : recoveryKind live e'.workerIdentity <;> rw [hkind, hkind'] at h hlast
  · rwa [String.append_left_inj, String.append_left_inj] at h
  · simp [RecoveryKind.name] at hlast
  · simp [RecoveryKind.name] at hlast
  · rwa [String.append_left_inj, String.append_left_inj] at h

/-- The coming recovery events of the executions are not recorded yet. -/
def Unrecorded (live : List String) (S : ControlStore) (es : List ExecutionRow) : Prop :=
  ∀ e ∈ es, ∀ v ∈ S.events.rows, v.eventId ≠ (recoveryEvent live e).eventId

instance : Decidable (Unrecorded live S es) :=
  inferInstanceAs (Decidable (∀ e ∈ es, ∀ v ∈ S.events.rows, v.eventId ≠ _))

theorem recoverAll_runs (h : (recoverAll live es).Runs c n c') :
    c'.store.events.rows = c.store.events.rows ++ es.map (recoveryEvent live) ∧
      ∀ r ∈ c'.store.executions.rows, r.state = .running →
        r ∈ c.store.executions.rows ∧ ∀ e ∈ es, r.executionId ≠ e.executionId := by
  induction es generalizing c n with
  | nil =>
    obtain ⟨-, rfl⟩ := h.of_pure
    exact ⟨by simp, fun r hr _ ↦ ⟨hr, by simp⟩⟩
  | cons e es ih =>
    obtain ⟨changed, c₁, hone, h₁⟩ := h.of_bind
    obtain ⟨rest, -, hrest⟩ := h₁.of_bind_pure
    obtain ⟨T, V, hT, hexecutions, hV, hevents, -⟩ := recoverOne_runs hone
    obtain ⟨hrows, hrunning⟩ := ih hrest
    refine ⟨?_, fun r hr hstate ↦ ?_⟩
    · rw [hrows, hevents, Table.rows_insert hV, map_cons, append_assoc,
        singleton_append]
    · obtain ⟨hmem, hothers⟩ := hrunning r hr hstate
      rw [hexecutions] at hmem
      obtain ⟨r', hr', heq⟩ := (Table.mem_update hT).1 hmem
      split at heq
      · -- a row that was rewritten is no longer running
        subst heq
        cases hkind : recoveryKind live e.workerIdentity <;>
          simp [hkind, RecoveryKind.state] at hstate
      · rename_i hsame
        obtain rfl : r' = r := heq
        refine ⟨hr', fun e₁ he₁ hid ↦ ?_⟩
        rcases mem_cons.1 he₁ with rfl | he₁
        · exact hsame (by simp [hid, hstate])
        · exact hothers e₁ he₁ hid

theorem unrecorded_of_runs (h : (recoverAll live es).Runs c n c') :
    Unrecorded live c.store es := by
  intro e he v hv heq
  have hpairs := c'.store.events.admits.2
  rw [(recoverAll_runs h).1] at hpairs
  have hclash := (pairwise_append.1 hpairs).2.2 v hv (recoveryEvent live e) (List.mem_map_of_mem he)
  simp [controlEventSchema, heq] at hclash

/-! ### Every other statement succeeds -/

theorem insertEvent_returns (row : ControlEventRow)
    (hexecution : (S.execution row.executionId).isSome)
    (hfresh : ∀ v ∈ S.events.rows, v.eventId ≠ row.eventId) :
    ∃ cursor V, (insertEvent row).Returns S cursor { S with events := V } := by
  obtain ⟨V, hV⟩ := Table.exists_insert (T := S.events) (r := row) rfl fun v hv ↦ by
    simp [controlEventSchema, hfresh v hv]
  exact ⟨V.rows.length, V, .change (by rw [if_pos hexecution, hV]; rfl)⟩

theorem recoverWorker_returns (kind : RecoveryKind) (worker : Option String) :
    ∃ S', (recoverWorker kind worker).Returns S () S' := by
  rcases worker with _ | worker
  · exact ⟨S, .pure⟩
  obtain ⟨W, hW⟩ := Table.exists_update (T := S.workers) (p := fun w ↦ w.workerIdentity = worker)
    (f := fun w ↦ { w with state := kind.workerState, exitReason := some kind.name })
    (fun _ _ _ ↦ rfl) fun _ _ _ _ ↦ rfl
  exact ⟨_, (Query.Returns.changePart (by rw [Table.modify, hW]; rfl)).bind Query.Returns.pure⟩

theorem creditPool_returns (item : ItemRow) :
    ∃ P, (onPools fun T ↦ (T.update (fun p ↦ p.key = item.pool) fun p ↦
      { p with available := min p.capacity (p.available + item.grantedAmount) }).map
        fun T' ↦ ((), T')).Returns S () { S with pools := P } := by
  obtain ⟨P, hP⟩ := Table.exists_update (T := S.pools) (p := fun p ↦ p.key = item.pool)
    (f := fun p ↦ { p with available := min p.capacity (p.available + item.grantedAmount) })
    (fun p hp _ ↦ by
      have hcheck := Table.check_of_mem hp
      simp only [poolSchema, Bool.and_eq_true, decide_eq_true_eq] at hcheck ⊢
      omega)
    fun _ _ _ _ ↦ rfl
  exact ⟨P, .changePart (by rw [hP]; rfl)⟩

theorem releaseControlPlaneReservation_returns (execution reason : String) :
    ∃ S', (releaseControlPlaneReservation execution reason).Returns S () S' := by
  rcases heldReservation_spec S execution with
    ⟨hnone, -⟩ | ⟨r, hr, -, hsome⟩
  · refine ⟨S, Query.Returns.read.bind ?_⟩
    rw [hnone]
    exact .pure
  · obtain ⟨S₁, hpools, hsame⟩ := Query.Returns.forEach
      (I := fun S₁ : ControlStore ↦ S₁.reservations = S.reservations)
      (S.items.rows.filter fun i ↦ i.reservationId = r.reservationId) rfl
      fun item _ S₁ hS₁ ↦ by
        obtain ⟨P, hP⟩ := creditPool_returns (S := S₁) item
        exact ⟨_, hP, hS₁⟩
    obtain ⟨R, hR⟩ := Table.exists_update (T := S₁.reservations)
      (p := fun r' ↦ r'.reservationId = r.reservationId ∧ r'.state = .held)
      (f := fun r' ↦ { r' with state := .released }) (fun _ _ _ ↦ rfl) fun _ _ _ _ ↦ rfl
    -- the reservation is still there to refer to
    have hmem : 0 < R.count fun r' ↦ r'.reservationId = r.reservationId := by
      refine Table.count_pos_iff.2 ⟨_, (Table.mem_update hR).2 ⟨r, hsame ▸ hr, rfl⟩, ?_⟩
      split
      · simp
      · simp
    have hevent : ∃ S', (insertReservationEvent
        ⟨r.reservationId, "released", "control-plane", reason⟩).Returns
          { S₁ with reservations := R } () S' :=
      ⟨_, .write (if_pos hmem)⟩
    obtain ⟨S', hevent⟩ := hevent
    refine ⟨S', Query.Returns.read.bind ?_⟩
    rw [hsome]
    exact Query.Returns.read.bind (hpools.bind
      ((Query.Returns.changePart (by rw [hR]; rfl)).bind hevent))

theorem recoverOne_returns (hexecution : (S.execution e.executionId).isSome)
    (hfresh : ∀ v ∈ S.events.rows, v.eventId ≠ (recoveryEvent live e).eventId) :
    ∃ n S', (recoverOne live e).Returns S n S' := by
  obtain ⟨T, hT⟩ := Table.exists_update (T := S.executions)
    (p := fun r ↦ r.executionId = e.executionId ∧ r.state = .running)
    (f := fun r ↦ { r with state := (recoveryKind live e.workerIdentity).state })
    (fun _ _ _ ↦ rfl) fun _ _ _ _ ↦ rfl
  have hupdate : (onExecutions fun T ↦ T.modify
      (fun r ↦ r.executionId = e.executionId ∧ r.state = .running)
      fun r ↦ { r with state := (recoveryKind live e.workerIdentity).state }).Returns S
        (S.executions.count fun r ↦ r.executionId = e.executionId ∧ r.state = .running)
        { S with executions := T } :=
    .changePart (by rw [Table.modify, hT]; rfl)
  obtain ⟨S₂, hworker⟩ := recoverWorker_returns (S := { S with executions := T })
    (recoveryKind live e.workerIdentity) e.workerIdentity
  have hrelease : ∃ S₃, (Query.when ((recoveryKind live e.workerIdentity).state = .queued)
      (releaseControlPlaneReservation e.executionId "runner_interrupted")).Returns S₂ () S₃ := by
    unfold Query.when
    split
    · exact releaseControlPlaneReservation_returns _ _
    · exact ⟨S₂, .pure⟩
  obtain ⟨S₃, hrelease⟩ := hrelease
  have hexecutions : S₃.executions = T := by
    have hkeep := (recoverWorker_keeps _ _).of_runs hworker
    rcases Query.runs_when.1 hrelease with ⟨-, hrelease⟩ | ⟨-, heq⟩
    · exact (releaseControlPlaneReservation_runs hrelease).1.trans hkeep.executions
    · obtain rfl := congrArg Connection.store heq
      exact hkeep.executions
  have hevents : S₃.events = S.events := by
    have hsame := (recoverWorker_sameEvents _ _).of_runs hworker
    rcases Query.runs_when.1 hrelease with ⟨-, hrelease⟩ | ⟨-, heq⟩
    · exact ((releaseControlPlaneReservation_sameEvents _ _).of_runs hrelease).trans hsame
    · obtain rfl := congrArg Connection.store heq
      exact hsame
  obtain ⟨cursor, V, hevent⟩ := insertEvent_returns (S := S₃) (recoveryEvent live e)
    (by
      show (S₃.executions.find _).isSome
      rw [hexecutions, Table.find_update hT fun _ ↦ rfl, Option.isSome_map]
      exact hexecution)
    (by
      rw [hevents]
      exact hfresh)
  exact ⟨_, _, hupdate.bind (hworker.bind (hrelease.bind (hevent.bind .pure)))⟩

theorem recoverAll_returns (hdistinct : DistinctIds es)
    (hexecutions : ∀ e ∈ es, (S.execution e.executionId).isSome)
    (hfresh : Unrecorded live S es) : ∃ n S', (recoverAll live es).Returns S n S' := by
  induction es generalizing S with
  | nil => exact ⟨0, S, .pure⟩
  | cons e es ih =>
    obtain ⟨hhead, htail⟩ := pairwise_cons.1 hdistinct
    obtain ⟨n, S₁, hone⟩ := recoverOne_returns (hexecutions e mem_cons_self)
      (hfresh e mem_cons_self)
    obtain ⟨T, V, hT, hexecutions₁, hV, hevents, -⟩ := recoverOne_runs hone
    change S₁.executions = T at hexecutions₁
    change S₁.events = V at hevents
    have hrest : ∀ e' ∈ es, (S₁.execution e'.executionId).isSome := by
      intro e' he'
      show (S₁.executions.find _).isSome
      rw [hexecutions₁, Table.find_update hT fun _ ↦ rfl, Option.isSome_map]
      exact hexecutions e' (mem_cons_of_mem _ he')
    -- the event just recorded belongs to another execution
    have hfresh₁ : Unrecorded live S₁ es := by
      intro e' he' v hv heq
      rw [hevents, Table.mem_insert hV] at hv
      rcases hv with hv | rfl
      · exact hfresh e' (mem_cons_of_mem _ he') v hv heq
      · exact hhead e' he' (executionId_eq_of_recoveryEvent heq)
    obtain ⟨rest, S', hall⟩ := ih htail hrest hfresh₁
    exact ⟨_, S', hone.bind (hall.bind .pure)⟩

/-- What recovery is for: it runs to its end, leaves nothing running, and records one event for each
execution that was interrupted. -/
def Recovers (live : List String) (S : ControlStore) : Prop :=
  ∃ n S', (recoverRunning live).Returns S n S' ∧ S'.runningRows = [] ∧
    S'.events.rows = S.events.rows ++ S.runningRows.map (recoveryEvent live)

theorem recovers_iff : Recovers live S ↔ Unrecorded live S S.runningRows := by
  constructor
  · rintro ⟨n, S', hreturns, -, -⟩
    obtain ⟨c₁, c₂, hbegin, hbody, -⟩ := recoverRunning_runs hreturns
    have hfresh := unrecorded_of_runs hbody
    rwa [hbegin] at hfresh
  · intro hfresh
    have hexecutions : ∀ e ∈ S.runningRows, (S.execution e.executionId).isSome := by
      intro e he
      rw [execution_eq_some (mem_filter.1 he).1 rfl]
      rfl
    obtain ⟨n, S', hall⟩ := recoverAll_returns runningRows_distinctIds hexecutions hfresh
    obtain ⟨hevents, hrunning⟩ := recoverAll_runs hall
    refine ⟨n, S', Query.Returns.read.bind hall.transaction, ?_, hevents⟩
    -- what still runs would have to be one of the recovered rows
    refine eq_nil_iff_forall_not_mem.2 fun r hr ↦ ?_
    obtain ⟨hmem, hstate⟩ := mem_filter.1 hr
    obtain ⟨hold, hothers⟩ := hrunning r hmem (of_decide_eq_true hstate)
    exact hothers r (mem_filter.2 ⟨hold, hstate⟩) rfl

namespace ControlStore

/-- **When crash recovery of the control plane succeeds.** After any sequence of scheduling calls,
recovery does what it is for exactly when no running execution has its coming event already. -/
theorem run_recovers_iff (installationId : Option String)
    (calls : List (ControlCall × List (Option FamiliarError))) (live : List String) :
    let S := (initial installationId).run calls
    Recovers live S ↔ ∀ e ∈ S.runningRows, ∀ v ∈ S.events.rows,
      v.eventId ≠ recoveryEventId e.executionId (recoveryKind live e.workerIdentity) := by
  intro S
  exact recovers_iff

/-- An execution is claimed, interrupted, recovered and claimed again. -/
def claimedTwice : ControlStore :=
  (initial none).run
    [(.registerProject "alpha" "/alpha" 0 1, []),
      (.submit "t" ⟨"a1", "alpha", "k1", .detached, 0, "{}"⟩, []),
      (.claimNext 1 1, []), (.recoverRunning [], []), (.claimNext 1 2, [])]

/-- Its second interruption cannot be recovered from, and neither can the store that this leaves. -/
theorem claimedTwice_stuck :
    let recovery := (recoverRunning []).run ⟨claimedTwice, []⟩
    recovery.1 = .error constraintFailed ∧ recovery.2.store = claimedTwice ∧
      ¬Recovers [] claimedTwice := by
  refine ⟨by decide +kernel, by decide +kernel, ?_⟩
  rw [recovers_iff]
  decide +kernel

end ControlStore

end FamiliarAi
