import FamiliarAi.Drive.Isolation
import FamiliarAi.Drive.Loop
import FamiliarAi.Reservation.Atomicity

/-!
# What the phases of a pass do

One lemma for each phase of a pass of the drive loop: from the state it found, the state it left.
The bounds on attempts and on spending are derived from these lemmas and unfold no phase.
-/

namespace FamiliarAi

namespace LoopState

open Relational

variable {d : DriveSession} {i : PassInput} {s s' s'' : LoopState} {worker : Worker} {e : Execution}
  {targets : List DiscoveredPrd} {r : Drained}

/-- Only the counts of what is completed and delivered, the streaks and the stop reason of the pass
may differ. -/
def Books (s s' : LoopState) : Prop :=
  ∃ completed delivered failureStreaks batchStop, s' =
    { s with completed, delivered, failureStreaks, batchStop }

theorem Books.of (s : LoopState) (completed delivered : ℕ) (failureStreaks : List (String × String))
    (batchStop : Option DriveTermination) :
    Books s { s with completed, delivered, failureStreaks, batchStop } :=
  ⟨completed, delivered, failureStreaks, batchStop, rfl⟩

theorem Books.refl (s : LoopState) : Books s s :=
  .of s _ _ _ _

theorem Books.trans (h : Books s s') (h' : Books s' s'') : Books s s'' := by
  obtain ⟨_, _, _, _, rfl⟩ := h
  obtain ⟨_, _, _, _, rfl⟩ := h'
  exact .of _ _ _ _ _

theorem books_stopBatch (s : LoopState) (reason : DriveTermination) : Books s (s.stopBatch reason) :=
  .of s _ _ _ _

theorem books_stopBatchOr (s : LoopState) (reason : DriveTermination) :
    Books s (s.stopBatchOr reason) :=
  .of s _ _ _ _

theorem books_stopUnless (s : LoopState) (recorded : Bool) : Books s (s.stopUnless recorded) := by
  cases recorded with
  | true => exact .refl s
  | false => exact s.books_stopBatch _

theorem books_stopIfLost (s : LoopState) (heartbeatFailed : Bool) :
    Books s (s.stopIfLost heartbeatFailed) := by
  cases heartbeatFailed with
  | true => exact s.books_stopBatch _
  | false => exact .refl s

theorem books_breakCircuit (s : LoopState) (reason : Option String) :
    Books s (s.breakCircuit reason worker) := by
  fun_cases s.breakCircuit reason worker with
  | case1 | case4 => exact .refl s
  | case2 | case3 => exact .of _ _ _ _ _

theorem books_deliver (s : LoopState) (e : Delivery) : Books s (s.deliver d e) := by
  have hlost := s.books_stopIfLost e.heartbeatFailed
  fun_cases s.deliver d e with
  | case1 => exact .refl s
  | case2 => exact s.books_stopBatchOr _
  | case3 =>
    have hcount : Books (s.stopIfLost e.heartbeatFailed)
        { s.stopIfLost e.heartbeatFailed with
          delivered := (s.stopIfLost e.heartbeatFailed).delivered + 1 } :=
      .of _ _ _ _ _
    exact hlost.trans (hcount.trans ((books_stopUnless _ _).trans (books_stopUnless _ _)))
  | case4 | case5 => exact hlost.trans (books_stopBatch _ _)

theorem books_complete (s : LoopState) (e : Execution) : Books s (s.complete e) := by
  unfold complete
  split
  · exact .of _ _ _ _ _
  · exact .refl s

theorem books_handOver (s : LoopState) (e : Execution) : Books s (s.handOver d e) := by
  unfold handOver
  split
  · exact s.books_stopBatch _
  · split
    · exact s.books_deliver _
    · exact .refl s

theorem books_conclude (d : DriveSession) (worker : Worker) (s : LoopState) (e : Execution) : Books s (s.conclude d e worker) :=
  (s.books_complete e).trans ((books_breakCircuit _ _).trans (books_handOver _ e))

theorem books_concludeEscalation (s : LoopState) (e : Escalation) :
    Books s (s.concludeEscalation d e) := by
  fun_cases s.concludeEscalation d e with
  | case1 => exact s.books_stopBatch _
  | case6 => exact .refl s
  | _ => exact .of _ _ _ _ _

theorem books_flag (s : LoopState) (e : Execution) : Books s (s.flag d e) := by
  unfold flag
  split <;> split <;> split <;> exact .of s _ _ _ _

/-! ### Processing a result -/

/-- What processing a result does. -/
inductive Processes (d : DriveSession) (r : Drained) (worker : Worker) (s : LoopState) :
    LoopState → Prop
  /-- Nothing is known about the attempt, and the pass stops. -/
  | closed {s₁ s' : LoopState} (before : Books s s₁)
    (after : Books (s₁.noteSpending d worker.target.id none none) s')
    (stops : s'.batchStop.isSome) : Processes d r worker s s'
  | accounted {e : Execution} {s₁ s' : LoopState} (execution : r.execution = some e)
    (before : Books s s₁) (after : Books (s₁.account d e worker) s')
    (stops : d.warrant.SpendingUnknown e.cost e.tokens → s'.batchStop.isSome) :
    Processes d r worker s s'
  | escalated {e : Execution} {stronger : StrongerWorker} {s₁ s₂ s' : LoopState}
    (execution : r.execution = some e) (stronger_eq : worker.escalationWorker = some stronger)
    (ladder : ladderEscalation (retainedReason e) = true) (before : Books s s₁)
    (books : Books (s₁.account d e worker) s₂) (admitted : Escalates d e stronger s₂)
    (after : Books (((s₂.note (.escalated worker.target.id (s₂.accounts d s₂.inFlight
      (stronger.estimatedCostMicrousd.getD 0 * 1000) d.maxImplementationTokens))).spend
        e.escalation.cost e.escalation.tokens).noteSpending d worker.target.id e.escalation.cost
          e.escalation.tokens) s') : Processes d r worker s s'

theorem batchStop_flag (s : LoopState) (h : d.warrant.SpendingUnknown e.cost e.tokens) :
    (s.flag d e).batchStop.isSome := by
  unfold flag
  dsimp only
  rcases h with hcost | htokens
  · rw [if_pos hcost]
    split
    · rfl
    · rfl
  · rw [if_pos htokens]
    rfl

theorem escalate_cases (h : s.escalate d e worker = .ok s') :
    Books s s' ∨ ∃ stronger, worker.escalationWorker = some stronger ∧
      ladderEscalation (retainedReason e) = true ∧ Escalates d e stronger s ∧
      s' = s.runEscalation d e.escalation stronger worker := by
  revert h
  fun_cases s.escalate d e worker with
  | case2 => exact nofun
  | case4 =>
    rintro ⟨⟩
    exact .inl (s.books_stopBatch _)
  | case5 stronger hstronger hladder =>
    rintro ⟨⟩
    exact .inr ⟨stronger, hstronger, hladder.1, hladder.2, rfl⟩
  | case1 | case3 | case6 =>
    rintro ⟨⟩
    exact .inl (.refl s)

theorem process_processes {s₁ : LoopState} (hr : r.execution = some e) (hbefore : Books s s₁)
    (h : s₁.process d e worker = .ok s') : Processes d r worker s s' := by
  have hconclude := books_conclude d worker (s₁.account d e worker) e
  revert h
  fun_cases s₁.process d e worker with
  | case1 =>
    rintro ⟨⟩
    exact .closed hbefore (books_stopBatch _ _) rfl
  | case2 _ _ hstate =>
    intro h
    rw [← Except.ok.inj h]
    refine .accounted hr hbefore hconclude fun _ ↦ ?_
    show (handOver d e _).batchStop.isSome
    unfold handOver
    rw [if_pos hstate]
    rfl
  | case3 =>
    rintro ⟨⟩
    exact .accounted hr hbefore (hconclude.trans (books_stopBatch _ _)) fun _ ↦ rfl
  | case4 _ s₂ =>
    rcases hescalate : s₂.escalate d e worker with error | s₃
    · exact nofun
    rintro ⟨⟩
    rcases escalate_cases hescalate with hbooks | ⟨stronger, hstronger, hladder, hadmitted, rfl⟩
    · exact .accounted hr hbefore ((hconclude.trans hbooks).trans (books_flag _ _))
        (batchStop_flag _)
    · exact .escalated hr hstronger hladder hbefore hconclude hadmitted
        ((books_concludeEscalation _ _).trans (books_flag _ _))

/-- Processing a result does what `Processes` says. -/
theorem drain_processes (h : s.drain d r worker = .ok s') :
    Processes d r worker s s' := by
  unfold drain at h
  split at h
  · rw [← Except.ok.inj h]
    refine .closed (.refl s) ?_ ?_
    · refine (books_stopUnless _ r.panicStateRecorded).trans ?_
      unfold closePanicked
      dsimp only
      split
      · exact books_stopBatchOr _ _
      · exact books_stopBatch _ _
    · unfold closePanicked
      dsimp only
      split
      · rfl
      · rfl
  · rename_i e hr
    exact process_processes hr (s.books_stopIfLost _) h

/-- Processing leaves the workers and the recorded stop reason alone. -/
structure Frames (s s' : LoopState) : Prop where
  activeWorkers : s'.activeWorkers = s.activeWorkers
  inFlight : s'.inFlight = s.inFlight
  stopAfterDrain : s'.stopAfterDrain = s.stopAfterDrain

theorem Frames.trans (h : Frames s s') (h' : Frames s' s'') : Frames s s'' where
  activeWorkers := h'.activeWorkers.trans h.activeWorkers
  inFlight := h'.inFlight.trans h.inFlight
  stopAfterDrain := h'.stopAfterDrain.trans h.stopAfterDrain

theorem Books.frames (h : Books s s') : Frames s s' := by
  obtain ⟨_, _, _, _, rfl⟩ := h
  exact ⟨rfl, rfl, rfl⟩

theorem frames_noteSpending (s : LoopState) (id : PrdId) (cost tokens : Option ℕ) :
    Frames s (s.noteSpending d id cost tokens) := by
  unfold noteSpending
  split
  · exact ⟨rfl, rfl, rfl⟩
  · exact ⟨rfl, rfl, rfl⟩

theorem frames_settleWarrant (s : LoopState) (e : Execution) :
    Frames s (s.settleWarrant d e worker) := by
  rw [settleWarrant]
  rcases worker.reservationId with _ | id
  · exact ⟨rfl, rfl, rfl⟩
  -- whatever the settlement comes to, only the ledger and the stop reason of the pass change
  dsimp only
  generalize (settle id _ _).run _ = settled
  obtain ⟨outcome, c⟩ := settled
  cases outcome with
  | ok result => exact ⟨rfl, rfl, rfl⟩
  | error e => exact ⟨rfl, rfl, rfl⟩

theorem frames_account (s : LoopState) (e : Execution) : Frames s (s.account d e worker) :=
  (Frames.mk rfl rfl rfl : Frames s (s.spend e.cost e.tokens)).trans
    ((frames_noteSpending _ _ _ _).trans (frames_settleWarrant _ e))

theorem Processes.frames (h : Processes d r worker s s') : Frames s s' := by
  cases h with
  | closed before after stops =>
    exact before.frames.trans ((frames_noteSpending _ _ _ _).trans after.frames)
  | accounted execution before after stops =>
    exact before.frames.trans ((frames_account _ _).trans after.frames)
  | @escalated e stronger s₁ s₂ _ execution stronger_eq ladder before books admitted after =>
    have hrun : Frames s₂ ((s₂.note (.escalated worker.target.id (s₂.accounts d s₂.inFlight
        (stronger.estimatedCostMicrousd.getD 0 * 1000) d.maxImplementationTokens))).spend
          e.escalation.cost e.escalation.tokens) :=
      ⟨rfl, rfl, rfl⟩
    exact before.frames.trans ((frames_account _ _).trans (books.frames.trans
      (hrun.trans ((frames_noteSpending _ _ _ _).trans after.frames))))

theorem mergeStop_workers (s : LoopState) :
    s.mergeStop.activeWorkers = s.activeWorkers ∧ s.mergeStop.inFlight = s.inFlight := by
  unfold mergeStop
  split
  · exact ⟨rfl, rfl⟩
  · exact ⟨rfl, rfl⟩

/-- What receiving a result does. -/
inductive Collects (d : DriveSession) (i : PassInput) (s : LoopState) : LoopState × Option Exit → Prop
  | left (exit : Exit) : Collects d i s (s, some exit)
  | failed {n : ℕ} {worker : Worker} (inFlight : s.inFlight[n]? = some worker) (exit : Exit) :
    Collects d i s (s.receive n worker, some exit)
  | processed {n : ℕ} {worker : Worker} {r : Drained} {s' : LoopState} (active : s.activeWorkers ≠ 0)
    (received : i.received = some (n, r)) (inFlight : s.inFlight[n]? = some worker)
    (processes : Processes d r worker (s.receive n worker) s') (exit : Option Exit) :
    Collects d i s (s'.mergeStop, exit)

theorem collect_collects (s : LoopState) : Collects d i s (s.collect d i) := by
  unfold collect
  split
  · exact .left _
  rename_i hactive
  split
  · exact .left _
  rename_i n worker r hanswer
  obtain ⟨⟨n', r'⟩, hreceived, hworker⟩ := Option.bind_eq_some_iff.1 hanswer
  obtain ⟨worker', hinFlight, heq⟩ := Option.map_eq_some_iff.1 hworker
  obtain ⟨rfl, rfl, rfl⟩ : n' = n ∧ worker' = worker ∧ r' = r := by simpa using heq
  split
  · exact .failed hinFlight _
  · rename_i s' hdrain
    exact .processed hactive hreceived hinFlight (drain_processes hdrain) _

theorem observe_eq (s : LoopState) : ∃ stopAfterDrain events,
    s.observe d i = { s with stopAfterDrain, log := s.log ++ events } ∧
      ∀ e ∈ events, e.isStop = true := by
  have hlost : ∃ stopAfterDrain events,
      s.observeHeartbeat i = { s with stopAfterDrain, log := s.log ++ events } ∧
        ∀ e ∈ events, e.isStop = true := by
    unfold observeHeartbeat
    split
    · exact ⟨_, _, rfl, fun e he ↦ by rw [List.mem_singleton.1 he]; rfl⟩
    · exact ⟨_, [], by rw [List.append_nil], nofun⟩
  obtain ⟨stop, events, heq, hevents⟩ := hlost
  unfold observe
  rw [heq]
  dsimp only
  split
  · rename_i reason _
    refine ⟨some (stop.getD reason), events ++ [.stopped reason] ++ [.ceilingExhausted reason], ?_,
      fun e he ↦ ?_⟩
    · simp only [stopOr, note, List.append_assoc]
    · simp only [List.mem_append, List.mem_singleton] at he
      rcases he with (he | rfl) | rfl
      · exact hevents e he
      · rfl
      · rfl
  · exact ⟨_, _, rfl, hevents⟩

theorem observe_of_none (h : (s.observe d i).stopAfterDrain = none) :
    s.observe d i = s ∧ s.exhausted d i = none := by
  unfold observe at h ⊢
  dsimp only at h ⊢
  split at h
  · cases h
  · rename_i hexhausted
    unfold observeHeartbeat at h hexhausted ⊢
    split at h
    · cases h
    · rename_i hheartbeat
      rw [if_neg hheartbeat] at hexhausted ⊢
      exact ⟨rfl, hexhausted⟩

/-- What is recorded stays recorded. -/
theorem observe_isSome (h : s.stopAfterDrain.isSome) : (s.observe d i).stopAfterDrain.isSome := by
  rw [Option.isSome_iff_ne_none] at h ⊢
  intro hnone
  exact h ((observe_of_none hnone).1 ▸ hnone)

theorem recordDecisions_eq {decisions : List SelectionDecision}
    (h : recordDecisions i decisions s = some s') :
    ∃ recordedDecisions, s' = { s with recordedDecisions } := by
  induction decisions generalizing s with
  | nil =>
    obtain rfl : s = s' := Option.some.inj h
    exact ⟨_, rfl⟩
  | cons decision decisions ih =>
    unfold recordDecisions at h
    split at h
    · exact ih h
    · split at h
      · obtain ⟨recordedDecisions, rfl⟩ := ih h
        exact ⟨recordedDecisions, rfl⟩
      · cases h

theorem choose_ok (h : s.choose d i = .ok (targets, s')) :
    targets.length ≤ max (s.remaining d) 1 ∧
      (∀ prd ∈ targets, ∃ entries, i.snapshot = .ok entries ∧
        Selectable (s.selectionContext d i) (entries.insertionSort EntryBefore) prd) ∧
      ∃ recordedDecisions widthReported, s' = { s with recordedDecisions, widthReported } := by
  revert h
  fun_cases s.choose d i with
  | case7 discovered _ decisions selection _ hdecisions _ _ _ hselection =>
    rintro ⟨⟩
    obtain ⟨recordedDecisions, rfl⟩ := recordDecisions_eq hdecisions
    obtain ⟨hlength, hselectable⟩ := selectBatch_selectable (congrArg Prod.fst hselection)
    exact ⟨hlength, hselectable, _, _, rfl⟩
  | _ => exact nofun

/-! ### Preparing -/

/-- What asking for the reservation of an attempt does. -/
inductive Reserves (d : DriveSession) (a : Preparation) (jobs : List Worker) (target : DiscoveredPrd)
    (sequence : ℕ) (s : LoopState) : Except Prepared (Option String) → LoopState → Prop
  | unneeded (h : d.componentWarrantRequests = []) : Reserves d a jobs target sequence s (.ok none)
      (s.note (.admitted target.id (s.accounts d (s.inFlight ++ jobs)
        (requested d (d.pool .nanousdBudget)) (requested d (d.pool .uncachedTokens)))))
  | granted {id : String} {arrival : ℕ} {items : List ReservationGrantItem}
      {c : Connection Ledger FamiliarError}
      (h : (acquire a.random (d.owner sequence a.componentId) d.componentWarrantRequests
        .allOrNothing none).Runs ⟨s.ledger, a.acquireFaults⟩ (.granted id arrival items) c) :
      Reserves d a jobs target sequence s (.ok (some id))
        ({ s with ledger := c.store }.note (.admitted target.id (s.accounts d (s.inFlight ++ jobs)
          (requested d (d.pool .nanousdBudget)) (requested d (d.pool .uncachedTokens)))))
  | refused (prepared : Prepared) (h : ∀ worker, prepared ≠ .job worker) :
      Reserves d a jobs target sequence s (.error prepared) s

theorem ne_job_of_skipped (worker : Worker) : Prepared.skipped ≠ .job worker := by
  intro h
  cases h

theorem ne_job_of_halted (exit : Exit) (worker : Worker) : Prepared.halted exit ≠ .job worker := by
  intro h
  cases h

theorem reserveWarrant_reserves (a : Preparation) (jobs : List Worker) (target : DiscoveredPrd)
    (sequence : ℕ) (s : LoopState) :
    Reserves d a jobs target sequence s (s.reserveWarrant d a jobs target sequence).1
      (s.reserveWarrant d a jobs target sequence).2 := by
  unfold reserveWarrant
  dsimp only
  split
  · rename_i hnone
    exact .unneeded hnone
  · generalize hrun : (acquire a.random (d.owner sequence a.componentId) d.componentWarrantRequests
      .allOrNothing none).run ⟨s.ledger, a.acquireFaults⟩ = result
    obtain ⟨outcome, c⟩ := result
    rcases outcome with e | outcome
    · have hstore : c.store = s.ledger := acquire_atomic _ _ _ _ _ _ _ _ hrun
      dsimp only
      rw [hstore]
      exact .refused _ (ne_job_of_halted _)
    cases outcome with
    | granted id arrival items => exact .granted hrun
    | refused unavailable =>
      have hstore : c.store = s.ledger := acquire_refused hrun
      dsimp only
      rw [hstore]
      split
      · exact .refused _ ne_job_of_skipped
      · exact .refused _ (ne_job_of_halted _)

inductive Prepares (d : DriveSession) (i : PassInput) (jobs : List Worker) (target : DiscoveredPrd)
    (s : LoopState) : Prepared → LoopState → Prop
  | passedOver (prepared : Prepared) (attemptedIds : List PrdId)
    (h : ∀ worker, prepared ≠ .job worker) :
    Prepares d i jobs target s prepared { s with attemptedIds }
  | started (prepared : Prepared) (admissible : (i.preparation target).refusal = none)
    (h : ∀ worker, prepared ≠ .job worker) :
    Prepares d i jobs target s prepared (s.start target.id)
  | admitted (prepared : Prepared) {sequence : ℕ} {reservationId : Option String} {s' : LoopState}
    (admissible : (i.preparation target).refusal = none)
    (reserves : Reserves d (i.preparation target) jobs target sequence (s.start target.id)
      (.ok reservationId) s')
    (h : ∀ worker, prepared = .job worker →
      worker.target = target ∧ worker.reservationId = reservationId) :
    Prepares d i jobs target s prepared s'

theorem equip_job {a : Preparation} {target : DiscoveredPrd} {sequence : ℕ}
    {reservationId : Option String} (h : equip i a target sequence reservationId = .job worker) :
    worker.target = target ∧ worker.sequence = sequence ∧ worker.reservationId = reservationId := by
  revert h
  fun_cases equip i a target sequence reservationId with
  | case6 =>
    rintro ⟨⟩
    exact ⟨rfl, rfl, rfl⟩
  | _ => exact nofun

theorem prepare_prepares (jobs : List Worker) (target : DiscoveredPrd) (s : LoopState) :
    Prepares d i jobs target s (s.prepare d i jobs target).1 (s.prepare d i jobs target).2 := by
  fun_cases s.prepare d i jobs target with
  | case1 => exact .passedOver _ s.attemptedIds (ne_job_of_halted _)
  | case2 => exact .passedOver _ _ ne_job_of_skipped
  | case3 _ _ hadmissible => exact .started _ (by simpa using hadmissible) (ne_job_of_halted _)
  | case4 _ _ hadmissible _ sequence _ prepared s' heq =>
    have hreserves := reserveWarrant_reserves (d := d) (i.preparation target) jobs target sequence
      (s.start target.id)
    rw [heq] at hreserves
    cases hreserves with
    | refused prepared h => exact .started _ (by simpa using hadmissible) h
  | case5 _ _ hadmissible _ sequence _ reservationId s' heq =>
    have hreserves := reserveWarrant_reserves (d := d) (i.preparation target) jobs target sequence
      (s.start target.id)
    rw [heq] at hreserves
    exact .admitted _ (by simpa using hadmissible) hreserves
      fun _ h ↦ ⟨(equip_job h).1, (equip_job h).2.2⟩

theorem prepareAll_keeps {I : List DiscoveredPrd → List Worker → LoopState → Prop}
    (hstep : ∀ target targets jobs s prepared s', I (target :: targets) jobs s → Prepares d i jobs target s prepared s' → (∀ worker, prepared = .job worker → I targets (jobs ++ [worker]) s') ∧ ((∀ worker, prepared ≠ .job worker) → I targets jobs s'))
    {jobs : List Worker} (h : I targets jobs s) :
    (∀ jobs', (s.prepareAll d i targets jobs).1 = .ok jobs' →
      I [] jobs' (s.prepareAll d i targets jobs).2) ∧
    ∃ rest jobs', I rest jobs' (s.prepareAll d i targets jobs).2 := by
  induction targets generalizing jobs s with
  | nil =>
    refine ⟨fun jobs' hjobs ↦ ?_, [], jobs, h⟩
    obtain rfl : jobs = jobs' := Except.ok.inj hjobs
    exact h
  | cons target targets ih =>
    obtain ⟨hjob, hnone⟩ := hstep target targets jobs s _ _ h
      (prepare_prepares (d := d) (i := i) jobs target s)
    obtain ⟨prepared, s', hprepare⟩ : ∃ prepared s', s.prepare d i jobs target = (prepared, s') :=
      ⟨_, _, rfl⟩
    rw [hprepare] at hjob hnone
    cases prepared with
    | halted exit =>
      have hhalts : s.prepareAll d i (target :: targets) jobs = (.error exit, s') := by
        rw [prepareAll, hprepare]
      rw [hhalts]
      exact ⟨nofun, targets, jobs, hnone (ne_job_of_halted _)⟩
    | skipped =>
      have hgoes : s.prepareAll d i (target :: targets) jobs = s'.prepareAll d i targets jobs := by
        rw [prepareAll, hprepare]
      rw [hgoes]
      exact ih (hnone ne_job_of_skipped)
    | job worker =>
      have hgoes : s.prepareAll d i (target :: targets) jobs =
          s'.prepareAll d i targets (jobs ++ [worker]) := by
        rw [prepareAll, hprepare]
      rw [hgoes]
      exact ih (hjob worker rfl)

end LoopState

end FamiliarAi
