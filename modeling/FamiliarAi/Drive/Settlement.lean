import FamiliarAi.Drive.Records

/-!
# Every attempt is closed

In a run without a pass that gives up an attempt it does not close, every reservation is settled
exactly once and every attempt has an outcome when the loop is left. The workers in flight and the
jobs prepared for them account for all that is open: each of them holds its reservation, and a record
that none of them explains is closed.
-/

namespace FamiliarAi

open Relational List

namespace LoopState

variable {d : DriveSession} {i : RecordedPass} {s s' : LoopState} {jobs : List Worker}
  {worker : Worker} {records : List AttemptRecord} {target : DiscoveredPrd} {e : Execution}
  {reservationId : Option String} {id : String} {r : Drained} {a : Preparation} {sequence : ℕ}
  {L : Ledger}

/-! ### The invariant -/

/-- **The invariant of the records.** The workers in flight and the prepared jobs hold their
reservations, and what is recorded and not closed belongs to one of them. -/
structure Tracked (jobs : List Worker) (s : LoopState) (records : List AttemptRecord) : Prop where
  active : s.activeWorkers = s.inFlight.length
  held : ∀ id ∈ reservations (s.inFlight ++ jobs), s.ledger.stateOf id = some .held
  distinct : (reservations (s.inFlight ++ jobs)).Nodup
  committed : ∀ id, .settled id ∈ records → s.ledger.stateOf id = some .committed
  acquired : ∀ id, .acquired id ∈ records → id ∉ reservations (s.inFlight ++ jobs) →
    records.count (.settled id) = 1
  rows : ∀ n ∈ openRows records, ∃ w ∈ s.inFlight ++ jobs, w.sequence = n

theorem Tracked.closed (h : Tracked jobs s records) (hnone : s.inFlight ++ jobs = []) :
    Closed records s.ledger := by
  have honce : ∀ id, .acquired id ∈ records → records.count (.settled id) = 1 := by
    intro id hid
    refine h.acquired id hid ?_
    rw [hnone]
    exact not_mem_nil
  refine ⟨honce, fun id hid ↦ h.committed id ?_, eq_nil_iff_forall_not_mem.2 fun n hn ↦ ?_⟩
  · refine count_pos_iff.1 ?_
    rw [honce id hid]
    exact Nat.one_pos
  · obtain ⟨w, hw, -⟩ := h.rows n hn
    rw [hnone] at hw
    exact not_mem_nil hw

theorem Tracked.nil (L : Ledger) : Tracked [] (.initial L) [] where
  active := rfl
  held := nofun
  distinct := nodup_nil
  committed := nofun
  acquired := nofun
  rows := nofun

structure SameHolders (s s' : LoopState) : Prop where
  activeWorkers : s'.activeWorkers = s.activeWorkers
  inFlight : s'.inFlight = s.inFlight
  ledger : s'.ledger = s.ledger

theorem SameHolders.trans {s'' : LoopState} (h : SameHolders s s') (h' : SameHolders s' s'') :
    SameHolders s s'' where
  activeWorkers := h'.activeWorkers.trans h.activeWorkers
  inFlight := h'.inFlight.trans h.inFlight
  ledger := h'.ledger.trans h.ledger

theorem Books.sameHolders (h : Books s s') : SameHolders s s' := by
  obtain ⟨_, _, _, _, rfl⟩ := h
  exact ⟨rfl, rfl, rfl⟩

theorem sameHolders_noteSpending (s : LoopState) (id : PrdId) (cost tokens : Option ℕ) :
    SameHolders s (s.noteSpending d id cost tokens) := by
  unfold noteSpending
  split
  · exact ⟨rfl, rfl, rfl⟩
  · exact ⟨rfl, rfl, rfl⟩

theorem Tracked.same (h : Tracked jobs s records) (hsame : SameHolders s s') :
    Tracked jobs s' records where
  active := by rw [hsame.activeWorkers, hsame.inFlight, h.active]
  held := by
    rw [hsame.inFlight, hsame.ledger]
    exact h.held
  distinct := hsame.inFlight ▸ h.distinct
  committed := hsame.ledger ▸ h.committed
  acquired := hsame.inFlight ▸ h.acquired
  rows := hsame.inFlight ▸ h.rows

theorem Tracked.perm {s' : LoopState} {jobs' : List Worker} (h : Tracked jobs s records)
    (hactive : s'.activeWorkers = s'.inFlight.length) (hledger : s'.ledger = s.ledger)
    (hperm : (s'.inFlight ++ jobs').Perm (s.inFlight ++ jobs)) : Tracked jobs' s' records := by
  have hids : (reservations (s'.inFlight ++ jobs')).Perm (reservations (s.inFlight ++ jobs)) :=
    hperm.filterMap _
  refine ⟨hactive, fun id hid ↦ ?_, hids.nodup_iff.2 h.distinct, hledger ▸ h.committed,
    fun id hid hnot ↦ h.acquired id hid fun hmem ↦ hnot (hids.mem_iff.2 hmem), fun n hn ↦ ?_⟩
  · rw [hledger]
    exact h.held id (hids.mem_iff.1 hid)
  · obtain ⟨w, hw, hsequence⟩ := h.rows n hn
    exact ⟨w, hperm.mem_iff.2 hw, hsequence⟩

theorem Tracked.not_settled (h : Tracked jobs s records)
    (hstate : s.ledger.stateOf id ≠ some .committed) : .settled id ∉ records :=
  fun hid ↦ hstate (h.committed id hid)

theorem reservations_append (workers more : List Worker) :
    reservations (workers ++ more) = reservations workers ++ reservations more :=
  filterMap_append

theorem reservations_singleton (worker : Worker) :
    reservations [worker] = worker.reservationId.toList := by
  unfold reservations
  cases hid : worker.reservationId with
  | none => simp [hid]
  | some id => simp [hid]

theorem reservations_idle (hnone : worker.reservationId = none) (workers jobs : List Worker) :
    reservations (workers ++ (jobs ++ [worker])) = reservations (workers ++ jobs) := by
  rw [← append_assoc, reservations_append, reservations_singleton, hnone]
  exact append_nil _

theorem Tracked.replace {worker' : Worker} (h : Tracked (jobs ++ [worker]) s records)
    (hsequence : worker'.sequence = worker.sequence)
    (hid : worker'.reservationId = worker.reservationId) :
    Tracked (jobs ++ [worker']) s records := by
  have hids : reservations (s.inFlight ++ (jobs ++ [worker'])) =
      reservations (s.inFlight ++ (jobs ++ [worker])) := by
    simp only [reservations_append, reservations_singleton, hid]
  refine ⟨h.active, hids ▸ h.held, hids ▸ h.distinct, h.committed, hids ▸ h.acquired, fun n hn ↦ ?_⟩
  obtain ⟨w, hw, rfl⟩ := h.rows n hn
  rw [← append_assoc] at hw ⊢
  rcases mem_append.1 hw with hw | hw
  · exact ⟨w, mem_append_left _ hw, rfl⟩
  · rw [mem_singleton.1 hw]
    exact ⟨worker', mem_append_right _ (mem_singleton_self _), hsequence⟩

/-! ### Records of one attempt -/

theorem Tracked.start {worker : Worker} (h : Tracked jobs s records)
    (hnone : worker.reservationId = none) :
    Tracked (jobs ++ [worker]) s (records ++ [.started worker.sequence]) := by
  have hids := reservations_idle hnone s.inFlight jobs
  refine ⟨h.active, hids ▸ h.held, hids ▸ h.distinct, fun id hid ↦ h.committed id ?_,
    fun id hid hnot ↦ ?_, fun n hn ↦ ?_⟩
  · simpa using hid
  · rw [hids] at hnot
    have honce := h.acquired id (by simpa using hid) hnot
    rw [count_append, honce]
    simp
  · rw [openRows_append] at hn
    rcases mem_append.1 hn with hn | hn
    · obtain ⟨w, hw, hsequence⟩ := h.rows n hn
      refine ⟨w, ?_, hsequence⟩
      rw [← append_assoc]
      exact mem_append_left _ hw
    · refine ⟨worker, by simp, ?_⟩
      exact (mem_singleton.1 hn).symm

theorem Tracked.finish (h : Tracked (jobs ++ [worker]) s records)
    (hnone : worker.reservationId = none) (outcome : String) :
    Tracked jobs s (records ++ [.finished worker.sequence outcome]) := by
  have hids := reservations_idle hnone s.inFlight jobs
  refine ⟨h.active, hids ▸ h.held, hids ▸ h.distinct, fun id hid ↦ h.committed id ?_,
    fun id hid hnot ↦ ?_, fun n hn ↦ ?_⟩
  · simpa using hid
  · have honce := h.acquired id (by simpa using hid) (hids ▸ hnot)
    rw [count_append, honce]
    simp
  · rw [openRows_append] at hn
    obtain ⟨hn, hne⟩ := mem_filter.1 hn
    obtain ⟨w, hw, rfl⟩ := h.rows n hn
    rw [← append_assoc] at hw
    refine ⟨w, (mem_append.1 hw).resolve_right fun hmem ↦ ?_, rfl⟩
    rw [mem_singleton.1 hmem] at hne
    simp at hne

theorem Tracked.acquire {amounts : List (PoolKey × ℕ)} (h : Tracked (jobs ++ [worker]) s records)
    (hnone : worker.reservationId = none) (hopens : Ledger.Opens id amounts s.ledger L) :
    Tracked (jobs ++ [{ worker with reservationId := some id }]) { s with ledger := L }
      (records ++ [.acquired id]) := by
  have hold := reservations_idle hnone s.inFlight jobs
  have hnew : reservations (s.inFlight ++ (jobs ++ [{ worker with reservationId := some id }])) =
      reservations (s.inFlight ++ jobs) ++ [id] := by
    rw [← append_assoc, reservations_append, reservations_singleton]
    rfl
  have hheld := h.held
  have hdistinct := h.distinct
  have hacquired := h.acquired
  rw [hold] at hheld hdistinct hacquired
  -- nobody holds the new reservation yet, and it has not been settled
  have hfresh : id ∉ reservations (s.inFlight ++ jobs) := by
    intro hmem
    have hstate := hheld id hmem
    rw [hopens.fresh] at hstate
    cases hstate
  refine ⟨h.active, fun id' hid' ↦ ?_, ?_, fun id' hid' ↦ ?_, fun id' hid' hnot ↦ ?_, fun n hn ↦ ?_⟩
  · show L.stateOf id' = some .held
    rw [hopens.states]
    rw [hnew] at hid'
    rcases mem_append.1 hid' with hid' | hid'
    · rw [if_neg fun heq : id' = id ↦ hfresh (heq ▸ hid'), hheld id' hid']
    · rw [if_pos (mem_singleton.1 hid')]
  · rw [hnew]
    refine nodup_append.2 ⟨hdistinct, nodup_singleton id, fun a ha b hb heq ↦ hfresh ?_⟩
    rw [← mem_singleton.1 hb, ← heq]
    exact ha
  · have hcommitted := h.committed id' (by simpa using hid')
    show L.stateOf id' = some .committed
    rw [hopens.states, if_neg, hcommitted]
    rintro rfl
    rw [hopens.fresh] at hcommitted
    cases hcommitted
  · rw [hnew, mem_append, mem_singleton, not_or] at hnot
    have hmem : AttemptRecord.acquired id' ∈ records := by
      rcases mem_append.1 hid' with hid' | hid'
      · exact hid'
      · exact absurd (AttemptRecord.acquired.inj (mem_singleton.1 hid')) hnot.2
    rw [count_append, hacquired id' hmem hnot.1]
    simp
  · rw [openRows_append] at hn
    obtain ⟨w, hw, hsequence⟩ := h.rows n hn
    rw [← append_assoc] at hw ⊢
    rcases mem_append.1 hw with hw | hw
    · exact ⟨w, mem_append_left _ hw, hsequence⟩
    · rw [mem_singleton.1 hw] at hsequence
      exact ⟨_, mem_append_right _ (mem_singleton_self _), hsequence⟩

theorem Tracked.settle (h : Tracked [worker] s records) (hid : worker.reservationId = some id)
    (hresolves : Ledger.Resolves id .committed s.ledger L) :
    Tracked [{ worker with reservationId := none }] { s with ledger := L }
      (records ++ [.settled id]) := by
  have hold : reservations (s.inFlight ++ [worker]) = reservations s.inFlight ++ [id] := by
    rw [reservations_append, reservations_singleton, hid]
    rfl
  have hnew : reservations (s.inFlight ++ [{ worker with reservationId := none }]) =
      reservations s.inFlight := by
    rw [reservations_append, reservations_singleton]
    exact append_nil _
  have hheld := h.held
  have hdistinct := h.distinct
  have hacquired := h.acquired
  rw [hold] at hheld hdistinct hacquired
  obtain ⟨hothers, -, hapart⟩ := nodup_append.1 hdistinct
  have hne : ∀ id' ∈ reservations s.inFlight, id' ≠ id :=
    fun id' hid' ↦ hapart id' hid' id (mem_singleton_self id)
  have hunsettled : AttemptRecord.settled id ∉ records := by
    refine h.not_settled ?_
    rw [hheld id (by simp)]
    decide
  refine ⟨h.active, fun id' hid' ↦ ?_, hnew ▸ hothers, fun id' hid' ↦ ?_, fun id' hid' hnot ↦ ?_,
    fun n hn ↦ ?_⟩
  · show L.stateOf id' = some .held
    rw [hnew] at hid'
    rw [hresolves.states, if_neg (hne id' hid'), hheld id' (mem_append_left _ hid')]
  · show L.stateOf id' = some .committed
    rw [hresolves.states]
    split
    · rfl
    · rename_i hother
      refine h.committed id' ((mem_append.1 hid').resolve_right fun hmem ↦ hother ?_)
      exact AttemptRecord.settled.inj (mem_singleton.1 hmem)
  · have hmem : AttemptRecord.acquired id' ∈ records := by simpa using hid'
    rw [hnew] at hnot
    rw [count_append]
    by_cases heq : id' = id
    · rw [heq, count_eq_zero.2 hunsettled]
      simp
    · rw [hacquired id' hmem (by simp [hnot, heq])]
      simp [Ne.symm heq]
  · rw [openRows_append] at hn
    obtain ⟨w, hw, hsequence⟩ := h.rows n hn
    rcases mem_append.1 hw with hw | hw
    · exact ⟨w, mem_append_left _ hw, hsequence⟩
    · rw [mem_singleton.1 hw] at hsequence
      exact ⟨_, mem_append_right _ (mem_singleton_self _), hsequence⟩

/-! ### Preparing -/

/-- What is tracked after a preparation, unless it fails the drive. -/
inductive Tracks (jobs : List Worker) : Prepared × LoopState → List AttemptRecord → Prop
  | job {worker : Worker} {s : LoopState} {records : List AttemptRecord}
    (h : Tracked (jobs ++ [worker]) s records) : Tracks jobs (.job worker, s) records
  | skipped {s : LoopState} {records : List AttemptRecord} (h : Tracked jobs s records) :
    Tracks jobs (.skipped, s) records
  | halted {s : LoopState} {records : List AttemptRecord} (reason : DriveTermination)
    (h : Tracked jobs s records) (hnone : s.inFlight ++ jobs = []) :
    Tracks jobs (.halted (.terminated reason), s) records
  | failed (s : LoopState) (records : List AttemptRecord) (error : DriveError) :
    Tracks jobs (.halted (.failed error), s) records

theorem equip_cases (sequence : ℕ) (h : CleanEquipping i target reservationId) :
    (∃ error, equip i.toPassInput (i.preparation target) target sequence reservationId =
        .halted (.failed error)) ∨
      (equip i.toPassInput (i.preparation target) target sequence reservationId = .skipped ∧
        reservationId = none ∧ i.workspaceOutcomeRecorded target = true) ∨
      ∃ worker, equip i.toPassInput (i.preparation target) target sequence reservationId =
        .job worker := by
  unfold equip
  dsimp only
  split
  · -- the migration version is there
    rename_i hmigration
    rw [Bool.and_eq_true] at hmigration
    have hsome := h.migration hmigration.1
    rw [Option.isSome_iff_ne_none] at hsome
    exact absurd (Option.isNone_iff_eq_none.1 hmigration.2) hsome
  · split
    · rename_i hdiagnostics
      rw [h.diagnostics] at hdiagnostics
      cases hdiagnostics
    · split
      · exact .inl ⟨_, rfl⟩
      · rename_i escalationWorker hroute
        split
        · exact .inl ⟨_, rfl⟩
        · rename_i hrevision
          split
          · rename_i hworktree
            refine .inr (.inl ⟨rfl, (h.worktree _ hroute hrevision).resolve_left fun hcreated ↦ ?_⟩)
            rw [hcreated] at hworktree
            cases hworktree
          · exact .inr (.inr ⟨_, rfl⟩)

theorem Tracked.reserves (h : Tracked (jobs ++ [worker]) s records)
    (hnone : worker.reservationId = none)
    (hreserves : Reserves d a jobs target sequence s (.ok reservationId) s') :
    Tracked (jobs ++ [{ worker with reservationId := reservationId }]) s'
      (records ++ reservationId.toList.map .acquired) := by
  cases hreserves with
  | unneeded hrequests =>
    have hsame : Tracked (jobs ++ [{ worker with reservationId := none }]) s records :=
      h.replace rfl hnone.symm
    rw [Option.toList_none, map_nil, append_nil]
    exact hsame.same ⟨rfl, rfl, rfl⟩
  | granted hrun =>
    have hacquired := h.acquire hnone (acquire_opens hrun)
    exact hacquired.same ⟨rfl, rfl, rfl⟩

theorem reserveWarrant_error {prepared : Prepared}
    (h : s.reserveWarrant d a jobs target sequence = (.error prepared, s')) :
    prepared = .skipped ∨ ∃ error, prepared = .halted (.failed error) := by
  unfold reserveWarrant at h
  dsimp only at h
  split at h
  · cases h
  · split at h
    · cases h
    · split at h
      · cases h
        exact .inl rfl
      · cases h
        exact .inr ⟨_, rfl⟩
    · cases h
      exact .inr ⟨_, rfl⟩

theorem Tracked.prepare (h : Tracked jobs s records) (hclean : CleanPreparation d i jobs target s) :
    Tracks jobs (s.prepare d i.toPassInput jobs target)
      (records ++ s.prepareRecords d i jobs target) := by
  unfold LoopState.prepare prepareRecords
  dsimp only
  rcases hquality : (i.preparation target).qualityRecorded with _ | _
  · simp only [Bool.not_false, if_true, append_nil]
    exact .halted _ h (hclean.quality hquality)
  simp only [Bool.not_true, Bool.false_eq_true, if_false]
  cases hrefusal : (i.preparation target).refusal with
  | some refusal =>
    simp only [Option.isSome_some, if_true, append_nil]
    exact .skipped (h.same ⟨rfl, rfl, rfl⟩)
  | none =>
    simp only [Option.isSome_none, Bool.false_eq_true, if_false]
    have hstart : SameHolders s (s.start target.id) := ⟨rfl, rfl, rfl⟩
    rcases hsequence : (i.preparation target).sequence with _ | sequence
    · dsimp only
      rw [append_nil]
      exact .halted _ (h.same hstart) (hclean.sequence ⟨hquality, hrefusal⟩ hsequence)
    -- the attempt is started, and holds nothing yet
    let attempt : Worker := ⟨target, sequence, none, none, none⟩
    have hstarted : Tracked (jobs ++ [attempt]) (s.start target.id)
        (records ++ [.started sequence]) :=
      (h.same hstart).start rfl
    have hreserves := reserveWarrant_reserves (d := d) (i.preparation target) jobs target sequence
      (s.start target.id)
    dsimp only
    rw [append_cons]
    generalize hreserved : (s.start target.id).reserveWarrant d (i.preparation target) jobs target
      sequence = result at hreserves
    obtain ⟨outcome, s'⟩ := result
    rcases outcome with prepared | reservationId
    · rcases reserveWarrant_error hreserved with rfl | ⟨error, rfl⟩
      · cases hreserves
        exact .skipped (hstarted.finish rfl _)
      · exact .failed _ _ _
    have hequips := hclean.equips ⟨hquality, hrefusal⟩ sequence reservationId hsequence
      (congrArg Prod.fst hreserved)
    have hacquired := hstarted.reserves rfl hreserves
    dsimp only
    rw [← append_assoc]
    rcases equip_cases sequence hequips with
      ⟨error, hequip⟩ | ⟨hequip, rfl, hrecorded⟩ | ⟨worker, hequip⟩
    · rw [hequip]
      exact .failed _ _ _
    · rw [hequip]
      dsimp only
      rw [if_pos hrecorded]
      exact .skipped (hacquired.finish rfl _)
    · obtain ⟨-, hworker, hid⟩ := equip_job hequip
      rw [hequip]
      dsimp only
      rw [append_nil]
      exact .job (hacquired.replace hworker hid)

theorem Tracked.prepareAll {targets : List DiscoveredPrd} (h : Tracked jobs s records)
    (hclean : ∀ p ∈ preparations d i targets jobs s, CleanPreparation d i p.2.1 p.1 p.2.2) :
    (∀ jobs', (s.prepareAll d i.toPassInput targets jobs).1 = .ok jobs' →
      Tracked jobs' (s.prepareAll d i.toPassInput targets jobs).2 (records ++
        (preparations d i targets jobs s).flatMap fun p ↦ prepareRecords d i p.2.1 p.1 p.2.2)) ∧
    ∀ reason, (s.prepareAll d i.toPassInput targets jobs).1 = .error (.terminated reason) →
      Tracked [] (s.prepareAll d i.toPassInput targets jobs).2 (records ++
        (preparations d i targets jobs s).flatMap fun p ↦ prepareRecords d i p.2.1 p.1 p.2.2) ∧
      (s.prepareAll d i.toPassInput targets jobs).2.inFlight = [] := by
  induction targets generalizing jobs s records with
  | nil =>
    refine ⟨fun jobs' hjobs ↦ ?_, fun _ h ↦ by cases h⟩
    obtain rfl : jobs = jobs' := Except.ok.inj hjobs
    show Tracked jobs s (records ++ [])
    rw [append_nil]
    exact h
  | cons target targets ih =>
    have htracks := h.prepare (hclean (target, jobs, s) (by rw [preparations]; exact mem_cons_self))
    unfold LoopState.prepareAll
    rw [preparations] at hclean ⊢
    rw [flatMap_cons, ← append_assoc]
    generalize s.prepare d i.toPassInput jobs target = out at htracks hclean ⊢
    cases htracks with
    | job hjob => exact ih hjob fun p hp ↦ hclean p (mem_cons_of_mem _ hp)
    | skipped hskipped => exact ih hskipped fun p hp ↦ hclean p (mem_cons_of_mem _ hp)
    | @halted s' _ reason hhalted hnone =>
      obtain ⟨hinFlight, rfl⟩ := append_eq_nil_iff.1 hnone
      refine ⟨(fun _ h ↦ by cases h), fun _ _ ↦ ⟨?_, hinFlight⟩⟩
      simpa using hhalted
    | failed s' _ error => exact ⟨(fun _ h ↦ by cases h), fun _ h ↦ by cases h⟩

theorem Tracked.spawn (i : PassInput) (h : Tracked jobs s records) :
    Tracked [] (jobs.foldl (LoopState.spawn i) s) records := by
  induction jobs generalizing s with
  | nil => exact h
  | cons job jobs ih =>
    refine ih (h.perm ?_ rfl ?_)
    · show s.activeWorkers + 1 = (s.inFlight ++ [job]).length
      rw [length_append, h.active]
      rfl
    · show (s.inFlight ++ [job] ++ jobs).Perm (s.inFlight ++ job :: jobs)
      rw [append_assoc]
      rfl

/-- What is tracked after a pass, unless it fails the drive. -/
inductive Passes : LoopState × Option Exit → List AttemptRecord → Prop
  | on {s : LoopState} {records : List AttemptRecord} (h : Tracked [] s records) :
    Passes (s, none) records
  | left {s : LoopState} {records : List AttemptRecord} (reason : DriveTermination)
    (h : Tracked [] s records) (hnone : s.inFlight = []) :
    Passes (s, some (.terminated reason)) records
  | failed (s : LoopState) (records : List AttemptRecord) (error : DriveError) :
    Passes (s, some (.failed error)) records

theorem sameHolders_observe (s : LoopState) (i : PassInput) : SameHolders s (s.observe d i) := by
  obtain ⟨stop, events, heq, -⟩ := observe_eq (d := d) (i := i) s
  rw [heq]
  exact ⟨rfl, rfl, rfl⟩

theorem Tracked.dispatch (h : Tracked [] s records) (hclean : CleanPass d i s) :
    Passes ((s.dispatch d i.toPassInput).2, (s.dispatch d i.toPassInput).1)
      (records ++ (preparing d i s).flatMap fun p ↦ prepareRecords d i p.2.1 p.1 p.2.2) := by
  have hprepares := hclean.prepares
  have hselects := hclean.selects
  unfold LoopState.dispatch preparing at *
  cases hstops : s.stops d i.toPassInput with
  | some reason =>
    -- the loop is left at its top only when no worker is active
    have hactive : s.activeWorkers = 0 := by
      unfold stops at hstops
      split at hstops
      · assumption
      · cases hstops
    rw [h.active] at hactive
    simpa using Passes.left reason h (length_eq_zero_iff.1 hactive)
  | none =>
    rw [hstops] at hprepares
    have hobserve := h.same (sameHolders_observe (d := d) s i.toPassInput)
    dsimp only at hprepares ⊢
    cases hchoose : (s.observe d i.toPassInput).choose d i.toPassInput with
    | error exit =>
      cases exit with
      | terminated reason =>
        have hnone := hselects hstops reason hchoose
        rw [← (sameHolders_observe (d := d) s i.toPassInput).inFlight] at hnone
        simpa using Passes.left reason hobserve hnone
      | failed error => exact .failed _ _ error
    | ok chosen =>
      obtain ⟨targets, s₁⟩ := chosen
      obtain ⟨-, -, recordedDecisions, widthReported, rfl⟩ := choose_ok hchoose
      rw [hchoose] at hprepares
      obtain ⟨hall, hhalted⟩ := Tracked.prepareAll
        (s := { s.observe d i.toPassInput with recordedDecisions, widthReported })
        (hobserve.same ⟨rfl, rfl, rfl⟩) hprepares
      dsimp only
      generalize LoopState.prepareAll d i.toPassInput targets [] _ = out at hall hhalted
      obtain ⟨outcome, s₂⟩ := out
      cases outcome with
      | error exit =>
        cases exit with
        | terminated reason =>
          obtain ⟨htracked, hnone⟩ := hhalted reason rfl
          exact .left reason htracked hnone
        | failed error => exact .failed _ _ error
      | ok jobs => exact .on ((hall jobs rfl).spawn i.toPassInput)

/-! ### Results -/

theorem Tracked.receive {n : ℕ} (h : Tracked [] s records) (hworker : s.inFlight[n]? = some worker) :
    Tracked [worker] (s.receive n worker) records := by
  obtain ⟨hn, hget⟩ := List.getElem?_eq_some_iff.1 hworker
  have hperm : (worker :: s.inFlight.eraseIdx n).Perm s.inFlight := by
    rw [← hget]
    exact getElem_cons_eraseIdx_perm hn
  refine h.perm ?_ rfl ?_
  · show s.activeWorkers - 1 = (s.inFlight.eraseIdx n).length
    rw [length_eraseIdx_of_lt hn, h.active]
  · show (s.inFlight.eraseIdx n ++ [worker]).Perm (s.inFlight ++ [])
    rw [append_nil]
    exact (perm_append_singleton _ _).trans hperm

theorem observation_ne_hold (d : DriveSession) (e : Execution) :
    observation d e ≠ .unknown .holdReservation := by
  unfold observation
  split
  · exact nofun
  · exact nofun

theorem settleRecords_congr (hledger : s'.ledger = s.ledger) :
    settleRecords d e worker s' = settleRecords d e worker s := by
  unfold settleRecords
  rw [hledger]

theorem Tracked.settleWarrant (h : Tracked [worker] s records)
    (hsettles : ∀ id, worker.reservationId = some id → ((FamiliarAi.settle id (observation d e) (d.sessionId ++ ":" ++ toString worker.sequence)).run ⟨s.ledger, e.settleFaults⟩).1.isOk = true)
    :
    Tracked [{ worker with reservationId := none }] (s.settleWarrant d e worker)
      (records ++ settleRecords d e worker s) := by
  unfold LoopState.settleWarrant settleRecords
  rcases hid : worker.reservationId with _ | id
  · have hidle : Tracked [{ worker with reservationId := none }] s records :=
      @Tracked.replace s [] worker records { worker with reservationId := none } h rfl hid.symm
    dsimp only
    rw [append_nil]
    exact hidle
  have hok := hsettles id hid
  dsimp only
  generalize hrun : (FamiliarAi.settle id (observation d e)
    (d.sessionId ++ ":" ++ toString worker.sequence)).run ⟨s.ledger, e.settleFaults⟩ = result at hok ⊢
  obtain ⟨outcome, c⟩ := result
  rcases outcome with error | answer
  · cases hok
  have hresolves := (settle_runs hrun).resolve_right fun hheld ↦ observation_ne_hold d e hheld.1
  exact h.settle hid hresolves

theorem sameHolders_runEscalation (s : LoopState) (e : Escalation) (stronger : StrongerWorker) :
    SameHolders s (s.runEscalation d e stronger worker) := by
  have hspend : SameHolders s ((s.note (.escalated worker.target.id (s.accounts d s.inFlight
      (stronger.estimatedCostMicrousd.getD 0 * 1000) d.maxImplementationTokens))).spend
        e.cost e.tokens) :=
    ⟨rfl, rfl, rfl⟩
  exact hspend.trans ((sameHolders_noteSpending _ _ _ _).trans
    (books_concludeEscalation _ e).sameHolders)

theorem Tracked.escalate (h : Tracked [] s records)
    (hclean : ∀ stronger, worker.escalationWorker = some stronger → ladderEscalation (retainedReason e) = true → Escalates d e stronger s → e.escalation.revisionRead = .ok () → e.escalation.worktreeCreated = true → e.escalation.attemptRecorded = true → e.escalation.outcomeRecorded = true)
    (hescalate : s.escalate d e worker = .ok s') :
    Tracked [] s' (records ++ escalationRecords d i e worker s) := by
  unfold LoopState.escalate at hescalate
  unfold escalationRecords
  rcases hstronger : worker.escalationWorker with _ | stronger
  · rw [hstronger] at hescalate
    obtain rfl := Except.ok.inj hescalate
    simpa using h
  rw [hstronger] at hescalate
  dsimp only at hescalate ⊢
  split at hescalate
  · rename_i hladder
    rw [if_pos hladder]
    rcases hrevision : e.escalation.revisionRead with message | u
    · rw [hrevision] at hescalate
      cases hescalate
    rw [hrevision] at hescalate
    dsimp only at hescalate ⊢
    split at hescalate
    · rename_i hworktree
      obtain rfl := Except.ok.inj hescalate
      simpa [hworktree] using h
    · rename_i hworktree
      rw [if_neg hworktree]
      split at hescalate
      · rename_i hattempt
        obtain rfl := Except.ok.inj hescalate
        simpa [hattempt] using h.same (books_stopBatch _ _).sameHolders
      · rename_i hattempt
        obtain rfl := Except.ok.inj hescalate
        have houtcome := hclean stronger hstronger hladder.1 hladder.2 hrevision
          (by simpa using hworktree) (by simpa using hattempt)
        rw [if_neg hattempt, if_pos houtcome]
        -- the escalated attempt is one more worker until it has its outcome
        let attempt : Worker := ⟨worker.target, i.escalationSequence, none, none, none⟩
        have hstarted : Tracked ([] ++ [attempt]) s (records ++ [.started i.escalationSequence]) :=
          h.start rfl
        rw [append_cons]
        exact (hstarted.finish rfl _).same (sameHolders_runEscalation _ _ _)
  · rename_i hladder
    rw [if_neg hladder]
    obtain rfl := Except.ok.inj hescalate
    simpa using h

theorem escalates_conclude {stronger : StrongerWorker}
    (h : Escalates d e stronger ((s.account d e worker).conclude d e worker)) :
    Escalates d e stronger (s.spend e.cost e.tokens) := by
  obtain ⟨hcost, htokens, -⟩ := account_eq d worker s e
  obtain ⟨_, _, _, _, hbooks⟩ := books_conclude d worker (s.account d e worker) e
  rw [hbooks] at h
  unfold Escalates at h ⊢
  rw [← hcost, ← htokens]
  exact h

theorem Tracked.process (h : Tracked [worker] s records) (hr : r.execution = some e)
    (hclean : CleanResult d r worker s) (hprocess : s.process d e worker = .ok s') :
    Tracked [] s' (records ++ processRecords d i e worker s) := by
  have hdiagnostics := hclean.diagnostics e hr
  have hstate := hclean.state e hr
  have houtcome := hclean.outcome e hr
  unfold LoopState.process at hprocess
  unfold processRecords
  simp only [hdiagnostics, hstate, houtcome, Bool.not_true, Bool.false_eq_true, if_false]
    at hprocess ⊢
  -- the reservation is settled
  have hspent : SameHolders s (s.spend e.cost e.tokens) := ⟨rfl, rfl, rfl⟩
  have hspend := hspent.trans (sameHolders_noteSpending (d := d) _ worker.target.id e.cost e.tokens)
  have hsettles := hclean.settles e hr
  rw [← hspend.ledger] at hsettles
  have hsettled := (h.same hspend).settleWarrant hsettles
  rw [settleRecords_congr hspend.ledger] at hsettled
  -- and the attempt has its outcome
  have hconcluded := hsettled.same (books_conclude d worker _ e).sameHolders
  have hfinished : Tracked [] _ _ := hconcluded.finish rfl
    (if (retainedReason e).isNone then "completed" else "retained")
  rcases hescalate : ((s.account d e worker).conclude d e worker).escalate d e worker with error | s₂
  · rw [hescalate] at hprocess
    cases hprocess
  rw [hescalate] at hprocess
  obtain rfl : s₂.flag d e = s' := Except.ok.inj hprocess
  have hescalated := Tracked.escalate (i := i) hfinished
    (fun stronger hstronger hladder hadmitted hrevision hworktree hattempt ↦
      hclean.escalation e hr ⟨stronger, hstronger, hladder, escalates_conclude hadmitted, hrevision,
        hworktree, hattempt⟩) hescalate
  simp only [append_assoc, singleton_append] at hescalated
  exact hescalated.same (books_flag _ _).sameHolders

theorem CleanResult.stopIfLost (h : CleanResult d r worker s) :
    CleanResult d r worker (s.stopIfLost r.heartbeatFailed) := by
  obtain ⟨_, _, _, _, hbooks⟩ := s.books_stopIfLost r.heartbeatFailed
  rw [hbooks]
  exact ⟨h.panicked, h.diagnostics, h.settles, h.state, h.outcome, h.escalation⟩

theorem sameHolders_closePanicked (s : LoopState) (r : Drained) :
    SameHolders s (s.closePanicked d r worker) := by
  have hnoted := sameHolders_noteSpending (d := d) s worker.target.id none none
  have hstopped := hnoted.trans (books_stopUnless _ r.panicStateRecorded).sameHolders
  unfold closePanicked
  dsimp only
  split
  · exact hstopped.trans (books_stopBatchOr _ _).sameHolders
  · exact hstopped.trans (books_stopBatch _ _).sameHolders

theorem Tracked.drain (h : Tracked [worker] s records) (hclean : CleanResult d r worker s)
    (hdrain : s.drain d r worker = .ok s') :
    Tracked [] s' (records ++ drainRecords d i r worker s) := by
  unfold LoopState.drain at hdrain
  unfold drainRecords
  cases hr : r.execution with
  | none =>
    rw [hr] at hdrain
    obtain rfl := Except.ok.inj hdrain
    obtain ⟨hnone, hrecorded⟩ := hclean.panicked hr
    have hfinished : Tracked [] s (records ++ [.finished worker.sequence "retained"]) :=
      h.finish hnone _
    dsimp only
    rw [if_pos hrecorded]
    exact hfinished.same (sameHolders_closePanicked s r)
  | some e =>
    rw [hr] at hdrain
    exact (h.same (s.books_stopIfLost _).sameHolders).process hr hclean.stopIfLost hdrain

theorem sameHolders_mergeStop (s : LoopState) : SameHolders s s.mergeStop := by
  unfold mergeStop
  split
  · exact ⟨rfl, rfl, rfl⟩
  · exact ⟨rfl, rfl, rfl⟩

theorem Tracked.collect (h : Tracked [] s records)
    (hreports : s.activeWorkers ≠ 0 → (s.reported i).isSome = true)
    (hresults : ∀ n worker r, s.reported i = some (n, worker, r) →
      CleanResult d r worker (s.receive n worker))
    (hheartbeat : ∀ n worker r, s.reported i = some (n, worker, r) →
      i.heartbeatRecorded = true ∨ s.inFlight.eraseIdx n = []) :
    Passes (s.collect d i.toPassInput) (records ++ collectRecords d i s) := by
  unfold LoopState.collect collectRecords
  unfold reported at *
  split
  · -- no worker is active
    rename_i hactive
    rw [h.active] at hactive
    dsimp only
    rw [append_nil]
    exact .left _ h (length_eq_zero_iff.1 hactive)
  · rename_i hactive
    simp only [hactive, if_false] at hreports hresults hheartbeat ⊢
    generalize hreported : Option.bind i.received _ = report at hreports hresults hheartbeat ⊢
    rcases report with _ | report
    · cases hreports hactive
    obtain ⟨n, worker, r⟩ := report
    have hworker : s.inFlight[n]? = some worker := by
      obtain ⟨answer, -, hanswer⟩ := Option.bind_eq_some_iff.1 hreported
      obtain ⟨worker', hworker, heq⟩ := Option.map_eq_some_iff.1 hanswer
      obtain ⟨rfl, rfl, -⟩ : answer.1 = n ∧ worker' = worker ∧ answer.2 = r := by simpa using heq
      exact hworker
    have hreceived := h.receive hworker
    have hclean := hresults n worker r rfl
    dsimp only
    rcases hdrain : (s.receive n worker).drain d r worker with error | s₁
    · exact .failed _ _ error
    have hmerged := (hreceived.drain (i := i) hclean hdrain).same (sameHolders_mergeStop s₁)
    dsimp only
    split
    · exact .on hmerged
    · rename_i hlost
      refine .left _ hmerged ?_
      have hnone := (hheartbeat n worker r rfl).resolve_left hlost
      rw [(sameHolders_mergeStop s₁).inFlight, (drain_processes hdrain).frames.inFlight]
      exact hnone

/-- **A clean pass.** It tracks what it leaves open, and leaves nothing open when it leaves the
loop. -/
theorem Tracked.pass (h : Tracked [] s records) (hclean : CleanPass d i s) :
    Passes (s.pass d i.toPassInput) (records ++ s.passRecords d i) := by
  have hdispatch := h.dispatch hclean
  have hreports := hclean.reports
  have hresults := hclean.results
  have hheartbeat := hclean.heartbeat
  unfold LoopState.pass passRecords
  generalize s.dispatch d i.toPassInput = out at *
  obtain ⟨exit, s₁⟩ := out
  cases hdispatch with
  | on htracked =>
    dsimp only
    rw [← append_assoc]
    exact htracked.collect (hreports rfl) (hresults rfl) (hheartbeat rfl)
  | left reason htracked hnone =>
    dsimp only
    rw [append_nil]
    exact .left reason htracked hnone
  | failed _ _ error => exact .failed _ _ error

end LoopState

namespace DriveSession

open LoopState

variable {d : DriveSession} {s : LoopState} {records : List AttemptRecord}

theorem run_tracked {inputs : List RecordedPass} {reason : DriveTermination}
    (h : Tracked [] s records) (hclean : d.Clean s inputs)
    (hrun : (d.run (inputs.map (·.toPassInput)) s).2 = some (.terminated reason)) :
    Closed (records ++ d.records inputs s) (d.run (inputs.map (·.toPassInput)) s).1.ledger := by
  induction inputs generalizing s records with
  | nil => cases hrun
  | cons i inputs ih =>
    obtain ⟨hpass, hrest⟩ := hclean
    have htracked := h.pass hpass
    rw [map_cons] at hrun ⊢
    unfold DriveSession.run at hrun ⊢
    unfold DriveSession.records
    rw [← append_assoc]
    generalize s.pass d i.toPassInput = out at *
    cases htracked with
    | on htracked => exact ih htracked hrest hrun
    | left reason' htracked hnone =>
      dsimp only
      rw [append_nil]
      exact htracked.closed (by rw [hnone, append_nil])
    | failed _ _ error => cases hrun

/-- **Every attempt is closed when no pass gives one up.** In every run whose passes are clean and
that leaves the loop, every reservation that was acquired is settled exactly once and every attempt
that was started has an outcome. -/
theorem run_closes (d : DriveSession) (L : Ledger) (inputs : List RecordedPass)
    (reason : DriveTermination) (hclean : d.Clean (.initial L) inputs)
    (hrun : (d.run (inputs.map (·.toPassInput)) (.initial L)).2 = some (.terminated reason)) :
    Closed (d.records inputs (.initial L))
      (d.run (inputs.map (·.toPassInput)) (.initial L)).1.ledger := by
  have hclosed := run_tracked (Tracked.nil L) hclean hrun
  rw [nil_append] at hclosed
  exact hclosed

end DriveSession

/-- A pass over two ready PRDs in which the first worker in flight has landed. -/
def landingPass : RecordedPass :=
  { reportingPass (threeReady.take 2) landedExecution with }

open LoopState

theorem landingPass_clean {s : LoopState}
    (hselects : s.inFlight = [] ∨
      ((s.observe tenMicrousd landingPass.toPassInput).choose tenMicrousd
        landingPass.toPassInput).isOk = true)
    (hmigrations : (preparing tenMicrousd landingPass s).all
      (fun p ↦ !declaresMigrations landingPass.toPassInput p.1) = true)
    (hreports : (s.dispatch tenMicrousd landingPass.toPassInput).2.activeWorkers = 0 ∨
      ((s.dispatch tenMicrousd landingPass.toPassInput).2.reported landingPass).isSome = true)
    (hsettles : ((s.dispatch tenMicrousd landingPass.toPassInput).2.reported landingPass).all
      (fun p ↦ p.2.1.reservationId.all fun id ↦
        ((settle id (observation tenMicrousd landedExecution)
          (tenMicrousd.sessionId ++ ":" ++ toString p.2.1.sequence)).run
            ⟨(s.dispatch tenMicrousd landingPass.toPassInput).2.ledger, []⟩).1.isOk) = true) :
    CleanPass tenMicrousd landingPass s where
  selects _ reason hchoose := by
    refine hselects.resolve_right fun hok ↦ ?_
    rw [hchoose] at hok
    cases hok
  prepares p hp := by
    refine ⟨nofun, fun _ ↦ nofun, fun _ _ _ _ _ ↦ ⟨fun hdeclares ↦ ?_, rfl, fun _ _ _ ↦ .inl rfl⟩⟩
    have hnone := List.all_eq_true.1 hmigrations p hp
    rw [hdeclares] at hnone
    cases hnone
  reports _ hactive := hreports.resolve_left hactive
  results _ n worker r hreported := by
    have hr : r = { execution := some landedExecution } := by
      unfold reported at hreported
      split at hreported
      · cases hreported
      · obtain ⟨answer, hreceived, hanswer⟩ := Option.bind_eq_some_iff.1 hreported
        obtain ⟨_, -, heq⟩ := Option.map_eq_some_iff.1 hanswer
        obtain rfl := Option.some.inj hreceived
        exact (Prod.mk.inj (Prod.mk.inj heq).2).2.symm
    rw [hreported] at hsettles
    subst hr
    refine ⟨nofun, fun e he ↦ ?_, fun e he id hid ↦ ?_, fun e he ↦ ?_, fun e he ↦ ?_,
      fun e he hescalated ↦ ?_⟩
    all_goals obtain rfl := Option.some.inj he
    · rfl
    · rw [Option.all_some, hid] at hsettles
      exact hsettles
    · rfl
    · rfl
    · rfl
  heartbeat _ _ _ _ _ := .inl rfl

/-- Two attempts land, and a third pass finds nothing more to start: both are closed. -/
theorem DriveSession.run_closes_landing :
    Closed (tenMicrousd.records [landingPass, landingPass, landingPass] (.initial tenMicrousdLedger))
      (tenMicrousd.run ([landingPass, landingPass, landingPass].map (·.toPassInput))
        (.initial tenMicrousdLedger)).1.ledger := by
  refine tenMicrousd.run_closes _ _ .nothingEligible
    ⟨landingPass_clean (.inl rfl) ?_ (.inr ?_) ?_, landingPass_clean (.inr ?_) ?_ (.inr ?_) ?_,
      landingPass_clean (.inl ?_) ?_ (.inl ?_) ?_, trivial⟩ ?_
  all_goals decide +kernel

def worktreeLost : RecordedPass :=
  { landingPass with
    preparation := fun prd ↦ { landingPass.preparation prd with worktreeCreated := false } }

/-- The same pass when the phase of the second attempt is not persisted. -/
def phaseLost : RecordedPass :=
  { landingPass with
    preparation := fun prd ↦
      { landingPass.preparation prd with diagnosticsRecorded := prd.id.number == 1 } }

/-- Attempts without a worktree are given up with their reservations, and a preparation that fails
gives up the job prepared before it. -/
theorem tenMicrousd_gives_up :
    ((tenMicrousd.run [worktreeLost.toPassInput] (.initial tenMicrousdLedger)).2 =
        some (.terminated .nothingEligible) ∧
      ¬Closed (tenMicrousd.records [worktreeLost] (.initial tenMicrousdLedger))
        (tenMicrousd.run [worktreeLost.toPassInput] (.initial tenMicrousdLedger)).1.ledger) ∧
    (tenMicrousd.run [phaseLost.toPassInput] (.initial tenMicrousdLedger)).2 =
        some (.terminated .storageFailure) ∧
      ¬Closed (tenMicrousd.records [phaseLost] (.initial tenMicrousdLedger))
        (tenMicrousd.run [phaseLost.toPassInput] (.initial tenMicrousdLedger)).1.ledger := by
  refine ⟨⟨by decide +kernel, fun h ↦ ?_⟩, by decide +kernel, fun h ↦ ?_⟩
  · have hsettled := h.settledOnce "res_1" (by decide +kernel)
    exact absurd hsettled (by decide +kernel)
  · exact absurd h.finished (by decide +kernel)

end FamiliarAi
