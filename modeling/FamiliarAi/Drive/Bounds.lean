import FamiliarAi.Drive.Effects

/-!
# The bounds of the warrant

How many attempts a run starts, when it starts them, and how many workers are active at once. The
selection takes one PRD also where it is asked for none, so a pass that goes on under a stop reason
starts an attempt whenever the backlog has a PRD to select: the bounds on attempts hold for the runs
in which it has none. The bound on the workers holds for every run, since every pass receives a
result and so leaves room for one worker.
-/

namespace FamiliarAi

open List

variable {d : DriveSession} {i : PassInput} {s s' : LoopState} {log events : List LoopEvent}

/-- What a run that did this kept to. -/
structure WithinWarrant (d : DriveSession) (log : List LoopEvent) : Prop where
  attempts : d.warrant.maxPrds ≠ 0 → log.countP (·.isStart) ≤ d.warrant.maxPrds
  starts : log.Pairwise fun e e' ↦ e.isStop = true → e'.isStart = false
  workers : ∀ e ∈ log, ∀ active ∈ e.active?, active ≤ d.parallelism

namespace LoopState

/-- The backlog that the pass sees has no PRD that could be selected and that its admission does not
refuse. -/
def AdmitsNothing (d : DriveSession) (i : PassInput) (s : LoopState) : Prop :=
  ∀ entries prd, i.snapshot = .ok entries →
    Selectable (s.selectionContext d i) (entries.insertionSort EntryBefore) prd →
      (i.preparation prd).refusal.isSome

/-- When the pass goes on under a stop reason, recorded before or found at its top, it has nothing to
start. -/
def HoldsBack (d : DriveSession) (s : LoopState) (i : PassInput) : Prop :=
  s.stops d i = none → (s.observe d i).stopAfterDrain.isSome → (s.observe d i).AdmitsNothing d i

end LoopState

def DriveSession.Meets (d : DriveSession) (condition : LoopState → PassInput → Prop) :
    LoopState → List PassInput → Prop
  | _, [] => True
  | s, i :: inputs => condition s i ∧ d.Meets condition (s.pass d i).1 inputs

theorem DriveSession.run_invariant {condition : LoopState → PassInput → Prop}
    {I J : LoopState → Prop} (hJ : ∀ s, I s → J s)
    (hstep : ∀ s i, condition s i → I s →
      J (s.pass d i).1 ∧ ((s.pass d i).2 = none → I (s.pass d i).1))
    (inputs : List PassInput) (hs : I s) (hmeets : d.Meets condition s inputs) :
    J (d.run inputs s).1 := by
  induction inputs generalizing s with
  | nil => exact hJ s hs
  | cons i inputs ih =>
    obtain ⟨hcondition, hrest⟩ := hmeets
    obtain ⟨hJ', hI'⟩ := hstep s i hcondition hs
    unfold DriveSession.run
    split
    · rename_i s' hpass
      rw [hpass] at hI' hrest
      exact ih (hI' rfl) hrest
    · rename_i s' exit hpass
      rw [hpass] at hJ'
      exact hJ'

/-! ### The invariant -/

namespace LoopState

variable {jobs : List Worker} {worker : Worker}

/-- **The invariant of the bounds.** The log keeps to the warrant and counts the attempts, and a stop
in it is recorded. -/
structure Bounded (d : DriveSession) (s : LoopState) : Prop where
  attempts : d.warrant.maxPrds ≠ 0 → s.attempted ≤ d.warrant.maxPrds
  counted : s.log.countP (·.isStart) = s.attempted
  starts : s.log.Pairwise fun e e' ↦ e.isStop = true → e'.isStart = false
  workers : ∀ e ∈ s.log, ∀ active ∈ e.active?, active ≤ d.parallelism
  stopped : ∀ e ∈ s.log, e.isStop = true → s.stopAfterDrain.isSome

theorem Bounded.within (h : Bounded d s) : WithinWarrant d s.log :=
  ⟨fun hmax ↦ h.counted ▸ h.attempts hmax, h.starts, h.workers⟩

theorem Bounded.congr (h : Bounded d s) (hlog : s'.log = s.log)
    (hattempted : s'.attempted = s.attempted) (hstop : s'.stopAfterDrain = s.stopAfterDrain) :
    Bounded d s' where
  attempts := hattempted ▸ h.attempts
  counted := by rw [hlog, hattempted, h.counted]
  starts := hlog ▸ h.starts
  workers := hlog ▸ h.workers
  stopped := by
    rw [hlog, hstop]
    exact h.stopped

theorem Bounded.books (h : Bounded d s) (hbooks : Books s s') : Bounded d s' := by
  obtain ⟨_, _, _, _, rfl⟩ := hbooks
  exact h.congr rfl rfl rfl

theorem Bounded.note {e : LoopEvent} (h : Bounded d s) (hstart : e.isStart = false)
    (hstop : e.isStop = true → s.stopAfterDrain.isSome)
    (hworkers : ∀ active ∈ e.active?, active ≤ d.parallelism) : Bounded d (s.note e) where
  attempts := h.attempts
  counted := by
    show (s.log ++ [e]).countP _ = s.attempted
    rw [countP_append, h.counted, countP_singleton, hstart]
    rfl
  starts := by
    refine pairwise_append.2 ⟨h.starts, pairwise_singleton _ _, fun _ _ e' he' _ ↦ ?_⟩
    rw [mem_singleton.1 he', hstart]
  workers e' he' := by
    rcases mem_append.1 he' with he' | he'
    · exact h.workers e' he'
    · rw [mem_singleton.1 he']
      exact hworkers
  stopped e' he' := by
    rcases mem_append.1 he' with he' | he'
    · exact h.stopped e' he'
    · rw [mem_singleton.1 he']
      exact hstop

theorem Bounded.stopOr (h : Bounded d s) (reason : DriveTermination) :
    Bounded d (s.stopOr reason) := by
  have hset : Bounded d { s with stopAfterDrain := some (s.stopAfterDrain.getD reason) } :=
    ⟨h.attempts, h.counted, h.starts, h.workers, fun _ _ _ ↦ rfl⟩
  exact hset.note rfl (fun _ ↦ rfl) nofun

theorem Bounded.start (h : Bounded d s) (id : PrdId) (hstop : s.stopAfterDrain = none)
    (hmax : d.warrant.maxPrds ≠ 0 → s.attempted < d.warrant.maxPrds) :
    Bounded d (s.start id) where
  attempts := hmax
  counted := by
    show (s.log ++ [LoopEvent.started id]).countP _ = s.attempted + 1
    rw [countP_append, h.counted]
    rfl
  starts := by
    refine pairwise_append.2 ⟨h.starts, pairwise_singleton _ _, fun e he _ _ hestop ↦ ?_⟩
    have hsome := h.stopped e he hestop
    rw [hstop] at hsome
    cases hsome
  workers e he := by
    rcases mem_append.1 he with he | he
    · exact h.workers e he
    · rw [mem_singleton.1 he]
      exact nofun
  stopped e he hestop := by
    rcases mem_append.1 he with he | he
    · exact h.stopped e he hestop
    · rw [mem_singleton.1 he] at hestop
      cases hestop

theorem Bounded.observe (h : Bounded d s) : Bounded d (s.observe d i) := by
  have hlost : Bounded d (s.observeHeartbeat i) := by
    unfold observeHeartbeat
    split
    · have hset : Bounded d { s with stopAfterDrain := some .workerHeartbeatLost } :=
        ⟨h.attempts, h.counted, h.starts, h.workers, fun _ _ _ ↦ rfl⟩
      exact hset.note rfl (fun _ ↦ rfl) nofun
    · exact h
  unfold LoopState.observe
  dsimp only
  split
  · exact (hlost.stopOr _).note rfl (fun _ ↦ rfl) nofun
  · exact hlost

theorem Bounded.mergeStop (h : Bounded d s) : Bounded d s.mergeStop := by
  unfold LoopState.mergeStop
  split
  · exact h
  · exact Bounded.stopOr (s := { s with batchStop := none }) (h.congr rfl rfl rfl) _

theorem Bounded.noteSpending (h : Bounded d s) (id : PrdId) (cost tokens : Option ℕ) :
    Bounded d (s.noteSpending d id cost tokens) := by
  unfold LoopState.noteSpending
  split
  · exact h.note rfl nofun nofun
  · exact h

theorem Bounded.account {e : Execution} (h : Bounded d s) :
    Bounded d (s.account d e worker) := by
  have hspend : Bounded d (s.spend e.cost e.tokens) := h.congr rfl rfl rfl
  unfold LoopState.account LoopState.settleWarrant
  split
  · exact hspend.noteSpending _ _ _
  · dsimp only
    split
    · exact (hspend.noteSpending _ _ _).congr rfl rfl rfl
    · exact (hspend.noteSpending _ _ _).congr rfl rfl rfl

theorem Bounded.escalation {id : PrdId} {accounts : Admission} {cost tokens : Option ℕ}
    (h : Bounded d s) :
    Bounded d (((s.note (.escalated id accounts)).spend cost tokens).noteSpending d id cost tokens) := by
  have hnote : Bounded d (s.note (.escalated id accounts)) := h.note rfl nofun nofun
  have hspend : Bounded d ((s.note (.escalated id accounts)).spend cost tokens) :=
    hnote.congr rfl rfl rfl
  exact hspend.noteSpending _ _ _

theorem Bounded.processes {r : Drained} (h : Bounded d s) (hprocesses : Processes d r worker s s') :
    Bounded d s' := by
  cases hprocesses with
  | closed before after stops => exact ((h.books before).noteSpending _ _ _).books after
  | accounted execution before after stops => exact (h.books before).account.books after
  | escalated execution stronger_eq ladder before books admitted after =>
    exact ((h.books before).account.books books).escalation.books after

theorem Bounded.spawn (h : Bounded d s) (hroom : s.activeWorkers + jobs.length ≤ d.parallelism) :
    Bounded d (jobs.foldl (spawn i) s) ∧
      (jobs.foldl (spawn i) s).activeWorkers = s.activeWorkers + jobs.length := by
  induction jobs generalizing s with
  | nil => exact ⟨h, rfl⟩
  | cons job jobs ih =>
    rw [length_cons] at hroom ⊢
    have hset : Bounded d (s.spawn i job) := by
      refine Bounded.note (h.congr rfl rfl rfl) rfl nofun fun active hactive ↦ ?_
      rw [← Option.mem_some.1 hactive]
      omega
    have hactive : (s.spawn i job).activeWorkers = s.activeWorkers + 1 := rfl
    obtain ⟨hbounded, hcount⟩ := ih hset (by omega)
    refine ⟨hbounded, ?_⟩
    rw [foldl_cons, hcount]
    omega

/-! ### The pass -/

/-- What preparing keeps: there is room for the PRDs that are left, and under a stop reason each of
them is refused. -/
structure Preparing (d : DriveSession) (i : PassInput) (targets : List DiscoveredPrd)
    (jobs : List Worker) (s : LoopState) : Prop where
  bounded : Bounded d s
  room : s.activeWorkers + (jobs.length + targets.length) ≤ d.parallelism
  attempts : s.stopAfterDrain = none → d.warrant.maxPrds ≠ 0 →
    s.attempted + targets.length ≤ d.warrant.maxPrds
  refused : s.stopAfterDrain.isSome → ∀ prd ∈ targets, (i.preparation prd).refusal.isSome

theorem Preparing.prepares {target : DiscoveredPrd} {targets : List DiscoveredPrd}
    {prepared : Prepared} (h : Preparing d i (target :: targets) jobs s)
    (hprepares : Prepares d i jobs target s prepared s') :
    (∀ worker, prepared = .job worker → Preparing d i targets (jobs ++ [worker]) s') ∧
      ((∀ worker, prepared ≠ .job worker) → Preparing d i targets jobs s') := by
  have hroom := h.room
  have hattempts := h.attempts
  rw [length_cons] at hroom hattempts
  -- an attempt is started without a stop reason only
  have hstart : (i.preparation target).refusal = none → s.stopAfterDrain = none ∧
      Bounded d (s.start target.id) := by
    intro hadmissible
    have hnone : s.stopAfterDrain = none := by
      rw [← Option.not_isSome_iff_eq_none]
      intro hsome
      have hrefused := h.refused hsome target mem_cons_self
      rw [hadmissible] at hrefused
      cases hrefused
    exact ⟨hnone, h.bounded.start _ hnone fun hmax ↦ by have := hattempts hnone hmax; omega⟩
  -- what follows from the effect on the counters
  have hafter : ∀ jobs', jobs'.length ≤ jobs.length + 1 → Bounded d s' →
      s'.activeWorkers = s.activeWorkers → s'.stopAfterDrain = s.stopAfterDrain →
      s'.attempted ≤ s.attempted + 1 → Preparing d i targets jobs' s' := by
    intro jobs' hlength hbounded hactive hstop hattempted
    refine ⟨hbounded, by omega, fun hnone hmax ↦ ?_, fun hsome prd hprd ↦ ?_⟩
    · have := hattempts (hstop ▸ hnone) hmax
      omega
    · exact h.refused (hstop ▸ hsome) prd (mem_cons_of_mem _ hprd)
  have hboth : Bounded d s' → s'.activeWorkers = s.activeWorkers →
      s'.stopAfterDrain = s.stopAfterDrain → s'.attempted ≤ s.attempted + 1 →
      (∀ worker, prepared = .job worker → Preparing d i targets (jobs ++ [worker]) s') ∧
        ((∀ worker, prepared ≠ .job worker) → Preparing d i targets jobs s') := by
    intro hbounded hactive hstop hattempted
    refine ⟨fun worker _ ↦ ?_, fun _ ↦ ?_⟩
    · exact hafter _ (by simp) hbounded hactive hstop hattempted
    · exact hafter _ (by omega) hbounded hactive hstop hattempted
  cases hprepares with
  | passedOver attemptedIds _ => exact hboth (h.bounded.congr rfl rfl rfl) rfl rfl (Nat.le_succ _)
  | started admissible _ => exact hboth (hstart admissible).2 rfl rfl le_rfl
  | admitted admissible reserves _ =>
    have hbounded := (hstart admissible).2
    cases reserves with
    | unneeded _ => exact hboth (hbounded.note rfl nofun nofun) rfl rfl le_rfl
    | granted _ =>
      exact hboth (Bounded.note (hbounded.congr rfl rfl rfl) rfl nofun nofun) rfl rfl le_rfl

theorem Bounded.collects {out : LoopState × Option Exit} (h : Bounded d s)
    (hactive : s.activeWorkers ≤ d.parallelism) (hcollects : Collects d i s out) :
    Bounded d out.1 ∧ (out.2 = none → out.1.activeWorkers < d.parallelism) := by
  cases hcollects with
  | left exit => exact ⟨h, nofun⟩
  | failed inFlight exit => exact ⟨h.congr rfl rfl rfl, nofun⟩
  | @processed n worker r s' active received inFlight processes exit =>
    have hreceived : Bounded d (s.receive n worker) := h.congr rfl rfl rfl
    refine ⟨(hreceived.processes processes).mergeStop, fun _ ↦ ?_⟩
    have hsame : s'.mergeStop.activeWorkers = s.activeWorkers - 1 := by
      rw [(mergeStop_workers s').1, processes.frames.activeWorkers]
      rfl
    show s'.mergeStop.activeWorkers < d.parallelism
    omega

theorem remaining_le (hstop : s.stopAfterDrain = none) (hmax : d.warrant.maxPrds ≠ 0) :
    s.remaining d ≤ d.warrant.maxPrds - s.attempted := by
  unfold remaining
  rw [hstop, if_neg (by simp), if_neg hmax]
  omega

theorem attempted_lt_of_exhausted_none (h : s.exhausted d i = none) (hmax : d.warrant.maxPrds ≠ 0) :
    s.attempted < d.warrant.maxPrds := by
  unfold exhausted DriveWarrant.exhausted at h
  split at h
  · cases h
  · omega

theorem Bounded.dispatch (h : Bounded d s) (hactive : s.activeWorkers < d.parallelism)
    (hholds : HoldsBack d s i) : Bounded d (s.dispatch d i).2 ∧
      ((s.dispatch d i).1 = none → (s.dispatch d i).2.activeWorkers ≤ d.parallelism) := by
  unfold LoopState.dispatch
  split
  · exact ⟨h, nofun⟩
  rename_i hstops
  have hobserve := h.observe (i := i)
  obtain ⟨stop, events, heq, -⟩ := observe_eq (d := d) (i := i) s
  have hactive' : (s.observe d i).activeWorkers < d.parallelism := by
    rw [heq]
    exact hactive
  dsimp only
  split
  · exact ⟨hobserve, nofun⟩
  rename_i targets s₁ hchoose
  obtain ⟨hlength, hselectable, recordedDecisions, widthReported, rfl⟩ := choose_ok hchoose
  have hpreparing : Preparing d i targets []
      { s.observe d i with recordedDecisions, widthReported } := by
    refine ⟨hobserve.congr rfl rfl rfl, ?_, fun hnone hmax ↦ ?_, fun hsome prd hprd ↦ ?_⟩
    · have hroom : (s.observe d i).remaining d ≤ d.parallelism - (s.observe d i).activeWorkers :=
        min_le_right _ _
      show (s.observe d i).activeWorkers + (0 + targets.length) ≤ d.parallelism
      omega
    · have hremaining := remaining_le (s := s.observe d i) hnone hmax
      have hleft := attempted_lt_of_exhausted_none (observe_of_none hnone).2 hmax
      rw [(observe_of_none hnone).1] at hlength hremaining ⊢
      show s.attempted + targets.length ≤ d.warrant.maxPrds
      omega
    · obtain ⟨entries, hentries, hprd'⟩ := hselectable prd hprd
      exact hholds hstops hsome entries prd hentries hprd'
  obtain ⟨hall, rest, jobs, hhalted⟩ := prepareAll_keeps (I := Preparing d i)
    (fun _ _ _ _ _ _ h hprepares ↦ h.prepares hprepares) hpreparing
  split
  · rename_i exit s₂ hprepared
    rw [hprepared] at hhalted
    exact ⟨hhalted.bounded, nofun⟩
  · rename_i jobs' s₂ hprepared
    rw [hprepared] at hall
    obtain ⟨hspawned, hcount⟩ := (hall jobs' rfl).bounded.spawn (i := i) (hall jobs' rfl).room
    have hroom := (hall jobs' rfl).room
    rw [length_nil, Nat.add_zero, ← hcount] at hroom
    exact ⟨hspawned, fun _ ↦ hroom⟩

theorem Bounded.pass (h : Bounded d s) (hactive : s.activeWorkers < d.parallelism)
    (hholds : HoldsBack d s i) : Bounded d (s.pass d i).1 ∧
      ((s.pass d i).2 = none → (s.pass d i).1.activeWorkers < d.parallelism) := by
  obtain ⟨hdispatch, hroom⟩ := h.dispatch hactive hholds
  unfold LoopState.pass
  split
  · rename_i exit s₁ hleft
    rw [hleft] at hdispatch
    exact ⟨hdispatch, nofun⟩
  · rename_i s₁ hgoes
    rw [hgoes] at hdispatch hroom
    exact hdispatch.collects (hroom rfl) (collect_collects _)

end LoopState

def LoopState.initial (ledger : Ledger) : LoopState :=
  { ledger := ledger }

theorem LoopState.bounded_initial (ledger : Ledger) : Bounded d (initial ledger) :=
  ⟨fun _ ↦ Nat.zero_le _, rfl, List.Pairwise.nil, nofun, nofun⟩

/-- **The loop keeps to its warrant when it holds back.** In every run in which no pass that goes on
under a stop reason has a PRD to start, no more attempts are started than the warrant allows, none is
started after a stop reason was recorded or a ceiling was found exhausted, and no more workers are
ever active than the session runs in parallel. -/
theorem DriveSession.run_within (d : DriveSession) (ledger : Ledger) (inputs : List PassInput)
    (h : d.Meets (LoopState.HoldsBack d) (.initial ledger) inputs) :
    WithinWarrant d (d.run inputs (.initial ledger)).1.log := by
  refine d.run_invariant (I := fun s ↦ s.Bounded d ∧ s.activeWorkers < d.parallelism)
    (fun s hs ↦ hs.1.within) (fun s i hholds hs ↦ ?_) inputs
    ⟨LoopState.bounded_initial ledger, d.parallelism_pos⟩ h
  obtain ⟨hbounded, hactive⟩ := hs.1.pass hs.2 hholds
  exact ⟨hbounded.within, fun hnone ↦ ⟨hbounded, hactive hnone⟩⟩

def twoAttempts : DriveSession where
  sessionId := "drive-1"
  repositoryKey := "repository"
  warrant := { maxPrds := 2 }
  parallelism := 2
  maxImplementationTokens := 0
  maxDeliveries := none
  parallelism_pos := by decide
  finite := by decide

def threeReady : List DiscoveredPrd :=
  [smallPrd 1 firstPath ["crates/a/**"] [], smallPrd 2 secondPath ["crates/b/**"] [],
    smallPrd 3 thirdPath ["crates/c/**"] []]

/-- A pass over a ready backlog in which the first worker in flight reports an attempt that is
retained. -/
def retainingPass (backlog : List DiscoveredPrd) : PassInput where
  discovered := .ok backlog
  readFile _ := .error "not read"
  snapshot := .ok (backlog.map (⟨·, .pending⟩))
  preparation _ := { componentId := "component-PRD-001", sequence := some 1, random := none }
  received := some (0,
    { execution := some
        { succeeded := false
          retainedReason := some "verification_failed"
          cost := none
          tokens := none
          landed := false
          escalation :=
            { elapsedMs := 0, succeeded := false, landed := false, cost := none, tokens := none } } })

/-- With two PRDs there is nothing to start when the second pass finds the ceiling exhausted. -/
theorem DriveSession.run_within_twoReady :
    WithinWarrant twoAttempts
      (twoAttempts.run [retainingPass (threeReady.take 2), retainingPass (threeReady.take 2)]
        (.initial .empty)).1.log := by
  refine twoAttempts.run_within .empty _ ⟨fun _ hstop ↦ ?_, fun _ _ entries prd hentries hprd ↦ ?_,
    trivial⟩
  · exact absurd hstop (by decide +kernel)
  · -- both PRDs have been attempted in the first pass
    obtain rfl := Except.ok.inj hentries
    obtain ⟨entry, hentry, rfl, -⟩ := hprd.admissible.pending
    have hattempted := hprd.admissible.notAttempted
    have hall : ∀ entry ∈ (threeReady.take 2).map (BacklogEntry.mk · .pending),
        (((((LoopState.initial .empty).pass twoAttempts
          (retainingPass (threeReady.take 2))).1.observe twoAttempts
            (retainingPass (threeReady.take 2))).selectionContext twoAttempts
              (retainingPass (threeReady.take 2))).attempted.contains entry.prd.id) = true := by
      decide +kernel
    rw [hall entry ((mem_insertionSort _).1 hentry)] at hattempted
    cases hattempted

/-- The second pass finds the ceiling exhausted while a worker is in flight, and starts a third
attempt. -/
theorem twoAttempts_exceeded :
    ¬WithinWarrant twoAttempts
      (twoAttempts.run [retainingPass threeReady, retainingPass threeReady] (.initial .empty)).1.log := by
  intro h
  have hcount : (twoAttempts.run [retainingPass threeReady, retainingPass threeReady] (.initial .empty)).1.log.countP
      (·.isStart) = 3 := by
    decide +kernel
  have hmost := h.attempts (by decide)
  rw [hcount] at hmost
  exact absurd hmost (by decide)

end FamiliarAi
