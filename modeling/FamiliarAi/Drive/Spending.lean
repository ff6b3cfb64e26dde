import FamiliarAi.Drive.Bounds
import FamiliarAi.Reservation.Shares

/-!
# Spending within the ceilings

A primary attempt is admitted by the ledger: what it reserves, what is reserved for the attempts
still running and what the pool has been charged are within the capacity of the pool. An escalated
attempt is admitted by a test on the known totals, which looks at no reservation, and what it spends
is added to these totals and charged to no pool; so is what a primary attempt spends beyond its
reservation. The ceilings hold in the runs in which the two kinds of admission do not meet: nothing
is started on top of spending that the pools have not been charged for, and nothing is escalated
beside a running worker or under a stop reason.
-/

namespace FamiliarAi

open Relational Relation List Option

variable {d : DriveSession} {i : PassInput} {s s' : LoopState} {log : List LoopEvent}

/-- The known spending, what is reserved and what is admitted are within the ceilings. -/
structure Admission.Within (d : DriveSession) (a : Admission) : Prop where
  cost : 0 < d.warrant.maxCostMicrousd →
    a.knownCost + a.reservedCost + a.cost ≤ d.warrant.maxCostMicrousd * 1000
  tokens : 0 < d.warrant.maxTokens →
    a.knownTokens + a.reservedTokens + a.tokens ≤ d.warrant.maxTokens

/-- What a run that did this kept to. -/
structure WithinCeilings (d : DriveSession) (log : List LoopEvent) : Prop where
  /-- Every attempt, primary or escalated, is admitted within the ceilings. -/
  admissions : ∀ e ∈ log, ∀ a ∈ e.accounts?, a.Within d
  /-- No attempt is started once the spending of another one has stayed unknown. -/
  unknown : log.Pairwise fun e e' ↦ e.isUnknown = true → e'.isAttempt = false

namespace LoopState

variable {e : LoopEvent} {id : String} {target : DiscoveredPrd} {key : PoolKey} {L : Ledger} {n : ℕ}

/-- The pools have been charged for all that is known to be spent. -/
structure Charged (d : DriveSession) (s : LoopState) : Prop where
  cost : 0 < d.warrant.maxCostMicrousd →
    ((s.knownCost * 1000 : ℕ) : ℤ) ≤ s.ledger.consumedOn (d.pool .nanousdBudget)
  tokens : 0 < d.warrant.maxTokens →
    (s.knownTokens : ℤ) ≤ s.ledger.consumedOn (d.pool .uncachedTokens)

/-- When the received attempt is one that the ladder escalates and the warrant admits, no stop reason
is recorded, no other worker is in flight, and what the escalated attempt spends becomes known. -/
def EscalatesAlone (d : DriveSession) (i : PassInput) (s : LoopState) : Prop :=
  ∀ n r worker e stronger, i.received = some (n, r) → s.inFlight[n]? = some worker →
    r.execution = some e → worker.escalationWorker = some stronger →
    ladderEscalation (retainedReason e) = true → Escalates d e stronger (s.spend e.cost e.tokens) →
      s.stopAfterDrain = none ∧ s.inFlight.eraseIdx n = [] ∧
        ¬d.warrant.SpendingUnknown e.escalation.cost e.escalation.tokens

/-- The two kinds of admission do not meet in the pass: it has nothing to start under a stop reason or
on top of spending that the pools have not been charged for, and it escalates an attempt only by
itself. -/
structure SpendsApart (d : DriveSession) (s : LoopState) (i : PassInput) : Prop where
  holdsBack : HoldsBack d s i
  charged : s.stops d i = none → Charged d s ∨ (s.observe d i).AdmitsNothing d i
  alone : (s.dispatch d i).1 = none → EscalatesAlone d i (s.dispatch d i).2

def reservations (workers : List Worker) : List String :=
  workers.filterMap (·.reservationId)

theorem reserved_eq (s : LoopState) (workers : List Worker) (key : PoolKey) :
    s.reserved workers key = ((reservations workers).map fun id ↦ s.ledger.granted id key).sum := by
  unfold reserved reservations
  induction workers with
  | nil => rfl
  | cons worker workers ih =>
    rw [map_cons, sum_cons, ih, filterMap_cons]
    cases worker.reservationId with
    | none => simp
    | some id => simp

/-- The pool exists with the given capacity, which fits a durable amount. -/
def HasPool (L : Ledger) (key : PoolKey) (capacity : ℕ) : Prop :=
  capacity ≤ maxSqlAmount ∧ ∃ p ∈ L.pools.rows, p.key = key ∧ p.capacity = capacity

/-- **The invariant of spending.** The ledger conserves the capacity of the session pools, every
running worker and prepared job holds its reservation, and the log is within the ceilings. -/
structure Spent (d : DriveSession) (jobs : List Worker) (s : LoopState) : Prop where
  conserves : s.ledger.Conserves
  costPool : 0 < d.warrant.maxCostMicrousd →
    HasPool s.ledger (d.pool .nanousdBudget) (d.warrant.maxCostMicrousd * 1000)
  tokenPool : 0 < d.warrant.maxTokens →
    HasPool s.ledger (d.pool .uncachedTokens) d.warrant.maxTokens
  held : ∀ id ∈ reservations (s.inFlight ++ jobs), s.ledger.stateOf id = some .held
  distinct : (reservations (s.inFlight ++ jobs)).Nodup
  within : WithinCeilings d s.log

variable {jobs : List Worker} {worker : Worker}

theorem Spent.congr (h : Spent d jobs s) (hledger : s'.ledger = s.ledger)
    (hinFlight : s'.inFlight = s.inFlight) (hlog : s'.log = s.log) : Spent d jobs s' where
  conserves := hledger ▸ h.conserves
  costPool := hledger ▸ h.costPool
  tokenPool := hledger ▸ h.tokenPool
  held := by
    rw [hledger, hinFlight]
    exact h.held
  distinct := hinFlight ▸ h.distinct
  within := hlog ▸ h.within

theorem Spent.books (h : Spent d jobs s) (hbooks : Books s s') : Spent d jobs s' := by
  obtain ⟨_, _, _, _, rfl⟩ := hbooks
  exact h.congr rfl rfl rfl

theorem Spent.note (h : Spent d jobs s) (hattempt : e.isAttempt = false) :
    Spent d jobs (s.note e) := by
  refine ⟨h.conserves, h.costPool, h.tokenPool, h.held, h.distinct, fun e' he' ↦ ?_, ?_⟩
  · rcases mem_append.1 he' with he' | he'
    · exact h.within.admissions e' he'
    · rw [mem_singleton.1 he']
      cases e with
      | admitted | escalated => cases hattempt
      | stopped | ceilingExhausted | started | spawned | spendingUnknown => exact nofun
  · refine pairwise_append.2 ⟨h.within.unknown, pairwise_singleton _ _, fun _ _ e' he' _ ↦ ?_⟩
    rw [mem_singleton.1 he', hattempt]

theorem Spent.noteAttempt (h : Spent d jobs s) (hknown : ∀ e ∈ s.log, e.isUnknown = false)
    (haccounts : ∀ a ∈ e.accounts?, a.Within d) :
    Spent d jobs (s.note e) := by
  refine ⟨h.conserves, h.costPool, h.tokenPool, h.held, h.distinct, fun e' he' ↦ ?_, ?_⟩
  · rcases mem_append.1 he' with he' | he'
    · exact h.within.admissions e' he'
    · rw [mem_singleton.1 he']
      exact haccounts
  · refine pairwise_append.2 ⟨h.within.unknown, pairwise_singleton _ _, fun e' he' _ _ hu ↦ ?_⟩
    rw [hknown e' he'] at hu
    cases hu

/-! ### Primary attempts -/

theorem HasPool.spares {L L' : Ledger} {capacity : ℕ} (h : HasPool L key capacity)
    (hspares : Ledger.Spares id L L') : HasPool L' key capacity := by
  obtain ⟨hfits, p, hp, hkey, hcapacity⟩ := h
  obtain ⟨p', hp', hkey', hcapacity'⟩ := hspares.capacities p hp
  exact ⟨hfits, p', hp', hkey'.trans hkey, hcapacity'.trans hcapacity⟩

/-- What the reservation of a primary attempt is for. -/
def requestedAmounts (d : DriveSession) : List (PoolKey × ℕ) :=
  d.componentWarrantRequests.map fun r ↦ (⟨r.poolId, r.resourceType.asStr⟩, r.amount)

theorem Spent.room {capacity known : ℕ} (h : Spent d jobs s) (hpool : HasPool s.ledger key capacity)
    (hknown : (known : ℤ) ≤ s.ledger.consumedOn key)
    (hopens : Ledger.Opens id (requestedAmounts d) s.ledger L) (hL : L.Conserves) :
    known + s.reserved (s.inFlight ++ jobs) key + requested d key ≤ capacity := by
  obtain ⟨-, p, hp, rfl, hcapacity⟩ := hpool.spares hopens.spares
  -- the new reservation is held beside the others
  have hne : ∀ id' ∈ reservations (s.inFlight ++ jobs), id' ≠ id := by
    intro id' hid' heq
    have hheld := h.held id' hid'
    rw [heq, hopens.fresh] at hheld
    cases hheld
  have hnodup : (id :: reservations (s.inFlight ++ jobs)).Nodup :=
    nodup_cons.2 ⟨fun hid ↦ hne id hid rfl, h.distinct⟩
  have hheld : ∀ id' ∈ id :: reservations (s.inFlight ++ jobs), L.stateOf id' = some .held := by
    intro id' hid'
    rw [hopens.states]
    rcases mem_cons.1 hid' with rfl | hid'
    · rw [if_pos rfl]
    · rw [if_neg (hne id' hid'), h.held id' hid']
  have hsum := Ledger.sum_granted_le_heldOn hnodup hheld p.key
  have hsame : (reservations (s.inFlight ++ jobs)).map (fun id' ↦ L.granted id' p.key) =
      (reservations (s.inFlight ++ jobs)).map fun id' ↦ s.ledger.granted id' p.key :=
    map_congr_left fun id' hid' ↦ hopens.spares.granted id' (hne id' hid') p.key
  have hnew : L.granted id p.key = requested d p.key := by
    rw [hopens.granted h.conserves]
    unfold requestedAmounts requested
    rw [List.map_map]
    rfl
  rw [map_cons, sum_cons, hsame, ← reserved_eq, hnew] at hsum
  have hlaw := hL.heldOn_add_consumedOn_le hp
  rw [hopens.consumedOn h.conserves, hcapacity] at hlaw
  push_cast at hsum
  omega

theorem Spent.setLedger (h : Spent d jobs s) (hL : L.Conserves)
    (hspares : Ledger.Spares id s.ledger L) (hid : id ∉ reservations (s.inFlight ++ jobs)) :
    Spent d jobs { s with ledger := L } where
  conserves := hL
  costPool hmax := (h.costPool hmax).spares hspares
  tokenPool hmax := (h.tokenPool hmax).spares hspares
  held id' hid' := by
    rw [← h.held id' hid']
    exact hspares.states id' fun heq ↦ hid (heq ▸ hid')
  distinct := h.distinct
  within := h.within

theorem Spent.addJob (h : Spent d jobs s) (hheld : ∀ id ∈ worker.reservationId,
      s.ledger.stateOf id = some .held ∧ id ∉ reservations (s.inFlight ++ jobs)) :
    Spent d (jobs ++ [worker]) s := by
  have hsplit : reservations (s.inFlight ++ (jobs ++ [worker])) =
      reservations (s.inFlight ++ jobs) ++ worker.reservationId.toList := by
    unfold reservations
    rw [← append_assoc, filterMap_append]
    cases hid : worker.reservationId with
    | none => simp [hid]
    | some id => simp [hid]
  refine ⟨h.conserves, h.costPool, h.tokenPool, fun id hid ↦ ?_, ?_, h.within⟩
  · rw [hsplit] at hid
    rcases mem_append.1 hid with hid | hid
    · exact h.held id hid
    · exact (hheld id (mem_toList.1 hid)).1
  · rw [hsplit]
    refine nodup_append.2 ⟨h.distinct, ?_, fun id hid id' hid' heq ↦ ?_⟩
    · cases worker.reservationId with
      | none => exact nodup_nil
      | some id => exact nodup_singleton id
    · exact (hheld id' (mem_toList.1 hid')).2 (heq ▸ hid)

/-- All spending is known, and charged. -/
structure Clear (d : DriveSession) (s : LoopState) : Prop where
  known : ∀ e ∈ s.log, e.isUnknown = false
  charged : Charged d s

theorem Clear.note (h : Clear d s) (he : e.isUnknown = false) :
    Clear d (s.note e) := by
  refine ⟨fun e' he' ↦ ?_, h.charged.cost, h.charged.tokens⟩
  rcases mem_append.1 he' with he' | he'
  · exact h.known e' he'
  · rw [mem_singleton.1 he', he]

theorem Spent.reserves {a : Preparation} {sequence : ℕ} {reservationId : Option String}
    (h : Spent d jobs s) (hclear : Clear d s)
    (hreserves : Reserves d a jobs target sequence s (.ok reservationId) s') :
    (Spent d jobs s' ∧ ∀ worker : Worker, worker.reservationId = reservationId →
      Spent d (jobs ++ [worker]) s') ∧ Clear d s' := by
  cases hreserves with
  | unneeded hnone =>
    have hceilings : d.warrant.maxCostMicrousd = 0 ∧ d.warrant.maxTokens = 0 := by
      obtain ⟨hcost, htokens⟩ := append_eq_nil_iff.1 hnone
      refine ⟨?_, ?_⟩
      · by_contra hne
        rw [if_pos (Nat.pos_of_ne_zero hne)] at hcost
        cases hcost
      · by_contra hne
        rw [if_pos (Nat.pos_of_ne_zero hne)] at htokens
        cases htokens
    have hnoted : Spent d jobs (s.note (.admitted target.id (s.accounts d (s.inFlight ++ jobs)
        (requested d (d.pool .nanousdBudget)) (requested d (d.pool .uncachedTokens))))) := by
      refine h.noteAttempt hclear.known fun a ha ↦ ?_
      rw [← mem_some.1 ha]
      exact ⟨fun hmax ↦ by omega, fun hmax ↦ by omega⟩
    refine ⟨⟨hnoted, fun worker hworker ↦ hnoted.addJob fun id hid ↦ ?_⟩, hclear.note rfl⟩
    rw [hworker] at hid
    cases hid
  | @granted id arrival items c hrun =>
    have hopens : Ledger.Opens id (requestedAmounts d) s.ledger c.store := acquire_opens hrun
    have hL : c.store.Conserves := by
      have hmoves := acquire_moves a.random (d.owner sequence a.componentId)
        d.componentWarrantRequests .allOrNothing none ⟨s.ledger, a.acquireFaults⟩
      rw [show (acquire a.random (d.owner sequence a.componentId) d.componentWarrantRequests
        .allOrNothing none).run ⟨s.ledger, a.acquireFaults⟩ = _ from hrun] at hmoves
      exact Ledger.conserves_of_moves hmoves h.conserves
    have hid : id ∉ reservations (s.inFlight ++ jobs) := by
      intro hmem
      have hheld := h.held id hmem
      rw [hopens.fresh] at hheld
      cases hheld
    have hset : Spent d jobs { s with ledger := c.store } := h.setLedger hL hopens.spares hid
    have hnoted : Spent d jobs ({ s with ledger := c.store }.note (.admitted target.id (s.accounts d
        (s.inFlight ++ jobs) (requested d (d.pool .nanousdBudget))
          (requested d (d.pool .uncachedTokens))))) := by
      refine hset.noteAttempt hclear.known fun a ha ↦ ?_
      rw [← mem_some.1 ha]
      exact ⟨fun hmax ↦ h.room (h.costPool hmax) (hclear.charged.cost hmax) hopens hL,
        fun hmax ↦ h.room (h.tokenPool hmax) (hclear.charged.tokens hmax) hopens hL⟩
    refine ⟨⟨hnoted, fun worker hworker ↦ hnoted.addJob fun id' hid' ↦ ?_⟩, ?_⟩
    · rw [hworker] at hid'
      obtain rfl := mem_some.1 hid'
      refine ⟨?_, hid⟩
      show c.store.stateOf id = some .held
      rw [hopens.states, if_pos rfl]
    · refine Clear.note ⟨hclear.known, fun hmax ↦ ?_, fun hmax ↦ ?_⟩ rfl
      · exact (hclear.charged.cost hmax).trans_eq (hopens.consumedOn h.conserves _).symm
      · exact (hclear.charged.tokens hmax).trans_eq (hopens.consumedOn h.conserves _).symm

/-- What preparing keeps: all spending is known and charged, or what is left is refused. -/
structure Clearing (d : DriveSession) (i : PassInput) (targets : List DiscoveredPrd)
    (jobs : List Worker) (s : LoopState) : Prop where
  spent : Spent d jobs s
  clear : Clear d s ∨ ∀ prd ∈ targets, (i.preparation prd).refusal.isSome
  stopped : ∀ e ∈ s.log, e.isUnknown = true → s.stopAfterDrain.isSome

/-- The spending of attempts is known until a stop reason is recorded. -/
theorem Clearing.prepares {targets : List DiscoveredPrd} {prepared : Prepared}
    (h : Clearing d i (target :: targets) jobs s)
    (hprepares : Prepares d i jobs target s prepared s') :
    (∀ worker, prepared = .job worker → Clearing d i targets (jobs ++ [worker]) s') ∧
      ((∀ worker, prepared ≠ .job worker) → Clearing d i targets jobs s') := by
  -- an attempt is started only where all spending is known and charged
  have hstart : (i.preparation target).refusal = none →
      Clear d (s.start target.id) ∧ Spent d jobs (s.start target.id) := by
    intro hadmissible
    have hclear : Clear d s := by
      refine h.clear.resolve_right fun hrefused ↦ ?_
      have hsome := hrefused target mem_cons_self
      rw [hadmissible] at hsome
      cases hsome
    have hset : Spent d jobs
        { s with attemptedIds := target.id :: s.attemptedIds, attempted := s.attempted + 1 } :=
      h.spent.congr rfl rfl rfl
    have hclear' : Clear d
        { s with attemptedIds := target.id :: s.attemptedIds, attempted := s.attempted + 1 } :=
      ⟨hclear.known, hclear.charged.cost, hclear.charged.tokens⟩
    exact ⟨hclear'.note rfl, hset.noteAttempt hclear.known nofun⟩
  cases hprepares with
  | passedOver attemptedIds hjob =>
    refine ⟨fun worker hprepared ↦ absurd hprepared (hjob worker), fun _ ↦ ⟨h.spent.congr rfl rfl rfl,
      ?_, h.stopped⟩⟩
    rcases h.clear with hclear | hrefused
    · exact .inl ⟨hclear.known, hclear.charged.cost, hclear.charged.tokens⟩
    · exact .inr fun prd hprd ↦ hrefused prd (mem_cons_of_mem _ hprd)
  | started admissible hjob =>
    obtain ⟨hclear, hspent⟩ := hstart admissible
    refine ⟨fun worker hprepared ↦ absurd hprepared (hjob worker), fun _ ↦ ⟨hspent, .inl hclear,
      fun e he hunknown ↦ ?_⟩⟩
    rw [hclear.known e he] at hunknown
    cases hunknown
  | admitted admissible reserves hjob =>
    obtain ⟨hclear, hspent⟩ := hstart admissible
    obtain ⟨⟨hspent', hadd⟩, hclear'⟩ := hspent.reserves hclear reserves
    have hstopped : ∀ e ∈ s'.log, e.isUnknown = true → s'.stopAfterDrain.isSome := by
      intro e he hunknown
      rw [hclear'.known e he] at hunknown
      cases hunknown
    exact ⟨fun worker hprepared ↦ ⟨hadd worker (hjob worker hprepared).2, .inl hclear', hstopped⟩,
      fun _ ↦ ⟨hspent', .inl hclear', hstopped⟩⟩

theorem Spent.spawn (i : PassInput) (more : List Worker)
    (h : Spent d (jobs ++ more) s) :
    Spent d more (jobs.foldl (LoopState.spawn i) s) ∧
      (∀ e ∈ (jobs.foldl (LoopState.spawn i) s).log, e.isUnknown = true → e ∈ s.log) ∧
      (jobs.foldl (LoopState.spawn i) s).stopAfterDrain = s.stopAfterDrain := by
  induction jobs generalizing s with
  | nil => exact ⟨h, fun _ he _ ↦ he, rfl⟩
  | cons job jobs ih =>
    have hset : Spent d (jobs ++ more) (s.spawn i job) := by
      refine Spent.note ⟨h.conserves, h.costPool, h.tokenPool, ?_, ?_, h.within⟩ rfl
      · show ∀ id ∈ reservations (s.inFlight ++ [job] ++ (jobs ++ more)), _
        rw [append_assoc]
        exact h.held
      · show (reservations (s.inFlight ++ [job] ++ (jobs ++ more))).Nodup
        rw [append_assoc]
        exact h.distinct
    obtain ⟨hspent, hunknown, hstop⟩ := ih hset
    refine ⟨hspent, fun e he heq ↦ ?_, hstop⟩
    rcases mem_append.1 (hunknown e he heq) with hmem | hmem
    · exact hmem
    · rw [mem_singleton.1 hmem] at heq
      cases heq

/-! ### Results -/

theorem Spent.receive (h : Spent d [] s) (hworker : s.inFlight[n]? = some worker) :
    Spent d [] (s.receive n worker) ∧
      ∀ id ∈ worker.reservationId, id ∉ reservations (s.receive n worker).inFlight := by
  obtain ⟨hn, hget⟩ := List.getElem?_eq_some_iff.1 hworker
  have hperm : (worker :: s.inFlight.eraseIdx n).Perm s.inFlight := by
    rw [← hget]
    exact getElem_cons_eraseIdx_perm hn
  have hids : (reservations (worker :: s.inFlight.eraseIdx n)).Perm (reservations s.inFlight) :=
    hperm.filterMap _
  have hheld := h.held
  have hdistinct := h.distinct
  rw [append_nil] at hheld hdistinct
  rw [← hids.nodup_iff] at hdistinct
  have hsub : (reservations (s.inFlight.eraseIdx n)).Sublist
      (reservations (worker :: s.inFlight.eraseIdx n)) :=
    (sublist_cons_self _ _).filterMap _
  refine ⟨⟨h.conserves, h.costPool, h.tokenPool, fun id hid ↦ ?_, ?_, h.within⟩, fun id hid ↦ ?_⟩
  · rw [append_nil] at hid
    exact hheld id (hids.mem_iff.1 (hsub.mem hid))
  · rw [append_nil]
    exact hdistinct.sublist hsub
  · have hcons : reservations (worker :: s.inFlight.eraseIdx n) =
        id :: reservations (s.inFlight.eraseIdx n) := by
      unfold reservations
      rw [filterMap_cons, mem_def.1 hid]
    rw [hcons] at hdistinct
    exact (nodup_cons.1 hdistinct).1

theorem Spent.settleWarrant {e : Execution} (h : Spent d [] s)
    (hid : ∀ id ∈ worker.reservationId, id ∉ reservations s.inFlight) :
    Spent d [] (s.settleWarrant d e worker) := by
  unfold LoopState.settleWarrant
  split
  · exact h
  · rename_i id hworker
    have hmoves := settle_moves id (observation d e)
      (d.sessionId ++ ":" ++ toString worker.sequence) ⟨s.ledger, e.settleFaults⟩
    generalize hrun : (settle id (observation d e) (d.sessionId ++ ":" ++ toString worker.sequence)).run
      ⟨s.ledger, e.settleFaults⟩ = result at hmoves
    obtain ⟨outcome, c⟩ := result
    have hL : c.store.Conserves := Ledger.conserves_of_moves hmoves h.conserves
    have hspares : Ledger.Spares id s.ledger c.store := by
      cases outcome with
      | ok answer => exact settle_spares hrun
      | error error =>
        have hsame : c.store = s.ledger := Query.Atomic.transaction _ _ _ hrun
        rw [hsame]
        exact Ledger.Spares.refl id _
    have hset : Spent d [] { s with ledger := c.store } :=
      h.setLedger hL hspares (by rw [append_nil]; exact hid id hworker)
    dsimp only
    split
    · exact hset
    · exact hset.books (books_stopBatch _ _)

theorem Spent.noteSpending (h : Spent d jobs s) (id : PrdId) (cost tokens : Option ℕ) :
    Spent d jobs (s.noteSpending d id cost tokens) := by
  unfold LoopState.noteSpending
  split
  · exact h.note rfl
  · exact h

theorem Spent.account {e : Execution} (h : Spent d [] s)
    (hid : ∀ id ∈ worker.reservationId, id ∉ reservations s.inFlight) :
    Spent d [] (s.account d e worker) := by
  have hspend : Spent d [] (s.spend e.cost e.tokens) := h.congr rfl rfl rfl
  refine (hspend.noteSpending worker.target.id e.cost e.tokens).settleWarrant ?_
  rw [(frames_noteSpending _ _ _ _).inFlight]
  exact hid

theorem noteSpending_eq {id : PrdId} {cost tokens : Option ℕ}
    (h : ¬d.warrant.SpendingUnknown cost tokens) : s.noteSpending d id cost tokens = s :=
  if_neg h

theorem account_eq (d : DriveSession) (worker : Worker) (s : LoopState) (e : Execution) :
    (s.account d e worker).knownCost = (s.spend e.cost e.tokens).knownCost ∧
      (s.account d e worker).knownTokens = (s.spend e.cost e.tokens).knownTokens ∧
      (s.account d e worker).log =
        ((s.spend e.cost e.tokens).noteSpending d worker.target.id e.cost e.tokens).log := by
  have hnote : ∀ {s : LoopState} {cost tokens : Option ℕ},
      (s.noteSpending d worker.target.id cost tokens).knownCost = s.knownCost ∧
        (s.noteSpending d worker.target.id cost tokens).knownTokens = s.knownTokens := by
    intro s cost tokens
    unfold noteSpending
    split
    · exact ⟨rfl, rfl⟩
    · exact ⟨rfl, rfl⟩
  have hsettle : ∀ {s : LoopState}, (s.settleWarrant d e worker).knownCost = s.knownCost ∧
      (s.settleWarrant d e worker).knownTokens = s.knownTokens ∧
        (s.settleWarrant d e worker).log = s.log := by
    intro s
    unfold settleWarrant
    split
    · exact ⟨rfl, rfl, rfl⟩
    · dsimp only
      split
      · exact ⟨rfl, rfl, rfl⟩
      · exact ⟨rfl, rfl, rfl⟩
  unfold account
  exact ⟨hsettle.1.trans hnote.1, hsettle.2.1.trans hnote.2, hsettle.2.2⟩

/-- A sum of `u64` that stays below a ceiling has not saturated. -/
theorem add_le_of_saturatingAdd_le {a b ceiling : ℕ} (h : saturatingAdd a b ≤ ceiling)
    (hceiling : ceiling < maxU64) : a + b ≤ ceiling := by
  unfold saturatingAdd at h
  omega

/-- The invariant between the passes: a spending that stays unknown has been followed by a stop. -/
structure Settled (d : DriveSession) (s : LoopState) : Prop where
  spent : Spent d [] s
  stopped : ∀ e ∈ s.log, e.isUnknown = true → s.stopAfterDrain.isSome

theorem Spent.escalation {e : Execution} {stronger : StrongerWorker} (h : Spent d [] s)
    (hadmitted : Escalates d e stronger s) (halone : s.inFlight = []) :
    (s.accounts d s.inFlight (stronger.estimatedCostMicrousd.getD 0 * 1000)
      d.maxImplementationTokens).Within d := by
  obtain ⟨⟨hcost, htokens, -⟩, -, -⟩ := hadmitted
  have hsql : maxSqlAmount < maxU64 := by decide
  have hreserved : ∀ key, s.reserved s.inFlight key = 0 := by
    intro key
    rw [halone]
    rfl
  refine ⟨fun hmax ↦ ?_, fun hmax ↦ ?_⟩
  · obtain ⟨hfits, -⟩ := h.costPool hmax
    have hsum := add_le_of_saturatingAdd_le (hcost.resolve_left (by omega)) (by omega)
    have hnano := Nat.mul_le_mul_right 1000 hsum
    rw [Nat.add_mul] at hnano
    simp only [accounts, hreserved, Nat.add_zero]
    exact hnano
  · obtain ⟨hfits, -⟩ := h.tokenPool hmax
    have hsum := add_le_of_saturatingAdd_le (htokens.resolve_left (by omega)).2 (by omega)
    simp only [accounts, hreserved]
    omega

theorem Settled.processes {r : Drained} (h : Settled d s) (hworker : s.inFlight[n]? = some worker)
    (halone : ∀ e stronger, r.execution = some e → worker.escalationWorker = some stronger → ladderEscalation (retainedReason e) = true → Escalates d e stronger (s.spend e.cost e.tokens) → s.stopAfterDrain = none ∧ s.inFlight.eraseIdx n = [] ∧ ¬d.warrant.SpendingUnknown e.escalation.cost e.escalation.tokens)
    (hprocesses : Processes d r worker (s.receive n worker) s') :
    Spent d [] s' ∧ ∀ e ∈ s'.log, e.isUnknown = true →
      s'.stopAfterDrain.isSome ∨ s'.batchStop.isSome := by
  obtain ⟨hreceived, hid⟩ := h.spent.receive hworker
  have hstop : s'.stopAfterDrain = s.stopAfterDrain := hprocesses.frames.stopAfterDrain
  cases hprocesses with
  | closed before after stops =>
    exact ⟨((hreceived.books before).noteSpending _ _ _).books after, fun _ _ _ ↦ .inr stops⟩
  | @accounted e s₁ _ execution before after stops =>
    have hid₁ : ∀ id ∈ worker.reservationId, id ∉ reservations s₁.inFlight := by
      rw [before.frames.inFlight]
      exact hid
    refine ⟨((hreceived.books before).account hid₁).books after, fun event hevent hunknown ↦ ?_⟩
    by_cases hspending : d.warrant.SpendingUnknown e.cost e.tokens
    · exact .inr (stops hspending)
    · refine .inl (hstop ▸ h.stopped event ?_ hunknown)
      obtain ⟨_, _, _, _, rfl⟩ := after
      obtain ⟨_, _, _, _, rfl⟩ := before
      have hlog := (account_eq d worker _ e).2.2 ▸ hevent
      rw [noteSpending_eq hspending] at hlog
      exact hlog
  | @escalated e stronger s₁ s₂ _ execution stronger_eq ladder before books admitted after =>
    -- the totals that the admission is tested with
    obtain ⟨hknownCost, hknownTokens, hlog⟩ := account_eq d worker s₁ e
    have htotals : s₂.knownCost = (s.spend e.cost e.tokens).knownCost ∧
        s₂.knownTokens = (s.spend e.cost e.tokens).knownTokens := by
      obtain ⟨_, _, _, _, rfl⟩ := books
      obtain ⟨_, _, _, _, rfl⟩ := before
      exact ⟨hknownCost, hknownTokens⟩
    have hadmitted : Escalates d e stronger (s.spend e.cost e.tokens) := by
      unfold Escalates at admitted ⊢
      rw [← htotals.1, ← htotals.2]
      exact admitted
    obtain ⟨hnone, hempty, hknown⟩ := halone e stronger execution stronger_eq ladder hadmitted
    have hspending : ¬d.warrant.SpendingUnknown e.cost e.tokens := by
      rintro (⟨hmax, hcost⟩ | ⟨hmax, htokens⟩)
      · have hsome := admitted.2.1.resolve_left (by omega)
        rw [hcost] at hsome
        cases hsome
      · have hsome := admitted.2.2.resolve_left (by omega)
        rw [htokens] at hsome
        cases hsome
    have hid₁ : ∀ id ∈ worker.reservationId, id ∉ reservations s₁.inFlight := by
      rw [before.frames.inFlight]
      exact hid
    have hspent₂ : Spent d [] s₂ := ((hreceived.books before).account hid₁).books books
    have hlog₂ : s₂.log = s.log := by
      obtain ⟨_, _, _, _, rfl⟩ := books
      rw [noteSpending_eq hspending] at hlog
      obtain ⟨_, _, _, _, rfl⟩ := before
      exact hlog
    have hclear : ∀ event ∈ s₂.log, event.isUnknown = false := by
      intro event hevent
      by_contra hunknown
      have hsome := h.stopped event (hlog₂ ▸ hevent) (by simpa using hunknown)
      rw [hnone] at hsome
      cases hsome
    have hinFlight : s₂.inFlight = [] := by
      rw [books.frames.inFlight, (frames_account _ _).inFlight, before.frames.inFlight]
      exact hempty
    have hnoted := hspent₂.noteAttempt (e := .escalated worker.target.id _) hclear fun a ha ↦ by
      rw [← mem_some.1 ha]
      exact hspent₂.escalation admitted hinFlight
    rw [noteSpending_eq hknown] at after
    have hspend : Spent d [] ((s₂.note (.escalated worker.target.id (s₂.accounts d s₂.inFlight
        (stronger.estimatedCostMicrousd.getD 0 * 1000) d.maxImplementationTokens))).spend
          e.escalation.cost e.escalation.tokens) :=
      hnoted.congr rfl rfl rfl
    refine ⟨hspend.books after, fun event hevent hunknown ↦ ?_⟩
    obtain ⟨_, _, _, _, rfl⟩ := after
    rcases mem_append.1 hevent with hold | hnew
    · rw [hclear event hold] at hunknown
      cases hunknown
    · rw [mem_singleton.1 hnew] at hunknown
      cases hunknown

theorem Settled.mergeStop (h : Spent d [] s)
    (hstopped : ∀ e ∈ s.log, e.isUnknown = true → s.stopAfterDrain.isSome ∨ s.batchStop.isSome) :
    Settled d s.mergeStop := by
  unfold LoopState.mergeStop
  split
  · rename_i hnone
    refine ⟨h, fun e he hunknown ↦ (hstopped e he hunknown).resolve_right ?_⟩
    rw [hnone]
    exact nofun
  · exact ⟨Spent.note (h.congr rfl rfl rfl) rfl, fun _ _ _ ↦ rfl⟩

theorem Spent.observe (h : Spent d jobs s) : Spent d jobs (s.observe d i) := by
  have hlost : Spent d jobs (s.observeHeartbeat i) := by
    unfold observeHeartbeat
    split
    · exact Spent.note (h.congr rfl rfl rfl) rfl
    · exact h
  unfold LoopState.observe
  dsimp only
  split
  · exact Spent.note (Spent.note (hlost.congr rfl rfl rfl) rfl) rfl
  · exact hlost

theorem Settled.observe (h : Settled d s) : Settled d (s.observe d i) := by
  refine ⟨h.spent.observe, fun e he hunknown ↦ ?_⟩
  obtain ⟨stop, events, heq, hevents⟩ := observe_eq (d := d) (i := i) s
  rw [heq] at he
  rcases mem_append.1 he with hold | hnew
  · exact observe_isSome (h.stopped e hold hunknown)
  · have hstop := hevents e hnew
    cases e with
    | spendingUnknown id => cases hstop
    | stopped | ceilingExhausted | started | admitted | spawned | escalated => cases hunknown

/-- Starting what the pass may start. -/
theorem Settled.dispatch (h : Settled d s) (hholds : HoldsBack d s i)
    (hcharged : s.stops d i = none → Charged d s ∨ (s.observe d i).AdmitsNothing d i) :
    WithinCeilings d (s.dispatch d i).2.log ∧
      ((s.dispatch d i).1 = none → Settled d (s.dispatch d i).2) := by
  unfold LoopState.dispatch
  split
  · exact ⟨h.spent.within, nofun⟩
  rename_i hstops
  have hobserve := h.observe (i := i)
  dsimp only
  split
  · exact ⟨hobserve.spent.within, nofun⟩
  rename_i targets s₁ hchoose
  obtain ⟨-, hselectable, recordedDecisions, widthReported, rfl⟩ := choose_ok hchoose
  have hclear : Clear d { s.observe d i with recordedDecisions, widthReported } ∨
      ∀ prd ∈ targets, (i.preparation prd).refusal.isSome := by
    have hrefused : (s.observe d i).AdmitsNothing d i →
        ∀ prd ∈ targets, (i.preparation prd).refusal.isSome := by
      intro hnothing prd hprd
      obtain ⟨entries, hentries, hprd'⟩ := hselectable prd hprd
      exact hnothing entries prd hentries hprd'
    cases hstop : (s.observe d i).stopAfterDrain with
    | some reason => exact .inr (hrefused (hholds hstops (by rw [hstop]; rfl)))
    | none =>
      rcases hcharged hstops with hcharged | hnothing
      · refine .inl ⟨fun e he ↦ ?_, ?_, ?_⟩
        · by_contra hunknown
          have hsome := hobserve.stopped e he (by simpa using hunknown)
          rw [hstop] at hsome
          cases hsome
        · rw [(observe_of_none hstop).1]
          exact hcharged.cost
        · rw [(observe_of_none hstop).1]
          exact hcharged.tokens
      · exact .inr (hrefused hnothing)
  have hclearing : Clearing d i targets [] { s.observe d i with recordedDecisions, widthReported } :=
    ⟨hobserve.spent.congr rfl rfl rfl, hclear, hobserve.stopped⟩
  obtain ⟨hall, rest, jobs, hhalted⟩ := prepareAll_keeps (I := Clearing d i)
    (fun _ _ _ _ _ _ h hprepares ↦ h.prepares hprepares) hclearing
  split
  · rename_i exit s₂ hprepared
    rw [hprepared] at hhalted
    exact ⟨hhalted.spent.within, nofun⟩
  · rename_i jobs' s₂ hprepared
    rw [hprepared] at hall
    have hready := hall jobs' rfl
    obtain ⟨hspent, hunknown, hstop⟩ := Spent.spawn i [] (by rw [append_nil]; exact hready.spent)
    exact ⟨hspent.within, fun _ ↦ ⟨hspent, fun e he heq ↦
      hstop ▸ hready.stopped e (hunknown e he heq) heq⟩⟩

/-- Receiving a result. -/
theorem Settled.collects {out : LoopState × Option Exit} (h : Settled d s)
    (halone : EscalatesAlone d i s) (hcollects : Collects d i s out) : Settled d out.1 := by
  cases hcollects with
  | left exit => exact h
  | failed inFlight exit => exact ⟨(h.spent.receive inFlight).1, h.stopped⟩
  | processed active received inFlight processes exit =>
    obtain ⟨hspent, hstopped⟩ := h.processes inFlight
      (fun e stronger ↦ halone _ _ _ e stronger received inFlight) processes
    exact .mergeStop hspent hstopped

theorem Settled.pass (h : Settled d s) (hapart : SpendsApart d s i) :
    WithinCeilings d (s.pass d i).1.log ∧ ((s.pass d i).2 = none → Settled d (s.pass d i).1) := by
  obtain ⟨hwithin, hsettled⟩ := h.dispatch hapart.holdsBack hapart.charged
  have halone := hapart.alone
  unfold LoopState.pass
  split
  · rename_i exit s₁ hleft
    rw [hleft] at hwithin
    exact ⟨hwithin, nofun⟩
  · rename_i s₁ hgoes
    rw [hgoes] at hsettled halone
    have hcollected := (hsettled rfl).collects (halone rfl) (collect_collects _)
    exact ⟨hcollected.spent.within, fun _ ↦ hcollected⟩

end LoopState

namespace DriveSession

variable {faults faults' : List (Option FamiliarError)} {L L' : Ledger}

theorem definePool_hasPool {resource : ResourceType} {capacity : ℕ} (hL : L.Conserves)
    (hnew : ∀ p ∈ L.pools.rows, p.key ≠ d.pool resource)
    (h : d.definePool resource capacity faults L = .ok L') :
    L'.Conserves ∧ LoopState.HasPool L' (d.pool resource) capacity ∧
      L'.pools.rows = L.pools.rows ++ [⟨d.pool resource, capacity, capacity, false⟩] := by
  have hmoves := definePool_moves d.sessionId resource capacity false ⟨L, faults⟩
  unfold definePool at h
  split at h
  · rename_i u c hrun
    obtain rfl := Except.ok.inj h
    rw [hrun] at hmoves
    obtain ⟨hfits, hrows⟩ := definePool_defines hrun hnew
    refine ⟨Ledger.conserves_of_moves hmoves hL,
      ⟨hfits, ⟨d.pool resource, capacity, capacity, false⟩, ?_, rfl, rfl⟩, hrows⟩
    rw [hrows]
    exact mem_append_right _ (mem_singleton.2 rfl)
  · cases h

theorem openPools_settled (hL : L.Conserves) (hfresh : ∀ p ∈ L.pools.rows, p.key.poolId ≠ d.sessionId)
    (h : d.openPools faults faults' L = .ok L') : LoopState.Settled d (.initial L') := by
  obtain ⟨L₁, hcost, htokens⟩ : ∃ L₁, d.openCostPool faults L = .ok L₁ ∧
      d.openTokenPool faults' L₁ = .ok L' := by
    unfold openPools at h
    rcases hcost : d.openCostPool faults L with e | L₁
    · rw [hcost] at h
      cases h
    rw [hcost] at h
    exact ⟨L₁, rfl, h⟩
  -- the cost pool
  have hfirst : L₁.Conserves ∧ (0 < d.warrant.maxCostMicrousd → LoopState.HasPool L₁
      (d.pool .nanousdBudget) (d.warrant.maxCostMicrousd * 1000)) ∧
        ∀ p ∈ L₁.pools.rows, p.key ≠ d.pool .uncachedTokens := by
    unfold openCostPool at hcost
    split at hcost
    · rename_i hzero
      obtain rfl := Except.ok.inj hcost
      exact ⟨hL, fun hmax ↦ absurd hzero hmax.ne', fun p hp hkey ↦ hfresh p hp (hkey ▸ rfl)⟩
    · split at hcost
      · obtain ⟨hconserves, hpool, hrows⟩ :=
          definePool_hasPool hL (fun p hp hkey ↦ hfresh p hp (hkey ▸ rfl)) hcost
        refine ⟨hconserves, fun _ ↦ hpool, fun p hp hkey ↦ ?_⟩
        rw [hrows] at hp
        rcases mem_append.1 hp with hp | hp
        · exact hfresh p hp (hkey ▸ rfl)
        · rw [mem_singleton.1 hp] at hkey
          have hname : ResourceType.nanousdBudget.asStr = ResourceType.uncachedTokens.asStr :=
            congrArg PoolKey.resourceType hkey
          exact absurd hname (by decide)
      · cases hcost
  obtain ⟨hconserves₁, hpool₁, hnew₁⟩ := hfirst
  -- the token pool
  have hsecond : L'.Conserves ∧ (0 < d.warrant.maxCostMicrousd → LoopState.HasPool L'
      (d.pool .nanousdBudget) (d.warrant.maxCostMicrousd * 1000)) ∧
        (0 < d.warrant.maxTokens → LoopState.HasPool L' (d.pool .uncachedTokens)
          d.warrant.maxTokens) := by
    unfold openTokenPool at htokens
    split at htokens
    · rename_i hzero
      obtain rfl := Except.ok.inj htokens
      exact ⟨hconserves₁, hpool₁, fun hmax ↦ absurd hzero hmax.ne'⟩
    · obtain ⟨hconserves, hpool, hrows⟩ := definePool_hasPool hconserves₁ hnew₁ htokens
      refine ⟨hconserves, fun hmax ↦ ?_, fun _ ↦ hpool⟩
      obtain ⟨hfits, p, hp, hkey, hcapacity⟩ := hpool₁ hmax
      exact ⟨hfits, p, hrows ▸ mem_append_left _ hp, hkey, hcapacity⟩
  obtain ⟨hconserves, hcostPool, htokenPool⟩ := hsecond
  exact ⟨⟨hconserves, hcostPool, htokenPool, nofun, nodup_nil, nofun, List.Pairwise.nil⟩, nofun⟩

end DriveSession

def tenMicrousd : DriveSession where
  sessionId := "drive-2"
  repositoryKey := "repository"
  warrant := { maxCostMicrousd := 10 }
  parallelism := 2
  maxImplementationTokens := 0
  maxDeliveries := none
  parallelism_pos := Nat.two_pos
  finite := by decide

/-- The ledger with the pool of that session. -/
def tenMicrousdLedger : Ledger :=
  ((tenMicrousd.openPools [] [] .empty).toOption).getD .empty

/-- A pass over a ready backlog in which the first worker in flight reports. A failed attempt can be
escalated to a worker that is estimated to cost six microUSD. -/
def reportingPass (backlog : List DiscoveredPrd) (execution : Execution) : PassInput where
  discovered := .ok backlog
  readFile _ := .error "not read"
  snapshot := .ok (backlog.map (⟨·, .pending⟩))
  preparation prd :=
    { componentId := "component-PRD-001"
      sequence := some prd.id.number
      random := some (toString prd.id.number)
      route := .ok (some ⟨some 6, 1⟩) }
  received := some (0, { execution := some execution })

/-- An attempt that costs four microUSD and lands. -/
def landedExecution : Execution where
  succeeded := true
  cost := some 4
  tokens := none
  landed := true
  escalation := { elapsedMs := 0, succeeded := false, landed := false, cost := none, tokens := none }

/-- Two attempts that land, one after the other. -/
def landingPasses : List PassInput :=
  [reportingPass (threeReady.take 2) landedExecution,
    reportingPass (threeReady.take 2) landedExecution]

/-- An attempt that costs four microUSD and fails its verification. -/
def failedExecution : Execution where
  succeeded := false
  retainedReason := some "verification_failed"
  cost := some 4
  tokens := none
  landed := false
  escalation :=
    { elapsedMs := 0, succeeded := true, landed := true, cost := some 6, tokens := none }

end FamiliarAi
