import FamiliarAi.Json.Basic
import FamiliarAi.Probation.Standing
import FamiliarAi.Transition.System

/-!
# Evaluations and operators at one worker

`apply_policy` and `set_routing_pin` read the current standing of a worker and write the next one in
a later statement, with no transaction around the two. Any number of callers take their reads and
writes in any order here, next to operators who set standings. `authorize` is a single read, so what
it answers is decided by the state it reads.

An operator's quarantine or retirement that lands between the read and the write of an evaluation is
undone by the write (`evaluation_lifts_quarantine`), although an evaluation that reads it leaves it
alone. In the runs where no such write lands above a control, and every control is stamped after the
worker's earlier events, a control holds until an operator sets another standing
(`authorize_refuses_controlled`).
-/

namespace FamiliarAi

open Relational Transition

/-- The arguments of `apply_policy`. -/
structure PolicyCall where
  eventId : String
  scoreId : String
  worker : WorkerKey
  policy : ProbationPolicy

/-- The arguments of `set_routing_pin`. -/
structure PinCall where
  eventId : String
  worker : WorkerKey
  actor : String
  reason : String

/-- The statement that an `apply_policy` comes to. -/
inductive PolicyPhase
  | recording
  | measuring
  | listing (metrics : EmpiricalMetrics) (result : EmpiricalScore)
  | saving (metrics : EmpiricalMetrics) (result : EmpiricalScore)
      (observationIds costObservationIds : List String)
  | comparing (result : EmpiricalScore)
  | deciding (result : EmpiricalScore) (standing : WorkerStanding)
  | returned (result : EmpiricalScore)

/-- The statement that a `set_routing_pin` comes to. -/
inductive PinPhase
  | comparing
  | deciding
  | returned (applied : Bool)

inductive ProbationCaller
  | policy (call : PolicyCall) (phase : PolicyPhase)
  | pin (call : PinCall) (phase : PinPhase)
  | failed (e : FamiliarError)

/-- What one statement of a caller finds outside the tables of the standings. -/
structure Surroundings where
  now : String
  evidence : Evidence

def PolicyCall.reason (call : PolicyCall) (result : EmpiricalScore) : String :=
  .ofList (Json.obj [
    ("cost_per_accepted_prd", .option .nat result.costPerAcceptedPrd),
    ("cost_unit", .option .str result.costUnit),
    ("policy_id", .str call.policy.policyId),
    ("policy_version", .str call.policy.version),
    ("promotion_eligible", .bool result.promotionEligible),
    ("review_pass_basis_points", .option .nat result.reviewPassBasisPoints)]).render

/-- The event that an `apply_policy` writes. -/
def PolicyCall.event (call : PolicyCall) (result : EmpiricalScore) (standing : WorkerStanding)
    (now : String) : StandingEvent where
  eventId := call.eventId
  worker := call.worker
  standing
  source := "policy"
  scoreId := some call.scoreId
  actor := "deterministic-policy"
  reason := call.reason result
  occurredAt := now

/-- The event that a `set_routing_pin` writes. -/
def PinCall.event (call : PinCall) (now : String) : StandingEvent where
  eventId := call.eventId
  worker := call.worker
  standing := .promoted
  source := "operator-pin"
  scoreId := none
  actor := call.actor
  reason := call.reason
  occurredAt := now

/-- The next statement of `apply_policy`: the store it leaves, and where the call then stands. -/
def PolicyCall.step (call : PolicyCall) (store : ProbationStore) (around : Surroundings) :
    PolicyPhase → ProbationStore × ProbationCaller
  | .recording => (store.recordPolicy call.policy, .policy call .measuring)
  | .measuring =>
    let metrics := around.evidence.metrics
    (store, .policy call (.listing metrics
      (score call.policy metrics (around.evidence.trusted call.worker))))
  | .listing metrics result =>
    (store, .policy call (.saving metrics result
      ((around.evidence.observations.map (·.observationId)).mergeSort (· ≤ ·))
      around.evidence.costObservationIds))
  | .saving metrics result observationIds costObservationIds =>
    match store.insertScore {
      scoreId := call.scoreId
      worker := call.worker
      policyId := call.policy.policyId
      policyVersion := call.policy.version
      metrics
      score := result
      observationIds
      costObservationIds } with
    | .ok store' => (store', .policy call (.comparing result))
    | .error e => (store, .failed e)
  | .comparing result =>
    let current := (store.current call.worker).map (·.standing)
    let standing := if result.promotionEligible then .promoted else .probation
    if current = some .quarantined ∨ current = some .retired then
      (store, .policy call (.returned result))
    else if current = some standing then (store, .policy call (.returned result))
    else (store, .policy call (.deciding result standing))
  | .deciding result standing =>
    match store.setStanding (call.event result standing around.now) with
    | .ok store' => (store', .policy call (.returned result))
    | .error e => (store, .failed e)
  | .returned result => (store, .policy call (.returned result))

/-- The next statement of `set_routing_pin`. -/
def PinCall.step (call : PinCall) (store : ProbationStore) (around : Surroundings) :
    PinPhase → ProbationStore × ProbationCaller
  | .comparing =>
    let current := (store.current call.worker).map (·.standing)
    if current = some .quarantined ∨ current = some .retired then
      (store, .pin call (.returned false))
    else (store, .pin call .deciding)
  | .deciding =>
    match store.setStanding (call.event around.now) with
    | .ok store' => (store', .pin call (.returned true))
    | .error e => (store, .failed e)
  | .returned applied => (store, .pin call (.returned applied))

def ProbationCaller.step (store : ProbationStore) (around : Surroundings) :
    ProbationCaller → ProbationStore × ProbationCaller
  | .policy call phase => call.step store around phase
  | .pin call phase => call.step store around phase
  | .failed e => (store, .failed e)

/-- The event that the next statement of a caller writes, when it writes one. -/
def ProbationCaller.pending (around : Surroundings) : ProbationCaller → Option StandingEvent
  | .policy call (.deciding result standing) => some (call.event result standing around.now)
  | .pin call .deciding => some (call.event around.now)
  | _ => none

/-- The store with everyone who works on it. -/
structure Probation where
  store : ProbationStore := {}
  callers : List ProbationCaller := []
  /-- The standings that operators have set, the latest first. -/
  explicit : List (WorkerKey × WorkerStanding) := []

inductive ProbationStep
  | recordSpec (worker : WorkerKey)
  | setStanding (event : StandingEvent)
  | applyPolicy (call : PolicyCall)
  | setRoutingPin (call : PinCall)
  | advance (i : ℕ) (around : Surroundings)
  /-- A statement of a caller fails outside the store, or the caller dies. -/
  | fail (i : ℕ) (e : FamiliarError)

namespace Probation

def step (P : Probation) : ProbationStep → Option Probation
  | .recordSpec worker =>
    some { P with
      store := { P.store with
        specs := worker.spec :: P.store.specs
        versions := worker.version :: P.store.versions } }
  | .setStanding event =>
    match P.store.setStanding event with
    | .ok store =>
      some { P with store, explicit := (event.worker, event.standing) :: P.explicit }
    | .error _ => some P
  | .applyPolicy call => some { P with callers := P.callers ++ [.policy call .recording] }
  | .setRoutingPin call => some { P with callers := P.callers ++ [.pin call .comparing] }
  | .advance i around => P.callers[i]?.map fun caller ↦
      let (store, caller) := caller.step P.store around
      { P with store, callers := P.callers.set i caller }
  | .fail i e => P.callers[i]?.map fun _ ↦ { P with callers := P.callers.set i (.failed e) }

/-- What operators last said of the worker is that it is quarantined or retired. -/
def Controlled (P : Probation) (worker : WorkerKey) : Prop :=
  ∃ standing, P.explicit.lookup worker = some standing ∧ standing.isControl = true

instance (P : Probation) (worker : WorkerKey) : Decidable (P.Controlled worker) :=
  decidable_of_iff ((P.explicit.lookup worker).any (·.isControl) = true) (by
    simp [Controlled, Option.any_eq_true])

end Probation

/-- Standings under evaluation, from an empty store. -/
def probation : System Probation ProbationStep where
  start P := P = {}
  step := Probation.step

def Undisputed (P : Probation) : ProbationStep → Prop
  | .setStanding event => event.standing.isControl = true →
      ∀ row ∈ P.store.current event.worker, row.standing.isControl = true ∨ row.key < event.key
  | .advance i around => ∀ caller ∈ P.callers[i]?, ∀ event ∈ caller.pending around,
      P.Controlled event.worker → ∀ row ∈ P.store.current event.worker, event.key ≤ row.key
  | _ => True

instance (P : Probation) : ∀ e, Decidable (Undisputed P e)
  | .setStanding event => inferInstanceAs (Decidable (event.standing.isControl = true →
      ∀ row ∈ P.store.current event.worker, row.standing.isControl = true ∨ row.key < event.key))
  | .advance i around => inferInstanceAs (Decidable (∀ caller ∈ P.callers[i]?,
      ∀ event ∈ caller.pending around, P.Controlled event.worker →
        ∀ row ∈ P.store.current event.worker, event.key ≤ row.key))
  | .recordSpec _ | .applyPolicy _ | .setRoutingPin _ | .fail _ _ => .isTrue trivial

/-- The workers under control are refused, whatever is asked for. -/
def Probation.Obeys (P : Probation) : Prop :=
  ∀ worker, P.Controlled worker → ∀ policy expectedFiles hasRisk independentReview, ∃ e,
    P.store.authorize worker policy expectedFiles hasRisk independentReview = .error e

section Statements

variable {store store' : ProbationStore} {around : Surroundings} {call : PolicyCall} {pin : PinCall}

theorem ProbationStore.standings_insertScore {row : ScoreSnapshot}
    (h : store.insertScore row = .ok store') : store'.standings = store.standings := by
  unfold insertScore at h
  split at h
  · rcases hinsert : store.scores.insert row with _ | scores
    · rw [hinsert] at h
      cases h
    rw [hinsert] at h
    obtain rfl := Except.ok.inj h
    rfl
  · cases h

theorem PolicyCall.standings_step (phase : PolicyPhase) :
    (call.step store around phase).1.standings = store.standings ∨
      ∃ event, (ProbationCaller.policy call phase).pending around = some event ∧
        store.setStanding event = .ok (call.step store around phase).1 := by
  cases phase with
  | recording | measuring | listing | returned => exact .inl rfl
  | saving metrics result observationIds costObservationIds =>
    refine .inl ?_
    rw [PolicyCall.step]
    split
    · rename_i hinsert
      exact ProbationStore.standings_insertScore hinsert
    · rfl
  | comparing result =>
    refine .inl ?_
    rw [PolicyCall.step]
    split_ifs <;> rfl
  | deciding result standing =>
    rw [PolicyCall.step]
    cases hset : store.setStanding (call.event result standing around.now) with
    | ok store' => exact .inr ⟨_, rfl, hset⟩
    | error e => exact .inl rfl

theorem PinCall.standings_step (phase : PinPhase) :
    (pin.step store around phase).1.standings = store.standings ∨
      ∃ event, (ProbationCaller.pin pin phase).pending around = some event ∧
        store.setStanding event = .ok (pin.step store around phase).1 := by
  cases phase with
  | returned => exact .inl rfl
  | comparing =>
    refine .inl ?_
    rw [PinCall.step]
    split_ifs <;> rfl
  | deciding =>
    rw [PinCall.step]
    cases hset : store.setStanding (pin.event around.now) with
    | ok store' => exact .inr ⟨_, rfl, hset⟩
    | error e => exact .inl rfl

theorem ProbationCaller.standings_step (caller : ProbationCaller) (store : ProbationStore)
    (around : Surroundings) :
    (caller.step store around).1.standings = store.standings ∨
      ∃ event, caller.pending around = some event ∧
        store.setStanding event = .ok (caller.step store around).1 := by
  cases caller with
  | policy call phase => exact call.standings_step phase
  | pin call phase => exact call.standings_step phase
  | failed e => exact .inl rfl

theorem ProbationStore.Held.congr {worker : WorkerKey} (h : store.Held worker)
    (hstandings : store'.standings = store.standings) : store'.Held worker := by
  obtain ⟨row, hrow, hcontrol⟩ := h
  exact ⟨row, by rw [ProbationStore.current, hstandings]; exact hrow, hcontrol⟩

end Statements

/-- The order that undisputed steps keep: a worker under control is held. -/
def Probation.Holds (P : Probation) : Prop :=
  ∀ worker, P.Controlled worker → P.store.Held worker

variable {P : Probation}

theorem Probation.Holds.obeys (h : P.Holds) : P.Obeys :=
  fun worker hcontrolled policy expectedFiles hasRisk independentReview ↦
    ProbationStore.authorize_of_held (h worker hcontrolled) policy expectedFiles hasRisk
      independentReview

theorem Probation.Holds.setStanding {event : StandingEvent} {store : ProbationStore} (h : P.Holds)
    (hcond : Undisputed P (.setStanding event)) (hset : P.store.setStanding event = .ok store) :
    Holds { P with store, explicit := (event.worker, event.standing) :: P.explicit } := by
  rintro worker ⟨standing, hlookup, hcontrol⟩
  by_cases hworker : worker = event.worker
  · -- this is now the last word on the worker
    subst hworker
    rw [List.lookup_cons_self] at hlookup
    obtain rfl := Option.some.inj hlookup
    exact ProbationStore.held_setStanding_control hset hcontrol fun row hrow ↦
      hcond hcontrol row hrow
  · rw [List.lookup_cons, beq_eq_false_iff_ne.2 hworker] at hlookup
    exact (h worker ⟨standing, hlookup, hcontrol⟩).setStanding hset fun heq ↦
      absurd heq.symm hworker

theorem Probation.Holds.advance {i : ℕ} {around : Surroundings} {caller : ProbationCaller}
    (h : P.Holds) (hcond : Undisputed P (.advance i around)) (hi : P.callers[i]? = some caller) :
    Holds { P with
      store := (caller.step P.store around).1
      callers := P.callers.set i (caller.step P.store around).2 } := by
  intro worker hcontrolled
  rcases caller.standings_step P.store around with hsame | ⟨event, hevent, hset⟩
  · exact (h worker hcontrolled).congr hsame
  · refine (h worker hcontrolled).setStanding hset ?_
    rintro rfl row hrow
    exact hcond caller hi event hevent hcontrolled row hrow

theorem Probation.Holds.step {P P' : Probation} {e : ProbationStep} (h : P.Holds)
    (hcond : Undisputed P e) (hstep : P.step e = some P') : P'.Holds := by
  cases e with
  | recordSpec worker =>
    obtain rfl := Option.some.inj hstep
    exact fun worker hcontrolled ↦ (h worker hcontrolled).congr rfl
  | setStanding event =>
    rw [Probation.step] at hstep
    rcases hset : P.store.setStanding event with e | store
    · rw [hset] at hstep
      obtain rfl := Option.some.inj hstep
      exact h
    rw [hset] at hstep
    obtain rfl := Option.some.inj hstep
    exact h.setStanding hcond hset
  | applyPolicy call | setRoutingPin call =>
    obtain rfl := Option.some.inj hstep
    exact h
  | advance i around =>
    obtain ⟨caller, hi, rfl⟩ := Option.map_eq_some_iff.1 hstep
    exact h.advance hcond hi
  | fail i e =>
    obtain ⟨caller, -, rfl⟩ := Option.map_eq_some_iff.1 hstep
    exact h

namespace Evaluation

def worker : WorkerKey where
  spec := "spec"
  version := "version"

def policy : ProbationPolicy where
  policyId := "test"
  version := "1"
  minimumAcceptedPrds := 1
  minimumReviewPassBasisPoints := 10000
  maximumRemediationBasisPoints := 0
  maximumFailureBasisPoints := 0
  probationMaxExpectedFiles := 2
  requireIndependentReview := true

def call : PolicyCall where
  eventId := "policy-event"
  scoreId := "score"
  worker
  policy

/-- One accepted observation, read at the given instant. -/
def seenAt (now : String) : Surroundings where
  now
  evidence := {
    observations := [{
      observationId := "accepted"
      accepted := true
      verificationPassed := true
      independentReviewPassed := some true
      remediationRequired := false
      failed := false
      latencyMs := 1 }]
    modelKnown := true }

def quarantine (now : String) : ProbationStep :=
  .setStanding {
    eventId := "quarantine"
    worker
    standing := .quarantined
    source := "operator-quarantine"
    scoreId := none
    actor := "operator"
    reason := "unsafe"
    occurredAt := now }

/-- The worker is quarantined before the policy reads its standing. -/
def quarantinedBefore : List ProbationStep :=
  [.recordSpec worker, .applyPolicy call] ++ List.replicate 4 (.advance 0 (seenAt "1")) ++
    [quarantine "2", .advance 0 (seenAt "3"), .advance 0 (seenAt "4")]

/-- The worker is quarantined after the policy has read its standing. -/
def quarantinedBetween : List ProbationStep :=
  [.recordSpec worker, .applyPolicy call] ++ List.replicate 5 (.advance 0 (seenAt "1")) ++
    [quarantine "2", .advance 0 (seenAt "3")]

theorem quarantinedBefore_run : ∃ P,
    probation.Reaches Undisputed P ∧ P.Controlled worker :=
  System.exists_reaches rfl quarantinedBefore (by decide)

theorem quarantinedBetween_run : ∃ P, probation.Reachable P ∧ P.Controlled worker ∧
    P.store.authorize worker policy 99 true false = .ok () :=
  System.exists_reaches rfl quarantinedBetween (by decide +kernel)

end Evaluation

def EmpiricalScore.standing (result : EmpiricalScore) : WorkerStanding :=
  if result.promotionEligible then .promoted else .probation

/-- A stored score of the worker says what the standing is, and is the one of the stored metrics
under a policy of the stored id and version. -/
def ProbationStore.Grounds (store : ProbationStore) (worker : WorkerKey) (scoreId : String)
    (standing : WorkerStanding) : Prop :=
  ∃ row ∈ store.scores.rows, row.scoreId = scoreId ∧ row.worker = worker ∧
    row.score.standing = standing ∧ ∃ policy trusted, policy.policyId = row.policyId ∧
      policy.version = row.policyVersion ∧ row.score = score policy row.metrics trusted

def StandingEvent.Attested (store : ProbationStore) (event : StandingEvent) : Prop :=
  event.source = "policy" →
    ∃ scoreId ∈ event.scoreId, store.Grounds event.worker scoreId event.standing

/-- The score of an evaluation is its policy's, and is stored once it has been saved. -/
def ProbationCaller.Sound (store : ProbationStore) : ProbationCaller → Prop
  | .policy call (.listing metrics result) | .policy call (.saving metrics result _ _) =>
    ∃ trusted, result = score call.policy metrics trusted
  | .policy call (.comparing result) => store.Grounds call.worker call.scoreId result.standing
  | .policy call (.deciding _ standing) => store.Grounds call.worker call.scoreId standing
  | _ => True

structure Probation.Recorded (P : Probation) : Prop where
  callers : ∀ caller ∈ P.callers, caller.Sound P.store
  standings : ∀ event ∈ P.store.standings.rows, event.Attested P.store

/-- An operator sets a standing in the name of the policy. -/
def ProbationStep.posesAsPolicy : ProbationStep → Bool
  | .setStanding event => event.source = "policy"
  | _ => false

section Recorded

variable {P P' : Probation} {store store' : ProbationStore} {caller : ProbationCaller}
  {worker : WorkerKey} {scoreId : String} {standing : WorkerStanding} {event : StandingEvent}

theorem ProbationStore.Grounds.mono (h : store.Grounds worker scoreId standing)
    (hscores : store.scores.rows ⊆ store'.scores.rows) :
    store'.Grounds worker scoreId standing := by
  obtain ⟨row, hrow, hrest⟩ := h
  exact ⟨row, hscores hrow, hrest⟩

theorem StandingEvent.Attested.mono (h : event.Attested store)
    (hscores : store.scores.rows ⊆ store'.scores.rows) : event.Attested store' := by
  intro hsource
  obtain ⟨scoreId, hid, hgrounds⟩ := h hsource
  exact ⟨scoreId, hid, hgrounds.mono hscores⟩

theorem ProbationCaller.Sound.mono (h : caller.Sound store)
    (hscores : store.scores.rows ⊆ store'.scores.rows) : caller.Sound store' := by
  unfold Sound at h ⊢
  split at h
  · exact h
  · exact h
  · exact h.mono hscores
  · exact h.mono hscores
  · trivial

theorem ProbationStore.mem_setStanding (h : store.setStanding event = .ok store') :
    store.scores.rows ⊆ store'.scores.rows ∧
      ∀ row ∈ store'.standings.rows, row ∈ store.standings.rows ∨ row = event := by
  obtain ⟨standings, hinsert, rfl⟩ := setStanding_eq_ok h
  exact ⟨List.Subset.refl _, fun row ↦ (Table.mem_insert hinsert).1⟩

/-- What a statement of a caller leaves. -/
structure Steps (store : ProbationStore) (after : ProbationStore × ProbationCaller) : Prop where
  scores : store.scores.rows ⊆ after.1.scores.rows
  caller : after.2.Sound after.1
  standings : ∀ event ∈ after.1.standings.rows,
    event ∈ store.standings.rows ∨ event.Attested after.1

theorem Steps.same (h : caller.Sound store) : Steps store (store, caller) :=
  ⟨List.Subset.refl _, h, fun _ ↦ .inl⟩

theorem Steps.of_setStanding (h : store.setStanding event = .ok store')
    (hevent : event.Attested store) (hcaller : caller.Sound store') :
    Steps store (store', caller) := by
  obtain ⟨hscores, hrows⟩ := ProbationStore.mem_setStanding h
  refine ⟨hscores, hcaller, fun row hrow ↦ (hrows row hrow).imp_right ?_⟩
  rintro rfl
  exact hevent.mono hscores

theorem ProbationCaller.Sound.steps (around : Surroundings) (h : caller.Sound store) :
    Steps store (caller.step store around) := by
  cases caller with
  | failed e => exact .same trivial
  | pin call phase =>
    rw [step, PinCall.step.eq_def]
    split
    · exact iteInduction (fun _ ↦ .same trivial) fun _ ↦ .same trivial
    · split
      · have hpin : "operator-pin" ≠ "policy" := by decide
        exact .of_setStanding ‹_› (fun hsource ↦ absurd hsource hpin) trivial
      · exact .same trivial
    · exact .same trivial
  | policy call phase =>
    cases phase with
    | recording => exact ⟨List.Subset.refl _, trivial, fun _ ↦ .inl⟩
    | measuring => exact .same ⟨_, rfl⟩
    | listing metrics result => exact .same h
    | returned result => exact .same trivial
    | saving metrics result observationIds costObservationIds =>
      obtain ⟨trusted, rfl⟩ := h
      rw [step, PolicyCall.step]
      split
      · rename_i store' hinsert
        unfold ProbationStore.insertScore at hinsert
        split at hinsert
        · split at hinsert
          · rename_i scores hscores
            obtain rfl := Except.ok.inj hinsert
            have hnew := (Table.mem_insert hscores).2 (.inr rfl)
            exact ⟨fun row hrow ↦ (Table.mem_insert hscores).2 (.inl hrow),
              ⟨_, hnew, rfl, rfl, rfl, call.policy, trusted, rfl, rfl, rfl⟩, fun _ ↦ .inl⟩
          · cases hinsert
        · cases hinsert
      · exact .same trivial
    | comparing result =>
      rw [step, PolicyCall.step]
      exact iteInduction (fun _ ↦ .same trivial) fun _ ↦
        iteInduction (fun _ ↦ .same trivial) fun _ ↦ .same h
    | deciding result standing =>
      rw [step, PolicyCall.step]
      split
      · refine .of_setStanding ‹_› ?_ trivial
        exact fun _ ↦ ⟨call.scoreId, rfl, h⟩
      · exact .same trivial

theorem Probation.Recorded.step {e : ProbationStep} (h : P.Recorded)
    (hown : e.posesAsPolicy = false) (hstep : P.step e = some P') : P'.Recorded := by
  cases e with
  | recordSpec worker =>
    obtain rfl := Option.some.inj hstep
    exact ⟨h.callers, h.standings⟩
  | setStanding event =>
    rw [Probation.step] at hstep
    split at hstep
    · obtain rfl := Option.some.inj hstep
      obtain ⟨hscores, hrows⟩ := ProbationStore.mem_setStanding ‹_›
      refine ⟨fun caller hmem ↦ (h.callers caller hmem).mono hscores, fun row hrow ↦ ?_⟩
      rcases hrows row hrow with hold | rfl
      · exact (h.standings row hold).mono hscores
      · exact fun hsource ↦ absurd hsource (of_decide_eq_false hown)
    · exact Option.some.inj hstep ▸ h
  | applyPolicy call | setRoutingPin call =>
    obtain rfl := Option.some.inj hstep
    refine ⟨fun caller hmem ↦ (List.mem_append.1 hmem).elim (h.callers caller) fun hnew ↦ ?_,
      h.standings⟩
    rw [List.mem_singleton.1 hnew]
    trivial
  | fail i e =>
    obtain ⟨caller, -, rfl⟩ := Option.map_eq_some_iff.1 hstep
    refine ⟨fun other hmem ↦ (List.mem_or_eq_of_mem_set hmem).elim (h.callers other) ?_,
      h.standings⟩
    rintro rfl
    trivial
  | advance i around =>
    obtain ⟨caller, hcaller, rfl⟩ := Option.map_eq_some_iff.1 hstep
    have hsteps := (h.callers caller (List.mem_of_getElem? hcaller)).steps around
    refine ⟨fun other hmem ↦ ?_, fun row hrow ↦ ?_⟩
    · rcases List.mem_or_eq_of_mem_set hmem with hold | rfl
      · exact (h.callers other hold).mono hsteps.scores
      · exact hsteps.caller
    · refine (hsteps.standings row hrow).elim (fun hold ↦ ?_) id
      exact (h.standings row hold).mono hsteps.scores

end Recorded

/-- **Standings replay.** In every run of evaluations, pins and operators in any order, each
standing of the policy refers to a stored score of its worker, and is what that score says. -/
theorem standings_attested (P : Probation)
    (h : probation.Reaches (fun _ e ↦ e.posesAsPolicy = false) P) :
    ∀ event ∈ P.store.standings.rows, event.Attested P.store := by
  refine (h.invariant (I := Probation.Recorded) ?_ fun P e P' hP ↦ hP.step).standings
  rintro _ rfl
  exact ⟨fun _ hmem ↦ absurd hmem List.not_mem_nil, fun _ hmem ↦ absurd hmem List.not_mem_nil⟩

/-- A worker is promoted. -/
theorem standings_attested_promoted : ∃ P, probation.Reaches (fun _ e ↦ e.posesAsPolicy = false) P ∧
    (∃ event ∈ P.store.standings.rows, event.source = "policy" ∧ event.standing = .promoted) ∧
      ∀ event ∈ P.store.standings.rows, event.Attested P.store := by
  obtain ⟨P, hreach, hpromoted⟩ : ∃ P, probation.Reaches (fun _ e ↦ e.posesAsPolicy = false) P ∧
      ∃ event ∈ P.store.standings.rows, event.source = "policy" ∧ event.standing = .promoted :=
    System.exists_reaches rfl ([.recordSpec Evaluation.worker, .applyPolicy Evaluation.call] ++
      List.replicate 6 (.advance 0 (Evaluation.seenAt "1"))) (by decide +kernel)
  exact ⟨P, hreach, hpromoted, standings_attested P hreach⟩

end FamiliarAi
