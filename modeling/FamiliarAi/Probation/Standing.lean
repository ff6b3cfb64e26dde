import Mathlib.Data.Prod.Lex
import Mathlib.Data.String.Basic
import FamiliarAi.Core.Outcome
import FamiliarAi.Core.Reservation
import FamiliarAi.Relational.Table
import FamiliarAi.Text.Basic

/-!
# The standing of workers

A worker earns its standing. A policy scores what has been observed of the worker, and the worker is
promoted or kept on probation accordingly. Operators may quarantine or retire a worker whatever its
score. Standings are events in an append-only table, and the current standing of a worker is that of
its latest event.
-/

namespace FamiliarAi

open Relational

inductive WorkerStanding
  | probation
  | promoted
  | quarantined
  | retired
  deriving DecidableEq

/-- The standings that only operators give. -/
def WorkerStanding.isControl : WorkerStanding → Bool
  | .quarantined | .retired => true
  | .probation | .promoted => false

structure ProbationPolicy where
  policyId : String
  version : String
  minimumAcceptedPrds : ℕ
  minimumReviewPassBasisPoints : ℕ
  maximumRemediationBasisPoints : ℕ
  maximumFailureBasisPoints : ℕ
  maximumCostPerAcceptedPrdMicrousd : Option ℕ := none
  probationMaxExpectedFiles : ℕ
  requireIndependentReview : Bool

structure EmpiricalMetrics where
  completedPrds : ℕ := 0
  acceptedPrds : ℕ := 0
  reviewPasses : ℕ := 0
  reviewAttempts : ℕ := 0
  remediatedPrds : ℕ := 0
  failedPrds : ℕ := 0
  latencyMs : ℕ := 0
  cacheReadTokens : ℕ := 0
  cacheEligibleTokens : ℕ := 0
  costAmount : Option ℕ := none
  costUnit : Option String := none
  costAuthority : Option String := none

structure EmpiricalScore where
  reviewPassBasisPoints : Option ℕ
  remediationBasisPoints : Option ℕ
  failureBasisPoints : Option ℕ
  cacheEffectivenessBasisPoints : Option ℕ
  latencyPerAcceptedPrdMs : Option ℕ
  costPerAcceptedPrd : Option ℕ
  costUnit : Option String
  trustedIdentity : Bool
  promotionEligible : Bool

/-- A ratio in basis points, cut to a `u32`. -/
def rate (numerator denominator : ℕ) : Option ℕ :=
  if denominator ≠ 0 then some (saturatingMul numerator 10000 / denominator % 2 ^ 32) else none

def score (policy : ProbationPolicy) (metrics : EmpiricalMetrics) (trustedIdentity : Bool) :
    EmpiricalScore :=
  let review := rate metrics.reviewPasses metrics.reviewAttempts
  let remediation := rate metrics.remediatedPrds metrics.completedPrds
  let failure := rate metrics.failedPrds metrics.completedPrds
  let cache := rate metrics.cacheReadTokens metrics.cacheEligibleTokens
  let cost : Option (ℕ × String) :=
    match metrics.costAmount, metrics.costUnit, metrics.costAuthority with
    | some amount, some unit, some _ =>
      if metrics.acceptedPrds ≠ 0 then some (amount / metrics.acceptedPrds, unit) else none
    | _, _, _ => none
  { reviewPassBasisPoints := review
    remediationBasisPoints := remediation
    failureBasisPoints := failure
    cacheEffectivenessBasisPoints := cache
    latencyPerAcceptedPrdMs :=
      if metrics.acceptedPrds ≠ 0 then some (metrics.latencyMs / metrics.acceptedPrds) else none
    costPerAcceptedPrd := cost.map (·.1)
    costUnit := cost.map (·.2)
    trustedIdentity
    promotionEligible :=
      trustedIdentity && decide (policy.minimumAcceptedPrds ≤ metrics.acceptedPrds) &&
        review.any (fun v ↦ decide (policy.minimumReviewPassBasisPoints ≤ v)) &&
        remediation.any (fun v ↦ decide (v ≤ policy.maximumRemediationBasisPoints)) &&
        failure.any (fun v ↦ decide (v ≤ policy.maximumFailureBasisPoints)) &&
        policy.maximumCostPerAcceptedPrdMicrousd.all fun maximum ↦
          cost.any fun (cost, unit) ↦
            if unit = "nanoUSD" then decide (cost ≤ saturatingMul maximum 1000)
            else if unit = "microUSD" then decide (cost ≤ maximum)
            else false }

/-! ### Evidence -/

/-- A worker: its specification, and the version under which it is observed. -/
structure WorkerKey where
  spec : String
  version : String
  deriving DecidableEq

/-- What a score reads of a row of `worker_probation_observations`. -/
structure ProbationObservation where
  observationId : String
  accepted : Bool
  verificationPassed : Bool
  independentReviewPassed : Option Bool
  remediationRequired : Bool
  failed : Bool
  latencyMs : ℕ

/-- What the queries of `snapshot` find about a worker in the tables that other operations write. -/
structure Evidence where
  observations : List ProbationObservation
  cacheReadTokens : ℕ := 0
  cacheEligibleTokens : ℕ := 0
  /-- The known costs by unit: the unit, the sum and the authority. -/
  costRows : List (String × ℕ × String) := []
  declaredSubscriptionPrice : Option ℕ := none
  costObservationIds : List String := []
  /-- `worker_specs` knows the model of the worker, and has the version. -/
  modelKnown : Bool

/-- `known_cost`: the cost, when all of it has one unit. -/
def Evidence.knownCost (evidence : Evidence) : Option (String × ℕ × String) :=
  let rows := evidence.costRows ++
    (evidence.declaredSubscriptionPrice.map fun amount ↦
      ("nanoUSD", amount, "operator-declared-subscription-terms")).toList
  match rows with
  | [row] => some row
  | _ => none

def Evidence.metrics (evidence : Evidence) : EmpiricalMetrics :=
  let rows := evidence.observations
  { completedPrds := rows.length
    acceptedPrds := rows.countP (·.accepted)
    reviewPasses := rows.countP (·.independentReviewPassed = some true)
    reviewAttempts := rows.countP (·.independentReviewPassed.isSome)
    remediatedPrds := rows.countP (·.remediationRequired)
    failedPrds := rows.countP fun row ↦
      row.failed || !row.verificationPassed || row.independentReviewPassed = some false
    latencyMs := (rows.map (·.latencyMs)).sum
    cacheReadTokens := evidence.cacheReadTokens
    cacheEligibleTokens := evidence.cacheEligibleTokens
    costAmount := evidence.knownCost.map (·.2.1)
    costUnit := evidence.knownCost.map (·.1)
    costAuthority := evidence.knownCost.map (·.2.2) }

/-- Whether the identity of the worker is known. -/
def Evidence.trusted (evidence : Evidence) (worker : WorkerKey) : Bool :=
  decide (¬"unknown".toList <:+: worker.spec.toList) &&
    decide (¬"unknown".toList <:+: worker.version.toList) && evidence.modelKnown

def probationPolicySchema : Schema ProbationPolicy where
  clash r r' := r.policyId = r'.policyId ∧ r.version = r'.version

/-- A row of `worker_score_snapshots`. -/
structure ScoreSnapshot where
  scoreId : String
  worker : WorkerKey
  policyId : String
  policyVersion : String
  metrics : EmpiricalMetrics
  score : EmpiricalScore
  observationIds : List String
  costObservationIds : List String

def scoreSnapshotSchema : Schema ScoreSnapshot where
  clash r r' := r.scoreId = r'.scoreId

/-- A row of `worker_standing_events`. -/
structure StandingEvent where
  eventId : String
  worker : WorkerKey
  standing : WorkerStanding
  source : String
  scoreId : Option String
  actor : String
  reason : String
  occurredAt : String

def StandingEvent.key (event : StandingEvent) : String ×ₗ String :=
  toLex (event.occurredAt, event.eventId)

def standingEventSchema : Schema StandingEvent where
  check r := ["policy", "operator-pin", "operator-quarantine", "operator-retire"].contains r.source
  clash r r' := r.eventId = r'.eventId

/-- The tables of the standings, and what they refer to. -/
structure ProbationStore where
  /-- The `spec_identity` of `worker_specs`. -/
  specs : List String := []
  /-- The `empirical_version` of `worker_spec_versions`. -/
  versions : List String := []
  policies : Table probationPolicySchema := .empty
  scores : Table scoreSnapshotSchema := .empty
  standings : Table standingEventSchema := .empty

namespace ProbationStore

/-- The answer of the engine to a write that violates a constraint. -/
def constraintFailed : FamiliarError :=
  .database "constraint failed"

def Knows (store : ProbationStore) (worker : WorkerKey) : Prop :=
  worker.spec ∈ store.specs ∧ worker.version ∈ store.versions

instance (store : ProbationStore) (worker : WorkerKey) : Decidable (store.Knows worker) :=
  inferInstanceAs (Decidable (_ ∧ _))

def recordPolicy (store : ProbationStore) (policy : ProbationPolicy) : ProbationStore :=
  { store with policies := store.policies.insertOrIgnore policy }

/-- `INSERT INTO worker_score_snapshots`. -/
def insertScore (store : ProbationStore) (row : ScoreSnapshot) :
    Except FamiliarError ProbationStore :=
  if store.Knows row.worker ∧ (store.policies.find fun policy ↦
      policy.policyId = row.policyId ∧ policy.version = row.policyVersion).isSome then
    match store.scores.insert row with
    | some scores => .ok { store with scores }
    | none => .error constraintFailed
  else .error constraintFailed

def current (store : ProbationStore) (worker : WorkerKey) : Option StandingEvent :=
  store.standings.latest (·.worker = worker) (·.key)

def setStanding (store : ProbationStore) (event : StandingEvent) :
    Except FamiliarError ProbationStore :=
  if Text.trim event.actor.toList = [] ∨ Text.trim event.reason.toList = [] then
    .error (.database "standing actor and reason are required")
  else if store.Knows event.worker ∧
      ∀ scoreId ∈ event.scoreId, (store.scores.find fun row ↦ row.scoreId = scoreId).isSome then
    match store.standings.insert event with
    | some standings => .ok { store with standings }
    | none => .error constraintFailed
  else .error constraintFailed

def authorize (store : ProbationStore) (worker : WorkerKey) (policy : ProbationPolicy)
    (expectedFiles : ℕ) (hasRisk independentReview : Bool) : Except FamiliarError Unit :=
  let standing : Option WorkerStanding := (store.current worker).map (·.standing)
  match standing with
  | some .quarantined => .error (.database ("worker " ++ worker.spec ++ " is quarantined"))
  | some .retired => .error (.database ("worker " ++ worker.spec ++ " is retired"))
  | some .promoted => .ok ()
  | some .probation | none =>
    if !hasRisk ∧ expectedFiles ≤ policy.probationMaxExpectedFiles ∧
        (!policy.requireIndependentReview ∨ independentReview) then .ok ()
    else .error (.database ("worker " ++ worker.spec ++
      " is limited to a probation warrant until policy " ++ policy.policyId ++ "@" ++
      policy.version ++ " promotes it"))

variable {store store' : ProbationStore} {event row : StandingEvent} {worker : WorkerKey}

/-- The worker is quarantined or retired. -/
def Held (store : ProbationStore) (worker : WorkerKey) : Prop :=
  ∃ row, store.current worker = some row ∧ row.standing.isControl = true

theorem authorize_of_held (h : store.Held worker) (policy : ProbationPolicy) (expectedFiles : ℕ)
    (hasRisk independentReview : Bool) : ∃ e,
      store.authorize worker policy expectedFiles hasRisk independentReview = .error e := by
  obtain ⟨row, hrow, hcontrol⟩ := h
  rw [authorize, hrow, Option.map_some]
  cases hstanding : row.standing with
  | probation | promoted =>
    rw [hstanding] at hcontrol
    cases hcontrol
  | quarantined | retired => exact ⟨_, rfl⟩

theorem setStanding_eq_ok (h : store.setStanding event = .ok store') :
    ∃ standings, store.standings.insert event = some standings ∧
      store' = { store with standings } := by
  unfold setStanding at h
  by_cases hblank : Text.trim event.actor.toList = [] ∨ Text.trim event.reason.toList = []
  · rw [if_pos hblank] at h
    cases h
  rw [if_neg hblank] at h
  split at h
  · rcases hinsert : store.standings.insert event with _ | standings
    · rw [hinsert] at h
      cases h
    rw [hinsert] at h
    exact ⟨standings, rfl, (Except.ok.inj h).symm⟩
  · cases h

theorem current_setStanding_of_ne (h : store.setStanding event = .ok store')
    (hne : event.worker ≠ worker) : store'.current worker = store.current worker := by
  obtain ⟨standings, hinsert, rfl⟩ := setStanding_eq_ok h
  exact Table.latest_insert_of_not hinsert (decide_eq_false hne)

theorem current_setStanding_of_lt (h : store.setStanding event = .ok store')
    (hlt : ∀ row, store.current event.worker = some row → row.key < event.key) :
    store'.current event.worker = some event := by
  obtain ⟨standings, hinsert, rfl⟩ := setStanding_eq_ok h
  exact Table.latest_insert_of_lt hinsert (decide_eq_true rfl) hlt

theorem current_setStanding_of_le (h : store.setStanding event = .ok store')
    (hrow : store.current event.worker = some row) (hle : event.key ≤ row.key) :
    store'.current event.worker = some row := by
  obtain ⟨standings, hinsert, rfl⟩ := setStanding_eq_ok h
  exact Table.latest_insert_of_le hinsert (decide_eq_true rfl) hrow hle

theorem held_setStanding_control (h : store.setStanding event = .ok store')
    (hcontrol : event.standing.isControl = true)
    (hkey : ∀ row, store.current event.worker = some row →
      row.standing.isControl = true ∨ row.key < event.key) : store'.Held event.worker := by
  rcases hrow : store.current event.worker with _ | row
  · refine ⟨event, current_setStanding_of_lt h fun row hrow' ↦ ?_, hcontrol⟩
    rw [hrow] at hrow'
    cases hrow'
  by_cases hlt : row.key < event.key
  · refine ⟨event, current_setStanding_of_lt h fun row' hrow' ↦ ?_, hcontrol⟩
    obtain rfl := Option.some.inj (hrow.symm.trans hrow')
    exact hlt
  · exact ⟨row, current_setStanding_of_le h hrow (not_lt.1 hlt),
      (hkey row hrow).resolve_right hlt⟩

theorem Held.setStanding (hheld : store.Held worker) (h : store.setStanding event = .ok store')
    (hkey : event.worker = worker → ∀ row, store.current worker = some row → event.key ≤ row.key) :
    store'.Held worker := by
  obtain ⟨row, hrow, hcontrol⟩ := hheld
  by_cases hworker : event.worker = worker
  · subst hworker
    exact ⟨row, current_setStanding_of_le h hrow (hkey rfl row hrow), hcontrol⟩
  · exact ⟨row, (current_setStanding_of_ne h hworker).trans hrow, hcontrol⟩

end ProbationStore

end FamiliarAi
