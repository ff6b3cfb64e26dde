import FamiliarAi.Accounting.Attribution

/-!
# The history of usage

The provider-neutral query over what was observed locally and what the providers have charged. Each
row of either becomes a fact with an instant and its dimensions; facts that pass the filters are
grouped by their bucket and by the dimensions that are asked for, and each group is added up to a
point of the series.

A fact of Anthropic belongs to the project to which its workspace is bound under the name
`anthropic`.
-/

namespace FamiliarAi

open Relational

/-! ### Requests and facts -/

structure ExecutionHistoryRow where
  executionId : String
  prdPath : String

/-- A row of `credit_estimates`. -/
structure CreditEstimate where
  observationId : String
  amountMicrocredits : ℤ

/-- The accounting, with what else the history reads. -/
structure SeriesStore extends AccountingStore where
  executions : List ExecutionHistoryRow
  credits : List CreditEstimate

structure UsageSeriesRequest where
  start : Instant
  stop : Instant
  bucket : UsageBucket
  groupBy : List String
  filters : List (String × String)
  dense : Bool

structure SeriesFact where
  id : String
  assignment : Instant
  dimensions : List (String × String)
  estimatedCost : Option ℤ
  authoritativeCost : Option ℤ
  inputTokens : Option ℤ
  cachedInputTokens : Option ℤ
  outputTokens : Option ℤ
  reasoningTokens : Option ℤ
  requestCount : Option ℤ
  creditEstimate : Option ℤ
  deriving DecidableEq

namespace SeriesFact

variable (fact : SeriesFact)

def dimension (key : String) : Option String :=
  fact.dimensions.lookup key

/-- The project that the fact is attributed to. -/
def project : Option String :=
  if fact.dimension "attribution_status" = some "attributed" then fact.dimension "project" else none

end SeriesFact

def providerFact (id sourceName provider : String) (project : Option String) (amount : Option ℤ)
    (assignment : Instant) : SeriesFact where
  id := id
  assignment := assignment
  dimensions :=
    [("project", project.getD "unattributed"),
      ("provider", provider),
      ("model", "unknown"),
      ("prd", "unknown"),
      ("execution", "unknown"),
      ("attempt", "unknown"),
      ("stage", "unknown"),
      ("billing_source", sourceName),
      ("attribution_status", if project.isSome then "attributed" else "unattributed")]
  estimatedCost := none
  authoritativeCost := amount
  inputTokens := none
  cachedInputTokens := none
  outputTokens := none
  reasoningTokens := none
  requestCount := none
  creditEstimate := none

theorem project_providerFact {id sourceName provider : String} {project : Option String}
    {amount : Option ℤ} {assignment : Instant} :
    (providerFact id sourceName provider project amount assignment).project = project := by
  cases project with
  | none => rfl
  | some project => rfl

theorem provider_providerFact {id sourceName provider : String} {project : Option String}
    {amount : Option ℤ} {assignment : Instant} :
    (providerFact id sourceName provider project amount assignment).dimension "provider" =
      some provider :=
  rfl

section Facts

variable (C : Calendar) (request : UsageSeriesRequest)

def UsageSeriesRequest.Covers (text : String) : Prop :=
  C.text request.start ≤ text ∧ text < C.text request.stop

instance : DecidablePred (request.Covers C) :=
  fun _ ↦ inferInstanceAs (Decidable (_ ∧ _))

variable (store : SeriesStore)

def localFact (o : UsageObservation) (execution : ExecutionHistoryRow) :
    Except String SeriesFact := do
  let estimatedCost ← store.estimatedNanousd o
  let creditEstimate ← sqlSum ((store.credits.filter fun c ↦
    c.observationId = o.observationId).map (·.amountMicrocredits))
  let assignment ← C.parse o.periodStart
  let project := store.observationProject o
  pure
    { id := o.observationId
      assignment
      dimensions :=
        [("project", project.getD ("degraded:" ++ o.degradedIdentity.getD "unresolved")),
          ("provider", o.adapter),
          ("model", o.modelIdentity.getD "unknown"),
          ("prd", execution.prdPath),
          ("execution", o.executionId),
          ("attempt", o.attemptId),
          ("stage", o.stage),
          ("billing_source", "local"),
          ("attribution_status", if project.isSome then "attributed" else "degraded-identity")]
      estimatedCost
      authoritativeCost := none
      inputTokens := o.uncachedInputTokens
      cachedInputTokens := o.cacheReadTokens
      outputTokens := o.outputTokens
      reasoningTokens := o.reasoningOutputTokens
      requestCount := some 1
      creditEstimate }

def localSeriesFacts : Except String (List SeriesFact) :=
  let observations := (store.observations.rows.filter fun o ↦
    request.Covers C o.periodStart).insertionSort fun o o' ↦
      toLex (o.periodStart, o.observationId) ≤ toLex (o'.periodStart, o'.observationId)
  (observations.flatMap fun o ↦ (store.executions.filter fun e ↦
    e.executionId = o.executionId).map fun e ↦ (o, e)).mapM fun joined ↦
      localFact C store joined.1 joined.2

def openAiProject (r : OpenAiRevision) : Option String :=
  (store.bindings.latest (fun b ↦ b.provider = "openai" ∧
    (b.scopeKind = "project" ∧ some b.scopeValue = r.projectId ∨
      b.scopeKind = "organization" ∧ b.scopeValue = r.organizationId))
    fun b ↦ toLex (if b.scopeKind = "project" then 1 else 0, b.boundAt)).map (·.projectId)

/-- `openai_series_facts`. Seconds in the range of a request are those of an instant. -/
def openAiSeriesFacts : List SeriesFact :=
  ((store.currentOpenAiCosts.filter fun r ↦ request.start / 10 ^ 9 ≤ r.bucketStart ∧
    r.bucketStart < request.stop / 10 ^ 9 ∧ r.amountNanousd.isSome).insertionSort fun r r' ↦
      toLex (r.bucketStart, r.revisionId) ≤ toLex (r'.bucketStart, r'.revisionId)).map fun r ↦
        providerFact r.revisionId r.sourceId "openai" (openAiProject store r) r.amountNanousd
          (r.bucketStart * 10 ^ 9)

def anthropicFact (r : CostRevision) (project : Option String) : Except String SeriesFact := do
  let assignment ← C.parse r.bucketStart
  pure (providerFact r.revisionId r.sourceName "anthropic" project (some r.amountNanousd)
    assignment)

def anthropicSeriesFacts : Except String (List SeriesFact) :=
  (store.joinProjects "anthropic" ((store.currentProviderCosts.filter fun r ↦
    request.Covers C r.bucketStart).insertionSort fun r r' ↦
      toLex (r.bucketStart, r.revisionId) ≤ toLex (r'.bucketStart, r'.revisionId))).mapM
        fun joined ↦ anthropicFact C joined.1 joined.2

/-- The facts that pass the filters. -/
def seriesFacts : Except String (List SeriesFact) := do
  let localFacts ← localSeriesFacts C request store
  let anthropicFacts ← anthropicSeriesFacts C request store
  pure ((localFacts ++ openAiSeriesFacts request store ++ anthropicFacts).filter fun fact ↦
    request.filters.all fun entry ↦ fact.dimension entry.1 = some entry.2)

end Facts

/-- A bucket, and the values of the dimensions that are asked for. -/
abbrev SeriesKey := Instant × List (String × String)

/-- The order of the points. -/
def SeriesKey.le (key key' : SeriesKey) : Prop :=
  toLex (key.1, key.2.map toLex) ≤ toLex (key'.1, key'.2.map toLex)

instance : DecidableRel SeriesKey.le :=
  fun _ _ ↦ inferInstanceAs (Decidable (toLex _ ≤ toLex _))

section Points

variable (C : Calendar) (request : UsageSeriesRequest)

/-- The point to which the fact is added. -/
def SeriesFact.key (fact : SeriesFact) : SeriesKey :=
  (C.bucketStart fact.assignment request.bucket,
    request.groupBy.map fun key ↦ (key, (fact.dimension key).getD "unknown"))

def seriesGroups (facts : List SeriesFact) : List (SeriesKey × List SeriesFact) :=
  (groupKeys SeriesKey.le (SeriesFact.key C request) facts).map fun key ↦
    (key, group (SeriesFact.key C request) facts key)

variable {C request}

theorem flatMap_seriesGroups (facts : List SeriesFact) :
    ((seriesGroups C request facts).flatMap (·.2)).Perm facts := by
  rw [seriesGroups, List.flatMap_map]
  exact flatMap_groups_perm

end Points

end FamiliarAi
