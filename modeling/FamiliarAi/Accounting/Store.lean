import FamiliarAi.Accounting.Amounts
import FamiliarAi.Accounting.Calendar
import FamiliarAi.Relational.Revisions
import FamiliarAi.Relational.Table

/-!
# The accounting store

The tables of the accounting: what the providers have charged, what was observed and estimated
locally, and to which projects both belong. All of it is only appended to. The operations on these tables are single statements or transactions, so that each of them either
succeeds as a whole or leaves the store as it was: an operation is a function of the store that may fail.

A row has the columns that the operations read or write. What is NULL is `none`.
-/

namespace FamiliarAi

open Relational

/-! ### Provider costs -/

/-- A row of `billing_sources`. -/
structure BillingSource where
  sourceName : String
  mode : String
  organizationId : String
  organizationName : String
  credentialReference : String
  createdAt : String

def billingSourceSchema : Schema BillingSource where
  clash r r' := decide (r.sourceName = r'.sourceName) || decide (r.organizationId = r'.organizationId)

/-- A row of `billing_collection_attempts`, of a collection that is complete. -/
structure CollectionAttempt where
  attemptId : String
  sourceName : String
  windowStart : String
  windowEnd : String
  startedAt : String
  completedAt : String

def collectionAttemptSchema : Schema CollectionAttempt where
  clash r r' := decide (r.attemptId = r'.attemptId)

/-- A row of `provider_cost_revisions`. -/
structure CostRevision where
  revisionId : String
  attemptId : String
  sourceName : String
  logicalIdentityHash : String
  payloadHash : String
  predecessorRevisionId : Option String
  bucketStart : String
  bucketEnd : String
  workspaceId : String
  description : String
  chargeClass : String
  currency : String
  amountLexical : String
  amountNanousd : ℤ
  providerPayload : String
  observedAt : String
  deriving DecidableEq

def costRevisionSchema : Schema CostRevision where
  clash r r' := decide (r.revisionId = r'.revisionId) ||
    decide (r.sourceName = r'.sourceName ∧ r.payloadHash = r'.payloadHash)

/-- A row of `openai_cost_revisions`. -/
structure OpenAiRevision where
  revisionId : String
  sourceId : String
  organizationId : String
  projectId : Option String
  bucketStart : ℤ
  bucketEnd : ℤ
  lineItem : String
  classification : String
  rawAmountLexical : String
  currency : String
  amountNanousd : Option ℤ
  normalizationError : Option String
  payloadHash : String
  supersedesRevisionId : Option String
  collectedAt : String
  deriving DecidableEq

/-- What an OpenAI revision is about. -/
structure OpenAiIdentity where
  sourceId : String
  organizationId : String
  projectId : Option String
  bucketStart : ℤ
  bucketEnd : ℤ
  lineItem : String
  deriving DecidableEq

def OpenAiRevision.identity (r : OpenAiRevision) : OpenAiIdentity :=
  ⟨r.sourceId, r.organizationId, r.projectId, r.bucketStart, r.bucketEnd, r.lineItem⟩

/-- A `UNIQUE` key with a column that is NULL collides with no other. -/
def openAiRevisionSchema : Schema OpenAiRevision where
  check r := decide (r.bucketStart < r.bucketEnd) &&
    (decide (r.currency = "usd" ∧ r.amountNanousd.isSome ∧ r.normalizationError = none) ||
      decide (r.currency ≠ "usd" ∧ r.amountNanousd = none ∧ r.normalizationError.isSome))
  clash r r' := decide (r.revisionId = r'.revisionId) ||
    decide (r.projectId.isSome ∧ r.identity = r'.identity ∧ r.payloadHash = r'.payloadHash)
  clash_symm r r' := by
    have hsame (r r' : OpenAiRevision) : r.projectId.isSome ∧ r.identity = r'.identity ∧
        r.payloadHash = r'.payloadHash → r'.projectId.isSome ∧ r'.identity = r.identity ∧
        r'.payloadHash = r.payloadHash := by
      rintro ⟨hsome, hidentity, hpayload⟩
      have hproject : r.projectId = r'.projectId := congrArg OpenAiIdentity.projectId hidentity
      rw [hproject] at hsome
      exact ⟨hsome, hidentity.symm, hpayload.symm⟩
    rw [decide_eq_decide.2 (eq_comm (a := r.revisionId)), decide_eq_decide.2 ⟨hsame r r', hsame r' r⟩]

/-- A row of `provider_attribution_bindings`. -/
structure AttributionBinding where
  bindingId : String
  projectId : String
  provider : String
  scopeKind : String
  scopeValue : String
  confidence : String
  actor : String
  boundAt : String

def attributionBindingSchema : Schema AttributionBinding where
  check r := decide (r.scopeKind ∈ ["organization", "workspace", "project", "credential-profile"]) &&
    decide (r.confidence ∈ ["declared", "exact", "inferred"])
  clash r r' := decide (r.bindingId = r'.bindingId) || decide (r.provider = r'.provider ∧
    r.scopeKind = r'.scopeKind ∧ r.scopeValue = r'.scopeValue)

/-- A row of `project_registry_bindings`. -/
structure RegistryBinding where
  projectId : String
  evidenceKind : String
  evidenceValue : String

/-- A row of `usage_observations`. -/
structure UsageObservation where
  observationId : String
  projectId : Option String
  degradedIdentity : Option String
  executionId : String
  attemptId : String
  stage : String
  adapter : String
  modelIdentity : Option String
  uncachedInputTokens : Option ℤ
  cacheReadTokens : Option ℤ
  outputTokens : Option ℤ
  reasoningOutputTokens : Option ℤ
  periodStart : String
  periodEnd : String

def usageObservationSchema : Schema UsageObservation where
  check r := (r.projectId.isSome != r.degradedIdentity.isSome) && decide (r.periodStart ≤ r.periodEnd)
  clash r r' := decide (r.observationId = r'.observationId)

/-- A row of `cost_estimates`. -/
structure CostEstimate where
  estimateId : String
  observationId : String
  billingMode : String
  provenance : String
  unit : String
  amount : Option ℤ

def costEstimateSchema : Schema CostEstimate where
  check r := decide (r.unit = "nanoUSD" → ∀ amount ∈ r.amount, 0 ≤ amount)
  clash r r' := decide (r.estimateId = r'.estimateId) ||
    decide (r.observationId = r'.observationId ∧ r.provenance = r'.provenance)

/-- A row of `accounting_corrections`. -/
structure AccountingCorrection where
  correctionId : String
  observationId : Option String
  providerRevisionId : Option String
  correctionKind : String
  priorProjectId : Option String
  projectId : Option String
  reason : String
  actor : String
  effectiveAt : String

def accountingCorrectionSchema : Schema AccountingCorrection where
  check r := (r.observationId.isSome || r.providerRevisionId.isSome) &&
    decide (r.correctionKind ∈ ["reattribution", "supersession", "reconciliation"])
  clash r r' := decide (r.correctionId = r'.correctionId)

inductive ReconciliationStatus
  | reconciled
  | reconciledWithVariance
  | pending
  | mismatch
  | unattributedProviderSpend

structure AccountingStore where
  sources : Table billingSourceSchema
  attempts : Table collectionAttemptSchema
  costs : Table costRevisionSchema
  /-- The ids of `openai_billing_sources`. -/
  openAiSources : List String
  openAiCosts : Table openAiRevisionSchema
  /-- The ids of `durable_projects`. -/
  projects : List String
  bindings : Table attributionBindingSchema
  registry : List RegistryBinding
  observations : Table usageObservationSchema
  estimates : Table costEstimateSchema
  corrections : Table accountingCorrectionSchema

def costLog : RevisionLog CostRevision String (String × String) where
  id := (·.revisionId)
  prior := (·.predecessorRevisionId)
  key r := (r.sourceName, r.logicalIdentityHash)

def openAiLog : RevisionLog OpenAiRevision String OpenAiIdentity where
  id := (·.revisionId)
  prior := (·.supersedesRevisionId)
  key := (·.identity)

namespace AccountingStore

variable (store : AccountingStore)

/-- The view `current_provider_costs`. -/
def currentProviderCosts : List CostRevision :=
  costLog.current store.costs.rows

def currentOpenAiCosts : List OpenAiRevision :=
  openAiLog.current store.openAiCosts.rows

end AccountingStore

end FamiliarAi
