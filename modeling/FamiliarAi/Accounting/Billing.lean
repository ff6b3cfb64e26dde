import FamiliarAi.Accounting.Store
import FamiliarAi.Review.Wire
import Mathlib.Data.Prod.Lex

/-!
# Provider cost snapshots

How what a provider has charged comes into the store. Anthropic sends all rows of a window, which are
committed in one transaction; the id of a revision is the hash of what the provider sent, so that what
was sent before is not kept again. OpenAI facts are appended one by one. In both cases a new revision
names the newest one of the same identity as the one whose place it takes.

The identity of an Anthropic row is the hash that the store keeps.
-/

namespace FamiliarAi

open Relational

section Hashes

variable (sha256 : Sha256)

def hexHash (text : String) : String :=
  String.ofList ((sha256 text.toList).toList.flatMap hexByte)

def hashId (kind text : String) : String :=
  kind ++ "_" ++ hexHash sha256 text

def zeroSeparated (texts : List String) : String :=
  "\x00".intercalate texts

end Hashes

/-- The error for a statement that the engine refuses. -/
def accountingRefused : String :=
  "constraint failed"

/-- A row of the cost report. -/
structure ProviderCostRow where
  bucketStart : String
  bucketEnd : String
  workspaceId : String
  description : String
  chargeClass : String
  currency : String
  amountLexical : String
  providerPayload : String

section Anthropic

variable (sha256 : Sha256) (source : String)

def ProviderCostRow.logicalIdentity (row : ProviderCostRow) : String :=
  hexHash sha256 (zeroSeparated [source, row.workspaceId, row.description, row.chargeClass,
    row.currency, row.bucketStart, row.bucketEnd])

def ProviderCostRow.payloadHash (row : ProviderCostRow) : String :=
  hexHash sha256 row.providerPayload

def ProviderCostRow.revisionId (row : ProviderCostRow) : String :=
  hashId sha256 "bcr" (zeroSeparated [source, row.payloadHash sha256])

/-- The newest revision of the identity: `ORDER BY observed_at DESC, revision_id DESC LIMIT 1`. -/
def newestRevision (costs : List CostRevision) (identity : String) : Option CostRevision :=
  (costs.filter fun r ↦ r.sourceName = source ∧ r.logicalIdentityHash = identity).argmax
    fun r ↦ toLex (r.observedAt, r.revisionId)

def ProviderCostRow.revision (attempt now : String) (prior : Option String) (amount : ℤ)
    (row : ProviderCostRow) : CostRevision where
  revisionId := row.revisionId sha256 source
  attemptId := attempt
  sourceName := source
  logicalIdentityHash := row.logicalIdentity sha256 source
  payloadHash := row.payloadHash sha256
  predecessorRevisionId := prior
  bucketStart := row.bucketStart
  bucketEnd := row.bucketEnd
  workspaceId := row.workspaceId
  description := row.description
  chargeClass := row.chargeClass
  currency := row.currency
  amountLexical := row.amountLexical
  amountNanousd := amount
  providerPayload := row.providerPayload
  observedAt := now

def commitRow (attempt now : String) (kept : ℕ × Table costRevisionSchema) (row : ProviderCostRow) :
    Except String (ℕ × Table costRevisionSchema) :=
  match billingNanousd row.amountLexical with
  | none => .error ("invalid provider USD lexical amount '" ++ row.amountLexical ++ "'")
  | some amount =>
    let prior := newestRevision source kept.2.rows (row.logicalIdentity sha256 source)
    match kept.2.insert (row.revision sha256 source attempt now (prior.map (·.revisionId)) amount) with
    | some costs => .ok (kept.1 + 1, costs)
    | none => .ok kept

/-- The collection of the window by the source. -/
def collectionAttempt (now start stop : String) : CollectionAttempt where
  attemptId := hashId sha256 "bat" (zeroSeparated [source, start, stop, now])
  sourceName := source
  windowStart := start
  windowEnd := stop
  startedAt := now
  completedAt := now

/-- `commit_complete`, at the time `now`. An attempt is one of a source that is there. -/
def commitComplete (now start stop : String) (rows : List ProviderCostRow) (store : AccountingStore) :
    Except String (ℕ × AccountingStore) := do
  let attempt := collectionAttempt sha256 source now start stop
  match if (store.sources.find (·.sourceName = source)).isSome then store.attempts.insert attempt
    else none with
  | none => .error accountingRefused
  | some attempts =>
    let kept ← rows.foldlM (commitRow sha256 source attempt.attemptId now) (0, store.costs)
    pure (kept.1, { store with attempts, costs := kept.2 })

end Anthropic

structure OpenAiCostFact where
  sourceId : String
  organizationId : String
  projectId : Option String
  bucketStart : ℤ
  bucketEnd : ℤ
  lineItem : String
  classification : String
  rawAmountLexical : String
  currency : String
  payloadHash : String
  collectedAt : String

namespace OpenAiCostFact

variable (fact : OpenAiCostFact)

/-- What the fact is about. -/
def identity : OpenAiIdentity :=
  ⟨fact.sourceId, fact.organizationId, fact.projectId, fact.bucketStart, fact.bucketEnd, fact.lineItem⟩

/-- The amount of the fact, if it is one of dollars. -/
def amount : Except String (Option ℤ) :=
  if fact.currency.toLower = "usd" then
    match signedDecimalNanousd fact.rawAmountLexical with
    | some amount => .ok (some amount)
    | none => .error "invalid OpenAI USD decimal"
  else .ok none

/-- The revision that the fact becomes. -/
def revision (revisionId : String) (prior : Option String) (amount : Option ℤ) : OpenAiRevision where
  revisionId := revisionId
  sourceId := fact.sourceId
  organizationId := fact.organizationId
  projectId := fact.projectId
  bucketStart := fact.bucketStart
  bucketEnd := fact.bucketEnd
  lineItem := fact.lineItem
  classification := fact.classification
  rawAmountLexical := fact.rawAmountLexical
  currency := fact.currency.toLower
  amountNanousd := amount
  normalizationError :=
    if amount.isSome then none else some "non-USD provider cost retained without conversion"
  payloadHash := fact.payloadHash
  supersedesRevisionId := prior
  collectedAt := fact.collectedAt

end OpenAiCostFact

/-- The newest OpenAI revision of the identity: `ORDER BY collected_at DESC, rowid DESC LIMIT 1`. -/
def newestOpenAiRevision (costs : List OpenAiRevision) (identity : OpenAiIdentity) :
    Option OpenAiRevision :=
  (costs.filter fun r ↦ r.identity = identity).reverse.argmax (·.collectedAt)

/-- `append_openai_cost_revision`, with the id that is drawn for the revision. -/
def appendOpenAiCostRevision (revisionId : String) (fact : OpenAiCostFact) (store : AccountingStore) :
    Except String (Bool × AccountingStore) :=
  if ∃ r ∈ store.openAiCosts.rows, r.identity = fact.identity ∧ r.payloadHash = fact.payloadHash then
    .ok (false, store)
  else
    let prior := newestOpenAiRevision store.openAiCosts.rows fact.identity
    match fact.amount with
    | .error e => .error e
    | .ok amount =>
      match if fact.sourceId ∈ store.openAiSources then
          store.openAiCosts.insert (fact.revision revisionId (prior.map (·.revisionId)) amount)
        else none with
      | some openAiCosts => .ok (true, { store with openAiCosts })
      | none => .error accountingRefused

def appendOpenAiSnapshot : List (String × OpenAiCostFact) → AccountingStore →
    Except String Unit × AccountingStore
  | [], store => (.ok (), store)
  | (revisionId, fact) :: facts, store =>
    match appendOpenAiCostRevision revisionId fact store with
    | .ok (_, store) => appendOpenAiSnapshot facts store
    | .error e => (.error e, store)

end FamiliarAi
