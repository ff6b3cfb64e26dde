import FamiliarAi.Accounting.Store
import FamiliarAi.Relational.Join
import Mathlib.Data.Prod.Lex

/-!
# Attribution

To which project a cost of a provider and an observation of local usage belong, and what the local
estimates of an observation come to. Both views of the accounting read this from the store: the
history of usage, and the reconciliation of what was charged with what was estimated.

A charged workspace belongs to the project to which it is bound under a name of the provider. An
observation belongs to the project of its latest reattribution, or else to the one it came with.
-/

namespace FamiliarAi

open Relational

/-- `sum` of numbers: NULL for none, and refused where a sum is not one of the type. -/
def sqlSum (amounts : List ℤ) : Except String (Option ℤ) :=
  amounts.foldlM (fun sum amount ↦
    if FitsI64 (sum.getD 0 + amount) then .ok (some (sum.getD 0 + amount))
    else .error "integer overflow") none

namespace AccountingStore

variable (store : AccountingStore)

def workspaceBindings (provider workspace : String) : List AttributionBinding :=
  store.bindings.rows.filter fun b ↦
    b.provider = provider ∧ b.scopeKind = "workspace" ∧ b.scopeValue = workspace

def boundProject (provider workspace : String) : Option String :=
  (store.bindings.find fun b ↦ b.provider = provider ∧ b.scopeKind = "workspace" ∧
    b.scopeValue = workspace).map (·.projectId)

def joinProjects (provider : String) (revisions : List CostRevision) :
    List (CostRevision × Option String) :=
  (leftJoin (fun r ↦ store.workspaceBindings provider r.workspaceId) revisions).map fun joined ↦
    (joined.1, joined.2.map (·.projectId))

def reattributedProject (observationId : String) : Option String :=
  (store.corrections.latest (fun c ↦ c.observationId = some observationId ∧
    c.correctionKind = "reattribution") fun c ↦ toLex (c.effectiveAt, c.correctionId)).bind
      (·.projectId)

def observationProject (o : UsageObservation) : Option String :=
  (store.reattributedProject o.observationId).or o.projectId

def estimatedNanousd (o : UsageObservation) : Except String (Option ℤ) :=
  sqlSum ((store.estimates.rows.filter fun c ↦ c.observationId = o.observationId ∧
    c.unit = "nanoUSD").filterMap (·.amount))

def localNanousd (o : UsageObservation) : Except String (Option ℤ) :=
  sqlSum ((store.estimates.rows.filter fun c ↦ c.observationId = o.observationId ∧
    c.unit = "nanoUSD" ∧ c.billingMode = "local-estimate").filterMap (·.amount))

variable {store} {provider workspace : String}

theorem workspaceBindings_eq : store.workspaceBindings provider workspace =
    (store.bindings.find fun b ↦ b.provider = provider ∧ b.scopeKind = "workspace" ∧
      b.scopeValue = workspace).toList := by
  refine Table.filter_rows_eq fun b b' hb hb' ↦ ?_
  obtain ⟨hprovider, hkind, hvalue⟩ := of_decide_eq_true hb
  obtain ⟨hprovider', hkind', hvalue'⟩ := of_decide_eq_true hb'
  have hsame : b.provider = b'.provider ∧ b.scopeKind = b'.scopeKind ∧
      b.scopeValue = b'.scopeValue :=
    ⟨hprovider.trans hprovider'.symm, hkind.trans hkind'.symm, hvalue.trans hvalue'.symm⟩
  exact Bool.or_eq_true_iff.2 (.inr (decide_eq_true hsame))

theorem joinProjects_eq (revisions : List CostRevision) : store.joinProjects provider revisions =
    revisions.map fun r ↦ (r, store.boundProject provider r.workspaceId) := by
  rw [joinProjects, leftJoin_eq_map (fun r ↦ workspaceBindings_eq) revisions, List.map_map]
  rfl

end AccountingStore

end FamiliarAi
