import FamiliarAi.Core.Backlog
import FamiliarAi.Review.ExpectedFiles
import Mathlib.Data.List.Sort

/-!
# Selecting a batch

The selection pass of the drive loop: from the reconciled backlog, the PRDs that may be started now.
Every entry is considered once, in order, against what was selected before it and against what the
workers still running hold, and leaves a decision unless it is passed over in silence.
-/

namespace FamiliarAi

open Text

/-- An entry of the scope of a PRD: the normalized path and its kind. -/
abbrev ScopeEntry := String × ExpectedMatchKind

/-- The mutable expected-file scope of a PRD. `readFile` reads a document of the worktree. -/
def prdScope (readFile : RepositoryPath → Except String String) (prd : DiscoveredPrd) :
    Except String (List ScopeEntry) :=
  if prd.metadata.contractVersion = some 1 then
    prd.metadata.expectedFiles.mapM fun expression ↦
      match normalizeScopePath expression with
      | .ok entry => .ok entry
      | .error rule => .error (expression ++ ": " ++ rule.display)
  else
    match readFile prd.path with
    | .error e => .error e
    | .ok content =>
      match parseExpectedFiles content with
      | .error e => .error e.display
      | .ok entries => .ok (entries.map fun e ↦ (e.normalized, e.matchKind))

/-- Whether two normalized scope entries can authorize writes to one path. -/
def ScopeEntriesOverlap : ScopeEntry → ScopeEntry → Prop
  | (left, .exactFile), (right, .exactFile) => left = right
  | (left, .exactFile), (right, .directory) => StartsWith left right
  | (left, .directory), (right, .exactFile) => StartsWith right left
  | (left, .directory), (right, .directory) => StartsWith left right ∨ StartsWith right left

instance : DecidableRel ScopeEntriesOverlap
  | (_, .exactFile), (_, .exactFile) => inferInstanceAs (Decidable (_ = _))
  | (_, .exactFile), (_, .directory) => inferInstanceAs (Decidable (StartsWith _ _))
  | (_, .directory), (_, .exactFile) => inferInstanceAs (Decidable (StartsWith _ _))
  | (_, .directory), (_, .directory) => inferInstanceAs (Decidable (_ ∨ _))

/-- The directory whose files are numbered at integration: two PRDs may both add to it. -/
def migrationsDirectory : String := "crates/familiar-ai-storage/migrations/"

def scopeOverlap (left right : List ScopeEntry) : Option (String × String) :=
  left.findSome? fun a ↦
    if a.1 = migrationsDirectory then none
    else
      (right.find? fun b ↦
        decide (b.1 ≠ migrationsDirectory) && decide (ScopeEntriesOverlap a b)).map fun b ↦ (a.1, b.1)

/-- What a worker still in flight holds. -/
structure ActiveHold where
  id : PrdId
  scope : List ScopeEntry
  resources : List String

/-- What other hosts have claimed and archived, read from the remote. -/
structure ForeignState where
  /-- The written identity of a PRD with the branch that holds it. -/
  claimed : List (String × String) := []
  archivedFiles : List String := []

/-- A durable selection or deferral decision. -/
structure SelectionDecision where
  prdId : PrdId
  decision : String
  detail : String

/-- What a selection pass answers. -/
inductive Selection
  | eligible (prds : List DiscoveredPrd)
  | backlogEmpty
  | nothingEligible
  deriving DecidableEq

def Selection.prds : Selection → List DiscoveredPrd
  | eligible prds => prds
  | backlogEmpty | nothingEligible => []

/-- The failures of the drive. -/
inductive DriveError
  | config (message : String)
  | storage (message : String)
  deriving DecidableEq

/-! ### The pass -/

/-- What the pass selects by. -/
structure SelectionContext where
  readFile : RepositoryPath → Except String String
  attempted : List PrdId
  /-- The PRDs approved for this session, if it is restricted. -/
  allowlist : Option (List PrdId)
  activeHolds : List ActiveHold
  foreign : ForeignState
  limit : ℕ

/-- The order in which entries are considered. -/
def EntryBefore (e e' : BacklogEntry) : Prop :=
  e.prd.id.LE e'.prd.id ∧ ((e.prd.id == e'.prd.id) = true → e.prd.path.text ≤ e'.prd.path.text)

instance : DecidableRel EntryBefore :=
  fun e e' ↦ inferInstanceAs (Decidable (_ ∧ (_ → e.prd.path.text ≤ e'.prd.path.text)))

/-- The state of the pass: what is selected, what is held, and the decisions so far. -/
structure Batch where
  selected : List DiscoveredPrd := []
  scopes : List (PrdId × List ScopeEntry)
  resources : List (PrdId × List String)
  decisions : List SelectionDecision := []

namespace Batch

def note (batch : Batch) (id : PrdId) (decision detail : String) : Batch :=
  { batch with decisions := batch.decisions ++ [⟨id, decision, detail⟩] }

/-- A resource that the PRD declares and something holds already, with its holder. -/
def heldResource (batch : Batch) (prd : DiscoveredPrd) : Option (PrdId × String) :=
  batch.resources.findSome? fun held ↦
    (prd.metadata.resources.find? held.2.contains).map fun resource ↦ (held.1, resource)

def heldScope (batch : Batch) (scope : List ScopeEntry) : Option (PrdId × String × String) :=
  batch.scopes.findSome? fun held ↦ (scopeOverlap scope held.2).map fun pair ↦ (held.1, pair)

def select (batch : Batch) (prd : DiscoveredPrd) (scope : List ScopeEntry) : Batch :=
  let batch := batch.note prd.id "ready_selected" ""
  { batch with
    selected := batch.selected ++ [prd]
    scopes := batch.scopes ++ [(prd.id, scope)]
    resources := batch.resources ++ [(prd.id, prd.metadata.resources)] }

def consider (ctx : SelectionContext) (entries : List BacklogEntry) (batch : Batch)
    (entry : BacklogEntry) : Batch :=
  let prd := entry.prd
  let inFlight := ctx.activeHolds.map (·.id)
  if ctx.attempted.contains prd.id then batch
  else
    match frontMatterHold prd with
    | some status => batch.note prd.id "front_matter_hold"
        ("front matter status " ++ status ++ "; not selectable from this host")
    | none =>
    match ctx.foreign.claimed.lookup prd.id.display with
    | some branch => batch.note prd.id "claimed_elsewhere"
        ("drive branch " ++ branch ++ " exists on origin; another host holds this PRD")
    | none =>
    if ctx.foreign.archivedFiles.contains prd.path.fileName then
      batch.note prd.id "archived_upstream" (prd.path.fileName ++
        " is under the archive on origin; this PRD already landed on another host")
    else
    let waiting := unmet entries prd
    if entry.status ≠ .pending ∨ waiting ≠ [] then
      let blockedBy := waiting.filter fun id ↦ ctx.attempted.contains id || inFlight.contains id
      if entry.status = .pending ∧ blockedBy ≠ [] then
        batch.note prd.id "dependency_not_integrated"
          ("dependency " ++ String.intercalate ", " (blockedBy.map (·.display)) ++
            " was attempted this session and is not integrated into the session revision")
      else
        batch
    else if ctx.allowlist.any fun allowlist ↦ !allowlist.contains prd.id then
      batch.note prd.id "excluded_allowlist" "ready but outside the session's approved PRD set"
    else if max ctx.limit 1 ≤ batch.selected.length then
      batch.note prd.id "deferred_width"
        ("ready, but the warrant width of " ++ toString (max ctx.limit 1) ++ " is exhausted")
    else
    match batch.heldResource prd with
    | some (holder, resource) => batch.note prd.id "deferred_resource"
        ("declared resource '" ++ resource ++ "' is held by " ++ holder.display)
    | none =>
    match prdScope ctx.readFile prd with
    | .error error => batch.note prd.id "deferred_scope_unavailable"
        ("expected-file scope cannot be resolved: " ++ error)
    | .ok scope =>
    match batch.heldScope scope with
    | some (holder, left, right) =>
      batch.note prd.id
        (if inFlight.contains holder then "deferred_scope_held" else "deferred_scope_overlap")
        ("scope '" ++ left ++ "' overlaps '" ++ right ++ "' held by " ++ holder.display)
    | none => batch.select prd scope

/-- The pass starts with what the workers in flight hold. -/
def start (ctx : SelectionContext) : Batch where
  scopes := ctx.activeHolds.map fun hold ↦ (hold.id, hold.scope)
  resources := ctx.activeHolds.map fun hold ↦ (hold.id, hold.resources)

end Batch

/-- Select from the ready set, up to `limit` PRDs and at least one. `snapshot` is the answer of the
store to reconciling the discovered PRDs. -/
def selectBatchWithForeign (ctx : SelectionContext) (discovered : List DiscoveredPrd)
    (snapshot : Except String (List BacklogEntry)) :
    Except DriveError Selection × List SelectionDecision :=
  if discovered = [] then (.ok .backlogEmpty, [])
  else
    match snapshot with
    | .error error => (.error (.storage error), [])
    | .ok entries =>
      let entries := entries.insertionSort EntryBefore
      let batch := entries.foldl (Batch.consider ctx entries) (Batch.start ctx)
      (.ok (if batch.selected = [] then .nothingEligible else .eligible batch.selected),
        batch.decisions)

end FamiliarAi
