import FamiliarAi.Context.Basic
import FamiliarAi.Selection.Greedy
import Mathlib.Data.Finset.Insert
import Mathlib.Data.List.Sort
import Mathlib.Data.Prod.Lex
import Mathlib.Data.String.Basic

/-!
# Budgeting an execution context

The context is validated, and of its documents those are kept that fit under a ceiling of tokens: the
PRD always, the others in the order of their priorities and paths, each if it fits beside those kept
before it. The kept documents stay in the order of the input, and a report tells what was decided of
each document.

The main result is `budget_selects`: the selection is the greedy one (`Budgeted`), and it does not
depend on the order of the documents in the input.
-/

namespace FamiliarAi

open Text List Except

structure ContextBudget where
  hardCeilingTokens : ℕ

inductive ContextPriority
  | requestedPrd
  | directContract
  | directAdr
  | directSupporting
  deriving DecidableEq

/-- Priorities in the order of their declaration. -/
def ContextPriority.rank : ContextPriority → ℕ
  | requestedPrd => 0
  | directContract => 1
  | directAdr => 2
  | directSupporting => 3

inductive ContextInclusionReason
  | requestedPrdMandatory
  | fitsWithinRemainingBudget (remainingBeforeTokens remainingAfterTokens : ℕ)
  deriving DecidableEq

inductive ContextExclusionReason
  | exceedsRemainingBudget (requiredTokens remainingTokens : ℕ)
  deriving DecidableEq

inductive ContextBudgetOutcome
  | included (reason : ContextInclusionReason)
  | excluded (reason : ContextExclusionReason)
  deriving DecidableEq

def ContextBudgetOutcome.isIncluded : ContextBudgetOutcome → Bool
  | included _ => true
  | excluded _ => false

structure ContextBudgetDecision where
  path : String
  kind : DocumentKind
  estimatedTokens : ℕ
  priority : ContextPriority
  selectionIndex : ℕ
  outcome : ContextBudgetOutcome
  deriving DecidableEq

structure ContextBudgetReport where
  hardCeilingTokens : ℕ
  inputEstimatedTokens : ℕ
  includedEstimatedTokens : ℕ
  excludedEstimatedTokens : ℕ
  decisions : List ContextBudgetDecision
  deriving DecidableEq

structure BudgetedExecutionContext where
  context : ExecutionContext
  report : ContextBudgetReport
  deriving DecidableEq

inductive ContextBudgetError
  | prdExceedsHardCeiling (path : String) (estimatedTokens hardCeilingTokens : ℕ)
  | invalidPrd (path : String)
  | invalidDirectDocument (path : String)
  | duplicatePath (path : String)
  | malformedPath (path : String)
  | inconsistentDocumentEstimate (path : String) (expected actual : ℕ)
  | inconsistentAggregateEstimate (expected actual : ℕ)
  | tokenArithmeticOverflow
  | reportIndexOverflow
  deriving DecidableEq

/-! ### Validation -/

/-- What the validation asks of a document that the PRD refers to. -/
structure ContextBudgeter.Admissible (prd document : ContextDocument) : Prop where
  wellFormed : WellFormedPath document.path
  kind : document.kind ≠ .prd
  inclusion : document.inclusion = .directReference prd.path
  estimate : document.estimatedTokens = Tokens.estimateTokens document.content

/-- A context that budgeting accepts. -/
structure ExecutionContext.Valid (context : ExecutionContext) : Prop where
  wellFormed : WellFormedPath context.prd.path
  kind : context.prd.kind = .prd
  inclusion : context.prd.inclusion = .requestedPrd
  estimate : context.prd.estimatedTokens = Tokens.estimateTokens context.prd.content
  documents : ∀ document ∈ context.documents, ContextBudgeter.Admissible context.prd document
  nodup : ((context.prd :: context.documents).map (·.path)).Nodup
  total : context.estimatedTokens = ((context.prd :: context.documents).map (·.estimatedTokens)).sum
  total_le : context.estimatedTokens ≤ maxU64

namespace ContextBudgeter

/-- Addition that an overflow stops. -/
def addTokens (a b : ℕ) : Except ContextBudgetError ℕ :=
  match checkedAdd a b with
  | some c => .ok c
  | none => .error .tokenArithmeticOverflow

/-- Subtraction that an overflow stops. -/
def subTokens (a b : ℕ) : Except ContextBudgetError ℕ :=
  if b ≤ a then .ok (a - b) else .error .tokenArithmeticOverflow

def validatePath (path : String) : Except ContextBudgetError Unit :=
  if WellFormedPath path then .ok () else .error (.malformedPath path)

def validateEstimate (document : ContextDocument) : Except ContextBudgetError ℕ :=
  let expected := Tokens.estimateTokens document.content
  if maxU64 < expected then .error .tokenArithmeticOverflow
  else if expected ≠ document.estimatedTokens then
    .error (.inconsistentDocumentEstimate document.path expected document.estimatedTokens)
  else .ok expected

def validateDocument (prd : ContextDocument) (seen : Finset String × ℕ)
    (document : ContextDocument) : Except ContextBudgetError (Finset String × ℕ) := do
  validatePath document.path
  if document.path ∈ seen.1 then throw (.duplicatePath document.path)
  if document.kind = .prd ∨ document.inclusion ≠ .directReference prd.path then
    throw (.invalidDirectDocument document.path)
  let estimate ← validateEstimate document
  let total ← addTokens seen.2 estimate
  return (insert document.path seen.1, total)

def validateContext (context : ExecutionContext) : Except ContextBudgetError Unit := do
  validatePath context.prd.path
  if context.prd.kind ≠ .prd ∨ context.prd.inclusion ≠ .requestedPrd then
    throw (.invalidPrd context.prd.path)
  let estimate ← validateEstimate context.prd
  let seen ← context.documents.foldlM (validateDocument context.prd) ({context.prd.path}, estimate)
  if seen.2 ≠ context.estimatedTokens then
    throw (.inconsistentAggregateEstimate seen.2 context.estimatedTokens)
  return ()

section Validation

variable {prd document : ContextDocument} {context : ExecutionContext} {paths : Finset String}
  {a b c : ℕ}

theorem addTokens_eq_ok : addTokens a b = .ok c ↔ c = a + b ∧ a + b ≤ maxU64 := by
  rw [addTokens, checkedAdd]
  by_cases hle : a + b ≤ maxU64
  · rw [if_pos hle]
    exact ⟨fun h ↦ ⟨(ok.inj h).symm, hle⟩, fun h ↦ congrArg _ h.1.symm⟩
  · rw [if_neg hle]
    exact ⟨nofun, fun h ↦ absurd h.2 hle⟩

theorem subTokens_eq_ok : subTokens a b = .ok c ↔ b ≤ a ∧ c = a - b := by
  rw [subTokens]
  by_cases hle : b ≤ a
  · rw [if_pos hle]
    exact ⟨fun h ↦ ⟨hle, (ok.inj h).symm⟩, fun h ↦ congrArg _ h.2.symm⟩
  · rw [if_neg hle]
    exact ⟨nofun, fun h ↦ absurd h.1 hle⟩

theorem validatePath_eq_ok {path : String} : validatePath path = .ok () ↔ WellFormedPath path := by
  rw [validatePath]
  by_cases hpath : WellFormedPath path
  · rw [if_pos hpath]
    exact ⟨fun _ ↦ hpath, fun _ ↦ rfl⟩
  · rw [if_neg hpath]
    exact ⟨nofun, fun h ↦ absurd h hpath⟩

theorem validateEstimate_eq_ok {estimate : ℕ} :
    validateEstimate document = .ok estimate ↔ estimate = document.estimatedTokens ∧
      document.estimatedTokens = Tokens.estimateTokens document.content ∧ estimate ≤ maxU64 := by
  show (if _ then _ else if _ then _ else _) = _ ↔ _
  by_cases hmax : maxU64 < Tokens.estimateTokens document.content
  · rw [if_pos hmax]
    refine ⟨nofun, fun ⟨hestimate, hcontent, hle⟩ ↦ ?_⟩
    omega
  · by_cases hne : Tokens.estimateTokens document.content ≠ document.estimatedTokens
    · rw [if_neg hmax, if_pos hne]
      exact ⟨nofun, fun h ↦ absurd h.2.1.symm hne⟩
    · rw [if_neg hmax, if_neg hne]
      rw [not_not] at hne
      refine ⟨fun h ↦ ?_, fun h ↦ congrArg _ (hne.trans h.1.symm)⟩
      obtain rfl := ok.inj h
      exact ⟨hne, hne.symm, Nat.not_lt.1 hmax⟩

theorem validateDocument_eq_ok {total : ℕ} {seen : Finset String × ℕ} :
    validateDocument prd (paths, total) document = .ok seen ↔
      Admissible prd document ∧ document.path ∉ paths ∧
        total + document.estimatedTokens ≤ maxU64 ∧
        seen = (insert document.path paths, total + document.estimatedTokens) := by
  rw [validateDocument, bind_eq_ok]
  simp only [ite_throw_eq_ok, bind_eq_ok, validateEstimate_eq_ok, addTokens_eq_ok]
  constructor
  · rintro ⟨_, hpath, hfresh, hkind, _, ⟨rfl, hestimate, -⟩, _, ⟨rfl, hle⟩, hseen⟩
    rw [not_or, not_not] at hkind
    exact ⟨⟨validatePath_eq_ok.1 hpath, hkind.1, hkind.2, hestimate⟩, hfresh, hle,
      (ok.inj hseen).symm⟩
  · rintro ⟨⟨hpath, hkind, hinclusion, hestimate⟩, hfresh, hle, rfl⟩
    exact ⟨(), validatePath_eq_ok.2 hpath, hfresh, not_or.2 ⟨hkind, not_not.2 hinclusion⟩, _,
      ⟨rfl, hestimate, by omega⟩, _, ⟨rfl, hle⟩, rfl⟩

theorem exists_foldlM_validateDocument {documents : List ContextDocument} {total total' : ℕ}
    (hle : total ≤ maxU64) :
    (∃ paths', documents.foldlM (validateDocument prd) (paths, total) = .ok (paths', total')) ↔
      (∀ document ∈ documents, Admissible prd document ∧ document.path ∉ paths) ∧
        (documents.map (·.path)).Nodup ∧
        total' = total + (documents.map (·.estimatedTokens)).sum ∧ total' ≤ maxU64 := by
  induction documents generalizing paths total with
  | nil =>
    constructor
    · rintro ⟨_, h⟩
      obtain ⟨-, rfl⟩ := Prod.ext_iff.1 (ok.inj h)
      exact ⟨nofun, nodup_nil, rfl, hle⟩
    · rintro ⟨-, -, rfl, -⟩
      exact ⟨paths, rfl⟩
  | cons document documents ih =>
    simp only [foldlM_cons, bind_eq_ok, validateDocument_eq_ok, map_cons,
      nodup_cons, sum_cons, forall_mem_cons]
    constructor
    · rintro ⟨paths', _, ⟨hadmissible, hfresh, hle', rfl⟩, h⟩
      obtain ⟨hdocuments, hnodup, rfl, hmax⟩ := (ih hle').1 ⟨paths', h⟩
      refine ⟨⟨⟨hadmissible, hfresh⟩, fun d hd ↦ ⟨(hdocuments d hd).1, fun hmem ↦
        (hdocuments d hd).2 (Finset.mem_insert_of_mem hmem)⟩⟩, ⟨fun hmem ↦ ?_, hnodup⟩,
        Nat.add_assoc .., hmax⟩
      obtain ⟨d, hd, hpath⟩ := List.mem_map.1 hmem
      exact (hdocuments d hd).2 (hpath ▸ Finset.mem_insert_self _ _)
    · rintro ⟨⟨⟨hadmissible, hfresh⟩, hdocuments⟩, ⟨hnew, hnodup⟩, htotal, hmax⟩
      have hle' : total + document.estimatedTokens ≤ maxU64 := by omega
      obtain ⟨paths', h⟩ : ∃ paths', documents.foldlM (validateDocument prd)
          (insert document.path paths, total + document.estimatedTokens) = .ok (paths', total') := by
        refine (ih hle').2 ⟨fun d hd ↦ ⟨(hdocuments d hd).1, fun hmem ↦ ?_⟩, hnodup, by omega, hmax⟩
        rcases Finset.mem_insert.1 hmem with hpath | hmem
        · exact hnew (List.mem_map.2 ⟨d, hd, hpath⟩)
        · exact (hdocuments d hd).2 hmem
      exact ⟨paths', _, ⟨hadmissible, hfresh, hle', rfl⟩, h⟩

/-- **The validation** accepts the contexts that are valid. -/
theorem validateContext_eq_ok : validateContext context = .ok () ↔ context.Valid := by
  rw [validateContext, bind_eq_ok]
  simp only [ite_throw_eq_ok, bind_eq_ok, validateEstimate_eq_ok]
  constructor
  · rintro ⟨_, hpath, hkind, _, ⟨rfl, hestimate, hle⟩, ⟨paths, total⟩, hdocuments, htotal, -⟩
    rw [not_or, not_not, not_not] at hkind
    rw [not_not] at htotal
    obtain ⟨hadmissible, hnodup, rfl, hmax⟩ :=
      (exists_foldlM_validateDocument hle).1 ⟨paths, hdocuments⟩
    refine ⟨validatePath_eq_ok.1 hpath, hkind.1, hkind.2, hestimate,
      fun document hdocument ↦ (hadmissible document hdocument).1,
      nodup_cons.2 ⟨fun hmem ↦ ?_, hnodup⟩, htotal.symm, htotal ▸ hmax⟩
    obtain ⟨document, hdocument, heq⟩ := List.mem_map.1 hmem
    exact (hadmissible document hdocument).2 (Finset.mem_singleton.2 heq)
  · rintro ⟨hpath, hkind, hinclusion, hestimate, hdocuments, hnodup, htotal, hmax⟩
    rw [map_cons, nodup_cons] at hnodup
    rw [map_cons, sum_cons] at htotal
    have hle : context.prd.estimatedTokens ≤ maxU64 := by omega
    obtain ⟨paths, h⟩ : ∃ paths, context.documents.foldlM (validateDocument context.prd)
        ({context.prd.path}, context.prd.estimatedTokens) = .ok (paths, context.estimatedTokens) :=
      (exists_foldlM_validateDocument hle).2 ⟨fun document hdocument ↦
        ⟨hdocuments document hdocument, fun hmem ↦ hnodup.1
          (List.mem_map.2 ⟨document, hdocument, Finset.mem_singleton.1 hmem⟩)⟩,
        hnodup.2, htotal, hmax⟩
    exact ⟨(), validatePath_eq_ok.2 hpath, not_or.2 ⟨not_not.2 hkind, not_not.2 hinclusion⟩, _,
      ⟨rfl, hestimate, by omega⟩, _, h, not_not.2 rfl, rfl⟩

end Validation

def priority : DocumentKind → ContextPriority
  | .contract => .directContract
  | .adr => .directAdr
  | .supporting => .directSupporting
  | .prd => .requestedPrd

/-- What documents are ranked by: the priority, and the path among equal priorities. -/
def rank (document : ContextDocument) : ℕ ×ₗ String :=
  toLex ((priority document.kind).rank, document.path)

/-- The documents in the order in which they are considered. -/
def ranked (documents : List ContextDocument) : List ContextDocument :=
  documents.insertionSort fun left right ↦ rank left ≤ rank right

def decision (document : ContextDocument) (priority : ContextPriority) (index : ℕ)
    (outcome : ContextBudgetOutcome) : Except ContextBudgetError ContextBudgetDecision :=
  if index ≤ maxU64 then
    .ok ⟨document.path, document.kind, document.estimatedTokens, priority, index, outcome⟩
  else .error .reportIndexOverflow

/-- What the loop over the ranked documents keeps. -/
structure Selection where
  used : ℕ
  excluded : ℕ := 0
  selected : Finset String := ∅
  decisions : List ContextBudgetDecision

/-- One round of the loop. -/
def select (budget : ContextBudget) (s : Selection) (document : ContextDocument) :
    Except ContextBudgetError Selection := do
  let remaining ← subTokens budget.hardCeilingTokens s.used
  if document.estimatedTokens ≤ remaining then
    let after ← subTokens remaining document.estimatedTokens
    let used ← addTokens s.used document.estimatedTokens
    let made ← decision document (priority document.kind) s.decisions.length
      (.included (.fitsWithinRemainingBudget remaining after))
    return { s with
      used
      selected := insert document.path s.selected
      decisions := s.decisions ++ [made] }
  else
    let excluded ← addTokens s.excluded document.estimatedTokens
    let made ← decision document (priority document.kind) s.decisions.length
      (.excluded (.exceedsRemainingBudget document.estimatedTokens remaining))
    return { s with excluded, decisions := s.decisions ++ [made] }

def budget (context : ExecutionContext) (budget : ContextBudget) :
    Except ContextBudgetError BudgetedExecutionContext := do
  validateContext context
  if budget.hardCeilingTokens < context.prd.estimatedTokens then
    throw (.prdExceedsHardCeiling context.prd.path context.prd.estimatedTokens
      budget.hardCeilingTokens)
  let mandatory ← decision context.prd .requestedPrd 0 (.included .requestedPrdMandatory)
  let s ← (ranked context.documents).foldlM (select budget)
    { used := context.prd.estimatedTokens, decisions := [mandatory] }
  let reconciled ← addTokens s.used s.excluded
  if reconciled ≠ context.estimatedTokens then
    throw (.inconsistentAggregateEstimate reconciled context.estimatedTokens)
  return {
    context := {
      repository := context.repository
      prd := context.prd
      documents := context.documents.filter (·.path ∈ s.selected)
      estimatedTokens := s.used }
    report := {
      hardCeilingTokens := budget.hardCeilingTokens
      inputEstimatedTokens := context.estimatedTokens
      includedEstimatedTokens := s.used
      excludedEstimatedTokens := s.excluded
      decisions := s.decisions } }

section Loop

variable {document : ContextDocument} {limit : ContextBudget} {s s' : Selection}

theorem decision_eq_ok {priority : ContextPriority} {index : ℕ} {outcome : ContextBudgetOutcome}
    {made : ContextBudgetDecision} (h : decision document priority index outcome = .ok made) :
    made.path = document.path ∧ made.outcome = outcome := by
  rw [decision] at h
  split_ifs at h
  obtain rfl := ok.inj h
  exact ⟨rfl, rfl⟩

theorem select_cases (h : select limit s document = .ok s') :
    ∃ made : ContextBudgetDecision, made.path = document.path ∧
      ((s.used + document.estimatedTokens ≤ limit.hardCeilingTokens ∧
          made.outcome.isIncluded = true ∧
          s' = { s with
            used := s.used + document.estimatedTokens
            selected := insert document.path s.selected
            decisions := s.decisions ++ [made] }) ∨
        ¬s.used + document.estimatedTokens ≤ limit.hardCeilingTokens ∧
          made.outcome.isIncluded = false ∧
          s' = { s with
            excluded := s.excluded + document.estimatedTokens
            decisions := s.decisions ++ [made] }) := by
  obtain ⟨remaining, hremaining, h⟩ := bind_eq_ok.1 h
  obtain ⟨hused, rfl⟩ := subTokens_eq_ok.1 hremaining
  by_cases hfits : document.estimatedTokens ≤ limit.hardCeilingTokens - s.used
  · rw [if_pos hfits] at h
    obtain ⟨after, -, h⟩ := bind_eq_ok.1 h
    obtain ⟨used, hadd, h⟩ := bind_eq_ok.1 h
    obtain ⟨rfl, -⟩ := addTokens_eq_ok.1 hadd
    obtain ⟨made, hmade, h⟩ := bind_eq_ok.1 h
    obtain ⟨hpath, houtcome⟩ := decision_eq_ok hmade
    refine ⟨made, hpath, .inl ⟨by omega, ?_, (ok.inj h).symm⟩⟩
    rw [houtcome]
    rfl
  · rw [if_neg hfits] at h
    obtain ⟨excluded, hadd, h⟩ := bind_eq_ok.1 h
    obtain ⟨rfl, -⟩ := addTokens_eq_ok.1 hadd
    obtain ⟨made, hmade, h⟩ := bind_eq_ok.1 h
    obtain ⟨hpath, houtcome⟩ := decision_eq_ok hmade
    refine ⟨made, hpath, .inr ⟨by omega, ?_, (ok.inj h).symm⟩⟩
    rw [houtcome]
    rfl

def includedPaths (decisions : List ContextBudgetDecision) : List String :=
  (decisions.filter (·.outcome.isIncluded)).map (·.path)

theorem includedPaths_append (decisions decisions' : List ContextBudgetDecision) :
    includedPaths (decisions ++ decisions') = includedPaths decisions ++ includedPaths decisions' := by
  rw [includedPaths, filter_append, map_append]
  rfl

theorem includedPaths_singleton (made : ContextBudgetDecision) :
    includedPaths [made] = if made.outcome.isIncluded then [made.path] else [] := by
  rw [includedPaths, filter_singleton]
  cases made.outcome.isIncluded <;> rfl

/-- What the loop makes of the ranked documents: it picks among them, and decides of each. -/
structure Picks (limit : ContextBudget) (s : Selection) (ranked : List ContextDocument)
    (s' : Selection) : Prop where
  used : s'.used = s.used + ((Greedy.pick (·.estimatedTokens) limit.hardCeilingTokens s.used
    ranked).map (·.estimatedTokens)).sum
  selected : ∀ path, path ∈ s'.selected ↔ path ∈ s.selected ∨
    path ∈ (Greedy.pick (·.estimatedTokens) limit.hardCeilingTokens s.used ranked).map (·.path)
  decided : s'.decisions.map (·.path) = s.decisions.map (·.path) ++ ranked.map (·.path)
  included : includedPaths s'.decisions = includedPaths s.decisions ++
    (Greedy.pick (·.estimatedTokens) limit.hardCeilingTokens s.used ranked).map (·.path)

/-- **The loop** picks the documents that fit, each beside those that it has picked before. -/
theorem foldlM_select {ranked : List ContextDocument}
    (h : ranked.foldlM (select limit) s = .ok s') : Picks limit s ranked s' := by
  induction ranked generalizing s with
  | nil =>
    obtain rfl := ok.inj h
    exact ⟨rfl, fun path ↦ ⟨.inl, (·.resolve_right not_mem_nil)⟩, (append_nil _).symm,
      (append_nil _).symm⟩
  | cons document ranked ih =>
    rw [foldlM_cons] at h
    obtain ⟨s₁, hselect, h⟩ := bind_eq_ok.1 h
    obtain ⟨made, hpath, ⟨hfits, hincluded, rfl⟩ | ⟨hfits, hincluded, rfl⟩⟩ := select_cases hselect
    · obtain ⟨hused, hselected, hdecided, hpicked⟩ := ih h
      constructor
      · rw [Greedy.pick_cons_of_le hfits, hused, map_cons, sum_cons, Nat.add_assoc]
      · intro path
        rw [Greedy.pick_cons_of_le hfits, hselected, Finset.mem_insert, map_cons,
          mem_cons, or_left_comm, or_assoc]
      · rw [hdecided, map_append, append_assoc, map_singleton, hpath]
        rfl
      · rw [Greedy.pick_cons_of_le hfits, hpicked, includedPaths_append, includedPaths_singleton,
          if_pos hincluded, append_assoc, map_cons, ← hpath]
        rfl
    · obtain ⟨hused, hselected, hdecided, hpicked⟩ := ih h
      constructor
      · rw [Greedy.pick_cons_of_lt hfits, hused]
      · intro path
        rw [Greedy.pick_cons_of_lt hfits, hselected]
      · rw [hdecided, map_append, append_assoc, map_singleton, hpath]
        rfl
      · rw [Greedy.pick_cons_of_lt hfits, hpicked, includedPaths_append, includedPaths_singleton,
          hincluded, if_neg Bool.false_ne_true, append_nil]

end Loop

/-! ### The selection is greedy -/

theorem pairwise_ranked {documents : List ContextDocument}
    (hnodup : (documents.map (·.path)).Nodup) :
    (ranked documents).Pairwise fun left right ↦ rank left < rank right := by
  have hsorted : (ranked documents).Pairwise fun left right ↦ rank left ≤ rank right :=
    pairwise_insertionSort _ _
  have hpaths : (ranked documents).Pairwise fun left right ↦ left.path ≠ right.path :=
    pairwise_map.1 (((perm_insertionSort _ documents).map _).nodup_iff.2 hnodup)
  refine (hsorted.and hpaths).imp fun {left right} ⟨hle, hne⟩ ↦ lt_of_le_of_ne hle fun heq ↦ hne ?_
  exact congrArg (fun key ↦ (ofLex key).2) heq

theorem ranked_perm {documents documents' : List ContextDocument}
    (hperm : documents'.Perm documents) (hnodup : (documents.map (·.path)).Nodup) :
    ranked documents' = ranked documents := by
  have hnodup' : (documents'.map (·.path)).Nodup := (hperm.map _).nodup_iff.2 hnodup
  refine Perm.eq_of_pairwise (fun left right _ _ hlt hgt ↦ absurd hgt hlt.asymm)
    (pairwise_ranked hnodup') (pairwise_ranked hnodup) ?_
  exact (perm_insertionSort _ _).trans (hperm.trans (perm_insertionSort _ _).symm)

theorem budget_eq_ok {context : ExecutionContext} {limit : ContextBudget}
    {outcome : BudgetedExecutionContext} :
    budget context limit = .ok outcome ↔ context.Valid ∧
      context.prd.estimatedTokens ≤ limit.hardCeilingTokens ∧ ∃ mandatory s,
        decision context.prd .requestedPrd 0 (.included .requestedPrdMandatory) = .ok mandatory ∧
        (ranked context.documents).foldlM (select limit)
          { used := context.prd.estimatedTokens, decisions := [mandatory] } = .ok s ∧
        s.used + s.excluded = context.estimatedTokens ∧
        outcome = {
          context := { context with
            documents := context.documents.filter (·.path ∈ s.selected)
            estimatedTokens := s.used }
          report := ⟨limit.hardCeilingTokens, context.estimatedTokens, s.used, s.excluded,
            s.decisions⟩ } := by
  rw [budget, bind_eq_ok]
  simp only [ite_throw_eq_ok, bind_eq_ok, addTokens_eq_ok, Nat.not_lt, not_not]
  constructor
  · rintro ⟨_, hvalid, hprd, mandatory, hmandatory, s, hs, _, ⟨rfl, -⟩, htotal, h⟩
    exact ⟨validateContext_eq_ok.1 hvalid, hprd, mandatory, s, hmandatory, hs, htotal,
      (ok.inj h).symm⟩
  · rintro ⟨hvalid, hprd, mandatory, s, hmandatory, hs, htotal, rfl⟩
    exact ⟨(), validateContext_eq_ok.2 hvalid, hprd, mandatory, hmandatory, s, hs, _,
      ⟨rfl, htotal ▸ hvalid.total_le⟩, htotal, rfl⟩

/-- What a successful outcome is, as the selection of documents under a ceiling. -/
structure Budgeted (context : ExecutionContext) (limit : ContextBudget)
    (outcome : BudgetedExecutionContext) : Prop where
  prd : outcome.context.prd = context.prd
  total : outcome.context.estimatedTokens =
    ((outcome.context.prd :: outcome.context.documents).map (·.estimatedTokens)).sum
  fits : outcome.context.estimatedTokens ≤ limit.hardCeilingTokens
  inOrder : outcome.context.documents.Sublist context.documents
  /-- Every document is decided of, once. -/
  covers : (outcome.report.decisions.map (·.path)).Perm
    ((context.prd :: context.documents).map (·.path))
  distinct : (outcome.report.decisions.map (·.path)).Nodup
  included : (includedPaths outcome.report.decisions).Perm
    ((outcome.context.prd :: outcome.context.documents).map (·.path))
  /-- The kept documents are the greedy selection in the order of priorities and paths. -/
  greedy : outcome.context.documents.Perm
    (Greedy.pick (·.estimatedTokens) limit.hardCeilingTokens context.prd.estimatedTokens
      (ranked context.documents))

section Outcome

variable {context : ExecutionContext} {limit : ContextBudget} {outcome : BudgetedExecutionContext}

theorem filter_path_perm {documents picked : List ContextDocument}
    (hnodup : (documents.map (·.path)).Nodup) (hpicked : picked.Sublist (ranked documents)) :
    (documents.filter (·.path ∈ picked.map (·.path))).Perm picked := by
  have hmem (document : ContextDocument) (h : document ∈ picked) : document ∈ documents :=
    (perm_insertionSort _ documents).mem_iff.1 (hpicked.subset h)
  have hranked : (ranked documents).Nodup :=
    (perm_insertionSort _ documents).nodup_iff.2 hnodup.of_map
  refine (perm_ext_iff_of_nodup (hnodup.of_map.filter _) (hpicked.nodup hranked)).2
    fun document ↦ ?_
  rw [mem_filter, decide_eq_true_eq]
  constructor
  · rintro ⟨hdocument, hpath⟩
    obtain ⟨document', hdocument', heq⟩ := List.mem_map.1 hpath
    rwa [← inj_on_of_nodup_map hnodup (hmem document' hdocument') hdocument heq]
  · intro hdocument
    exact ⟨hmem document hdocument, List.mem_map.2 ⟨document, hdocument, rfl⟩⟩

theorem budgeted_of_eq_ok (h : budget context limit = .ok outcome) :
    Budgeted context limit outcome := by
  obtain ⟨hvalid, hprd, mandatory, s, hmandatory, hs, -, rfl⟩ := budget_eq_ok.1 h
  obtain ⟨hmandatory, hincluded⟩ := decision_eq_ok hmandatory
  have hpicks := foldlM_select hs
  have hnodup : (context.documents.map (·.path)).Nodup := (nodup_cons.1 hvalid.nodup).2
  have hcovers : (s.decisions.map (·.path)).Perm
      ((context.prd :: context.documents).map (·.path)) := by
    rw [hpicks.decided, map_singleton, hmandatory, map_cons]
    exact ((perm_insertionSort _ context.documents).map _).cons _
  have hfilter : context.documents.filter (·.path ∈ s.selected) =
      context.documents.filter (·.path ∈ (Greedy.pick (·.estimatedTokens) limit.hardCeilingTokens
        context.prd.estimatedTokens (ranked context.documents)).map (·.path)) := by
    refine filter_congr fun document _ ↦ decide_eq_decide.2 ?_
    rw [hpicks.selected, or_iff_right (Finset.notMem_empty _)]
  have hgreedy : (context.documents.filter (·.path ∈ s.selected)).Perm (Greedy.pick
      (·.estimatedTokens) limit.hardCeilingTokens context.prd.estimatedTokens
        (ranked context.documents)) := by
    rw [hfilter]
    exact filter_path_perm hnodup (Greedy.pick_sublist _ _)
  refine ⟨rfl, ?_, ?_, filter_sublist, hcovers, hcovers.nodup_iff.2 hvalid.nodup, ?_, hgreedy⟩
  · show s.used = ((context.prd :: _).map _).sum
    rw [hpicks.used, map_cons, sum_cons, (hgreedy.map _).sum_eq]
  · show s.used ≤ _
    rw [hpicks.used]
    exact Greedy.used_add_sum_pick_le hprd _
  · show (includedPaths s.decisions).Perm ((context.prd :: _).map _)
    rw [hpicks.included, includedPaths_singleton, hincluded, hmandatory, map_cons]
    exact ((hgreedy.map _).symm).cons _

theorem Budgeted.mem_iff (h : Budgeted context limit outcome)
    (hnodup : (context.documents.map (·.path)).Nodup) :
    Greedy.Chooses (·.estimatedTokens) limit.hardCeilingTokens context.prd.estimatedTokens
      (rank · < rank ·) context.documents outcome.context.documents :=
  (Greedy.chooses_pick (pairwise_ranked hnodup) fun _ _ hlt ↦ hlt.asymm).perm
    (perm_insertionSort _ _) h.greedy.symm

theorem budget_perm (h : budget context limit = .ok outcome) {documents : List ContextDocument}
    (hperm : documents.Perm context.documents) :
    ∃ kept, budget { context with documents } limit =
        .ok { outcome with context := { outcome.context with documents := kept } } ∧
      kept.Perm outcome.context.documents := by
  obtain ⟨hvalid, hprd, mandatory, s, hmandatory, hs, htotal, rfl⟩ := budget_eq_ok.1 h
  have hnodup : (context.documents.map (·.path)).Nodup := (nodup_cons.1 hvalid.nodup).2
  refine ⟨documents.filter (·.path ∈ s.selected), budget_eq_ok.2 ⟨?_, hprd, mandatory, s, hmandatory,
    ?_, htotal, rfl⟩, hperm.filter _⟩
  · obtain ⟨hpath, hkind, hinclusion, hestimate, hdocuments, hdistinct, hsum, hle⟩ := hvalid
    refine ⟨hpath, hkind, hinclusion, hestimate,
      fun document hdocument ↦ hdocuments document (hperm.mem_iff.1 hdocument),
      ((hperm.cons _).map _).nodup_iff.2 hdistinct, ?_, hle⟩
    exact hsum.trans (((hperm.cons _).map _).sum_eq).symm
  · show (ranked documents).foldlM _ _ = _
    rw [ranked_perm hperm hnodup]
    exact hs

end Outcome

end ContextBudgeter

/-- **Budgeting selects greedily**: the PRD is kept, the kept documents fit under the ceiling and
stay in order, every document is decided of once, and those are kept that the greedy selection by
priority and path picks, whatever the order of the input. -/
theorem budget_selects {context : ExecutionContext} {limit : ContextBudget}
    {outcome : BudgetedExecutionContext} (h : ContextBudgeter.budget context limit = .ok outcome) :
    ContextBudgeter.Budgeted context limit outcome ∧
      (∀ document ∈ context.documents, document ∈ outcome.context.documents ↔
        context.prd.estimatedTokens +
            ((outcome.context.documents.filter fun other ↦
              ContextBudgeter.rank other < ContextBudgeter.rank document).map
                (·.estimatedTokens)).sum + document.estimatedTokens ≤ limit.hardCeilingTokens) ∧
      ∀ documents, documents.Perm context.documents →
        ∃ kept, ContextBudgeter.budget { context with documents } limit =
            .ok { outcome with context := { outcome.context with documents := kept } } ∧
          kept.Perm outcome.context.documents := by
  have hvalid := (ContextBudgeter.budget_eq_ok.1 h).1
  have hbudgeted := ContextBudgeter.budgeted_of_eq_ok h
  exact ⟨hbudgeted, hbudgeted.mem_iff (nodup_cons.1 hvalid.nodup).2,
    fun documents hperm ↦ ContextBudgeter.budget_perm h hperm⟩

/-- A contract that is too large, before an ADR that is not. -/
def oversizedContract : ExecutionContext where
  repository := ⟨[], [], none⟩
  prd := ⟨"docs/prds/work.md", .prd, "required prd", .requestedPrd, 3⟩
  documents :=
    [⟨"docs/contracts/a.md", .contract, "one two three four five six",
      .directReference "docs/prds/work.md", 7⟩,
     ⟨"docs/adr/a.md", .adr, "x", .directReference "docs/prds/work.md", 1⟩]
  estimatedTokens := 11

/-- The later document is kept. -/
theorem budget_selects_oversizedContract :
    ∃ outcome, ContextBudgeter.budget oversizedContract ⟨4⟩ = .ok outcome ∧
      outcome.context.documents.map (·.path) = ["docs/adr/a.md"] ∧
      ContextBudgeter.Budgeted oversizedContract ⟨4⟩ outcome := by
  have h : ContextBudgeter.budget oversizedContract ⟨4⟩ = .ok {
      context := { oversizedContract with
        documents := [⟨"docs/adr/a.md", .adr, "x", .directReference "docs/prds/work.md", 1⟩]
        estimatedTokens := 4 }
      report := ⟨4, 11, 4, 7,
        [⟨"docs/prds/work.md", .prd, 3, .requestedPrd, 0, .included .requestedPrdMandatory⟩,
         ⟨"docs/contracts/a.md", .contract, 7, .directContract, 1,
           .excluded (.exceedsRemainingBudget 7 1)⟩,
         ⟨"docs/adr/a.md", .adr, 1, .directAdr, 2,
           .included (.fitsWithinRemainingBudget 1 0)⟩]⟩ } := by
    decide +kernel
  exact ⟨_, h, rfl, (budget_selects h).1⟩

end FamiliarAi
