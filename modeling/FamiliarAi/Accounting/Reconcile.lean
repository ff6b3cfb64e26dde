import FamiliarAi.Accounting.Attribution
import FamiliarAi.Accounting.Billing

/-!
# Reconciliation

A run compares, day by day and project by project, what a source has charged with what was estimated
locally. What a source has charged and no project accounts for is compared on its own.
-/

namespace FamiliarAi

open Relational List

/-! ### What a run compares -/

/-- What was estimated for an observation, and the project that it is counted for. -/
structure LocalEntry where
  observation : UsageObservation
  project : String
  amount : ℤ

/-- What is compared under one key. -/
structure ReconciliationCandidate where
  matchKey : String
  projectId : Option String
  localNanousd : Option ℤ
  authoritativeNanousd : Option ℤ
  providerRevisionIds : List String
  observationIds : List String
  deriving DecidableEq

/-- The amounts, added up with `saturating_add`. -/
def saturatingSum (amounts : List ℤ) : ℤ :=
  amounts.foldl (fun sum amount ↦ saturateI64 (sum + amount)) 0

def slotSum (amounts : List ℤ) : Option ℤ :=
  if amounts = [] then none else some (saturatingSum amounts)

/-- What no project accounts for. -/
def unattributedCandidate (revisions : List CostRevision) : ReconciliationCandidate where
  matchKey := "unattributed"
  projectId := none
  localNanousd := none
  authoritativeNanousd := some (saturatingSum (revisions.map (·.amountNanousd)))
  providerRevisionIds := revisions.map (·.revisionId)
  observationIds := []

def projectCandidate (project : String) (revisions : List CostRevision)
    (observed : List LocalEntry) : ReconciliationCandidate where
  matchKey := "project:" ++ project
  projectId := some project
  localNanousd := slotSum (observed.map (·.amount))
  authoritativeNanousd := slotSum (revisions.map (·.amountNanousd))
  providerRevisionIds := revisions.map (·.revisionId)
  observationIds := observed.map (·.observation.observationId)

section Candidates

variable (C : Calendar) (store : AccountingStore) (source : String) (d : ℤ)

/-- What the source has charged for the day, with the projects. -/
def chargedOn : List (CostRevision × Option String) :=
  store.joinProjects source (store.currentProviderCosts.filter fun r ↦
    r.sourceName = source ∧ C.InDay d r.bucketStart)

def chargedTo (project : Option String) : List CostRevision :=
  (group Prod.snd (chargedOn C store source d) project).map Prod.fst

/-- What was estimated locally for the day. An observation without a project is not matched, and
neither is one without an estimate. -/
def observedOn : Except String (List LocalEntry) := do
  let found ← (store.observations.rows.filter fun o ↦ C.InDay d o.periodStart).mapM fun o ↦ do
    let amount ← store.localNanousd o
    pure (o, store.observationProject o, amount)
  pure (found.filterMap fun entry ↦ do
    let project ← entry.2.1
    let amount ← entry.2.2
    pure { observation := entry.1, project, amount })

/-- The projects of the day, and none of them first if there is something that none accounts for. -/
def comparedKeys (observed : List LocalEntry) : List (Option String) :=
  (if chargedTo C store source d none = [] then [] else [none]) ++
    (((chargedOn C store source d).filterMap (·.2) ++
      observed.map (·.project)).dedup.insertionSort (· ≤ ·)).map some

def candidateOf (observed : List LocalEntry) : Option String → ReconciliationCandidate
  | none => unattributedCandidate (chargedTo C store source d none)
  | some project => projectCandidate project (chargedTo C store source d (some project))
      (group LocalEntry.project observed project)

/-- What a run compares on the day. -/
def candidates : Except String (List ReconciliationCandidate) := do
  let observed ← observedOn C store d
  pure ((comparedKeys C store source d observed).map (candidateOf C store source d observed))

/-- What the days of the window are compared by. -/
def windowCandidates (start stop : Instant) : Except String (List ReconciliationCandidate) := do
  let compared ← (coveredDays start stop).mapM (candidates C store source)
  pure compared.flatten

variable {C store source d} {observed : List LocalEntry} {compared : List ReconciliationCandidate}

theorem candidates_eq_ok (h : candidates C store source d = .ok compared) :
    ∃ observed, observedOn C store d = .ok observed ∧
      compared = (comparedKeys C store source d observed).map
        (candidateOf C store source d observed) := by
  obtain ⟨observed, hobserved, h⟩ := Except.bind_eq_ok.1 h
  exact ⟨observed, hobserved, (Except.ok.inj h).symm⟩

theorem mem_chargedTo {project : Option String} {r : CostRevision} :
    r ∈ chargedTo C store source d project ↔ (r, project) ∈ chargedOn C store source d := by
  rw [chargedTo, List.mem_map]
  constructor
  · rintro ⟨⟨r, p⟩, h, rfl⟩
    obtain ⟨hmem, rfl⟩ := mem_group.1 h
    exact hmem
  · intro h
    exact ⟨_, mem_group.2 ⟨h, rfl⟩, rfl⟩

theorem nodup_comparedKeys : (comparedKeys C store source d observed).Nodup := by
  have hprojects : ((((chargedOn C store source d).filterMap (·.2) ++
      observed.map (·.project)).dedup.insertionSort (· ≤ ·)).map some).Nodup :=
    ((perm_insertionSort _ _).nodup_iff.2 (nodup_dedup _)).map (Option.some_injective _)
  rw [comparedKeys]
  split
  · exact hprojects
  · refine nodup_cons.2 ⟨?_, hprojects⟩
    intro h
    obtain ⟨_, -, h⟩ := List.mem_map.1 h
    cases h

theorem mem_comparedKeys_of_charged {e : CostRevision × Option String}
    (h : e ∈ chargedOn C store source d) : e.2 ∈ comparedKeys C store source d observed := by
  obtain ⟨r, project⟩ := e
  rcases project with _ | project
  · have hne : chargedTo C store source d none ≠ [] := ne_nil_of_mem (mem_chargedTo.2 h)
    rw [comparedKeys, if_neg hne]
    exact mem_append_left _ (mem_singleton_self _)
  refine mem_append_right _ (List.mem_map.2 ⟨project, ?_, rfl⟩)
  rw [mem_insertionSort, mem_dedup]
  exact mem_append_left _ (mem_filterMap.2 ⟨_, h, rfl⟩)

def ReconciliationCandidate.counted (c : ReconciliationCandidate) : List (String × Option String) :=
  c.providerRevisionIds.map fun id ↦ (id, c.projectId)

theorem counted_candidateOf (project : Option String) :
    (candidateOf C store source d observed project).counted =
      (group Prod.snd (chargedOn C store source d) project).map fun e ↦ (e.1.revisionId, e.2) := by
  have hcounted : (candidateOf C store source d observed project).counted =
      (chargedTo C store source d project).map fun r ↦ (r.revisionId, project) := by
    rcases project with _ | project
    · rw [candidateOf, ReconciliationCandidate.counted, unattributedCandidate, List.map_map]
      rfl
    rw [candidateOf, ReconciliationCandidate.counted, projectCandidate, List.map_map]
    rfl
  rw [hcounted, chargedTo, List.map_map]
  refine map_congr_left fun e he ↦ ?_
  rw [← (mem_group.1 he).2]
  rfl

/-- **Everything that is charged for the day is counted once, for its project.** -/
theorem candidates_counted (h : candidates C store source d = .ok compared) :
    (compared.flatMap (·.counted)).Perm
      ((chargedOn C store source d).map fun e ↦ (e.1.revisionId, e.2)) := by
  obtain ⟨observed, -, rfl⟩ := candidates_eq_ok h
  rw [flatMap_map]
  have heach : ((comparedKeys C store source d observed).flatMap fun project ↦
      (candidateOf C store source d observed project).counted) =
        ((comparedKeys C store source d observed).flatMap
          (group Prod.snd (chargedOn C store source d))).map fun e ↦ (e.1.revisionId, e.2) := by
    rw [map_flatMap]
    exact flatMap_congr fun project _ ↦ counted_candidateOf project
  rw [heach]
  exact (flatMap_group_perm nodup_comparedKeys fun e he ↦ mem_comparedKeys_of_charged he).map _

end Candidates

def classifyReconciliation (localAmount authoritative : Option ℤ) (tolerance : ℤ) (dayEnd : Instant)
    (horizonDays : ℤ) (now : Instant) : ReconciliationStatus × Option ℤ :=
  match localAmount, authoritative with
  | none, some _ => (.unattributedProviderSpend, none)
  | some _, none =>
    if now < dayEnd + horizonDays * dayNanos then (.pending, none) else (.mismatch, none)
  | some localAmount, some authoritative =>
    let variance := saturateI64 (authoritative - localAmount)
    if variance = 0 then (.reconciled, some 0)
    else if absI64 variance ≤ tolerance then (.reconciledWithVariance, some variance)
    else (.mismatch, some variance)
  | none, none => (.pending, none)

end FamiliarAi
