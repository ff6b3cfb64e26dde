import FamiliarAi.Storage.Completion

/-!
# What the completion gate accepts

The gate only looks at the database. For each of its validations we say once under which condition on
the cycle and on the rows it lets the cycle pass; the proofs about completions go by these conditions
and never look into the validations.
-/

namespace FamiliarAi

open Relational

section RequireRow

variable {α β : Type} {e : BacklogStoreError} {f : Database → Option α} {a : α} {b : β}

theorem inspects_requireRow : (requireRow e f).Inspects := by
  refine .bind .read fun found ↦ ?_
  cases found with
  | none => exact .fail
  | some a => exact .pure

theorem requireRow_runs {c c' : Connection Database BacklogStoreError}
    (h : (requireRow e f).Runs c a c') : f c.store = some a ∧ c'.store = c.store := by
  obtain ⟨c₁, hstore, hmatch⟩ := h.of_read_bind
  split at hmatch
  · rename_i a' hfound
    obtain ⟨rfl, rfl⟩ := hmatch.of_pure
    exact ⟨hfound, hstore⟩
  · exact absurd hmatch Query.not_runs_fail

theorem returns_requireRow {db : Database} :
    (requireRow e f).Returns db a db ↔ f db = some a := by
  constructor
  · exact fun h ↦ (requireRow_runs h).1
  · intro h
    refine Query.returns_read_bind.2 ?_
    rw [h]
    exact .pure

theorem returns_requireRow_bind {db db' : Database} {g : α → DatabaseQuery β} :
    (requireRow e f >>= g).Returns db b db' ↔ ∃ a, f db = some a ∧ (g a).Returns db b db' := by
  rw [inspects_requireRow.returns_bind]
  simp only [returns_requireRow]

end RequireRow

variable {sha256 : Sha256} {parseRequest : List Char → Except String ReviewRequest}
  {cycle : ReviewCycle} {executionId : String} {requiredChecks : List String} {db : Database}
  {result : ReviewResult}

/-- The finding is waived by a human, in the table and in the cycle: of the waivers that are meant for
it, the first one is. -/
def Reviews.Waives (reviews : Reviews) (cycle : ReviewCycle) (finding : ReviewFinding) : Prop :=
  ∃ row ∈ (reviews.waiversOf cycle.cycleId).find? fun row ↦ row.Matches finding,
    row.waiver.ByHuman ∧ row.waiver ∈ cycle.waivers

theorem inspects_requireWaiver (finding : ReviewFinding) : (requireWaiver cycle finding).Inspects :=
  .bind .read fun _ ↦ .ensure

theorem returns_requireWaiver {finding : ReviewFinding} :
    (requireWaiver cycle finding).Returns db () db ↔ db.reviews.Waives cycle finding := by
  rw [requireWaiver, Query.returns_read_bind, Query.returns_ensure, and_iff_left rfl]
  rfl

/-! ### The cycle -/

theorem inspects_validateCompletionCycle :
    (validateCompletionCycle cycle executionId requiredChecks).Inspects := by
  refine .bind .ensure fun _ ↦ .bind .ofExcept fun result ↦ ?_
  exact .bind (.forEach inspects_requireWaiver _) fun _ ↦ .ofExcept

theorem requireResult_eq_ok :
    requireResult cycle = .ok result ↔ cycle.reviewResult = some result := by
  rw [requireResult]
  split
  · rename_i result' hresult
    rw [hresult, Except.ok.injEq, Option.some.injEq]
  · rename_i hresult
    rw [hresult]
    simp only [reduceCtorEq]

/-- **The cycle passes** when it ended clean, its open findings that count are waived, and the required
checks have passed. -/
theorem returns_validateCompletionCycle :
    (validateCompletionCycle cycle executionId requiredChecks).Returns db () db ↔
      cycle.EndedClean executionId ∧ ∃ result, cycle.reviewResult = some result ∧
        (∀ f ∈ result.findings, f.Actionable → db.reviews.Waives cycle f) ∧
        requireChecks cycle.currentVerification none requiredChecks = .ok () := by
  rw [validateCompletionCycle, Query.returns_ensure_bind, Query.returns_ofExcept_bind]
  refine and_congr_right fun _ ↦ exists_congr fun result ↦ and_congr requireResult_eq_ok ?_
  have hloop : (Query.forEach (result.findings.filter fun f ↦ f.Actionable)
      (requireWaiver cycle)).Inspects := .forEach inspects_requireWaiver _
  rw [hloop.returns_bind]
  simp only [Query.returns_forEach inspects_requireWaiver, returns_requireWaiver, List.mem_filter,
    decide_eq_true_eq, and_imp, Query.returns_ofExcept, and_true, exists_const]

theorem requireChecks_eq_ok {current : List VerificationEvidence} {identity : String}
    (hidentity : identity ≠ "") (hcurrent : ∀ e ∈ current, e.testedIdentity = identity)
    {checks : List String} (hchecks : ∀ check ∈ checks, ∃ e ∈ current,
      e.checkId = check ∧ e.required = true ∧ e.status = .passed)
    {accepted : Option String} (haccepted : ∀ before ∈ accepted, before = identity) :
    requireChecks current accepted checks = .ok () := by
  induction checks generalizing accepted with
  | nil => rfl
  | cons check checks ih =>
    obtain ⟨e, he, hpassed⟩ := hchecks check List.mem_cons_self
    rw [requireChecks]
    split
    · rename_i hnone
      exact absurd (decide_eq_true hpassed) (List.find?_eq_none.1 hnone e he)
    · rename_i evidence hfound
      have hevidence := hcurrent evidence (List.mem_of_find?_eq_some hfound)
      rw [hevidence, if_neg, if_neg hidentity]
      · refine ih (fun check hcheck ↦ hchecks check (List.mem_cons_of_mem _ hcheck)) ?_
        intro before hbefore
        cases accepted with
        | none => exact (Option.some.inj hbefore).symm
        | some other => exact haccepted before hbefore
      · rintro ⟨before, hbefore, hne⟩
        exact hne (haccepted before hbefore)

theorem inspects_validatePersistedReviewRequest :
    (validatePersistedReviewRequest sha256 parseRequest cycle).Inspects := by
  rw [validatePersistedReviewRequest]
  split
  · exact .fail
  · refine .bind .ensure fun _ ↦ inspects_requireRow.bind fun row ↦ ?_
    refine .bind .ensure fun _ ↦ .bind .ofExcept fun request ↦ ?_
    exact .bind .ofExcept fun result ↦ .ensure

/-- **The request passes** when the artifact that the cycle refers to is intact, and it is the request
that the result answers. -/
theorem returns_validatePersistedReviewRequest :
    (validatePersistedReviewRequest sha256 parseRequest cycle).Returns db () db ↔
      ∃ reference, cycle.reviewRequest = some reference ∧ reference.IsStored ∧
        ∃ row, (db.reviews.artifacts.find fun row ↦ row.contentHash = reference.contentHash) =
            some row ∧ row.IsIntact sha256 reference ∧
          ∃ request, parseRequest row.content = .ok request ∧
            ∃ result, cycle.reviewResult = some result ∧ request.IsAnsweredBy cycle result := by
  rw [validatePersistedReviewRequest]
  split
  · rename_i hnone
    rw [hnone]
    refine ⟨fun h ↦ absurd h Query.not_returns_fail, ?_⟩
    rintro ⟨reference, ⟨⟩, -⟩
  · rename_i reference hreference
    have hparse (row : ArtifactRow) (request : ReviewRequest) :
        ((parseRequest row.content).mapError fun error ↦ BacklogStoreError.storage
          ("invalid persisted terminal review request: " ++ error)) = .ok request ↔
        parseRequest row.content = .ok request := by
      cases parseRequest row.content with
      | ok parsed => rw [Except.mapError, Except.ok.injEq, Except.ok.injEq]
      | error error => exact ⟨nofun, nofun⟩
    rw [hreference]
    simp only [Query.returns_ensure_bind, returns_requireRow_bind, Query.returns_ofExcept_bind,
      Query.returns_ensure, requireResult_eq_ok, hparse, and_true, Option.some.injEq,
      exists_eq_left']

theorem inspects_validatePersistedEvidence : (validatePersistedEvidence cycle).Inspects :=
  .bind .read fun _ ↦ .bind .ensure fun _ ↦ .ofExcept

/-- **The evidence passes** when the rows are those of the history. -/
theorem returns_validatePersistedEvidence :
    (validatePersistedEvidence cycle).Returns db () db ↔
      (db.reviews.evidenceOf cycle).length = cycle.verificationHistory.length ∧
        checkEvidence (db.reviews.evidenceOf cycle) 0 cycle.verificationHistory = .ok () := by
  rw [validatePersistedEvidence, Query.returns_read_bind, Query.returns_ensure_bind,
    Query.returns_ofExcept, and_iff_left rfl]

theorem inspects_validatePersistedFindings : (validatePersistedFindings cycle).Inspects :=
  .bind .read fun _ ↦ .bind .ensure fun _ ↦
    .bind .ofExcept fun _ ↦ .ensure

def Reviews.HoldsFindings (reviews : Reviews) (cycle : ReviewCycle) (result : ReviewResult) : Prop :=
  (reviews.findingsOf cycle.cycleId).length = result.findings.length ∧
    result.findings.forM (checkPersistedFinding (reviews.findingsOf cycle.cycleId)) = .ok ()

/-- **The findings pass** when the rows are those of the result and none is open and blocking. -/
theorem returns_validatePersistedFindings (hresult : cycle.reviewResult = some result) :
    (validatePersistedFindings cycle).Returns db () db ↔
      db.reviews.HoldsFindings cycle result ∧
        ¬∃ row ∈ db.reviews.findingsOf cycle.cycleId, row.blocking = true ∧ row.status = .opened := by
  rw [validatePersistedFindings, hresult]
  simp only [Query.returns_read_bind, Query.returns_ensure_bind, Query.returns_ofExcept_bind,
    Query.returns_ensure, and_true]
  constructor
  · rintro ⟨hlength, _, hrows, hclosed⟩
    exact ⟨⟨hlength, hrows⟩, hclosed⟩
  · rintro ⟨⟨hlength, hrows⟩, hclosed⟩
    exact ⟨hlength, (), hrows, hclosed⟩

theorem inspects_validateReview :
    (validateReview sha256 parseRequest cycle executionId requiredChecks).Inspects := by
  refine inspects_validateCompletionCycle.bind fun _ ↦ ?_
  refine inspects_validatePersistedReviewRequest.bind fun _ ↦ ?_
  exact inspects_validatePersistedEvidence.bind fun _ ↦ inspects_validatePersistedFindings

theorem returns_validateReview :
    (validateReview sha256 parseRequest cycle executionId requiredChecks).Returns db () db ↔
      (validateCompletionCycle cycle executionId requiredChecks).Returns db () db ∧
        (validatePersistedReviewRequest sha256 parseRequest cycle).Returns db () db ∧
        (validatePersistedEvidence cycle).Returns db () db ∧
        (validatePersistedFindings cycle).Returns db () db := by
  rw [validateReview, inspects_validateCompletionCycle.returns_bind]
  simp only [inspects_validatePersistedReviewRequest.returns_bind,
    inspects_validatePersistedEvidence.returns_bind]
  constructor
  · rintro ⟨_, hcycle, _, hrequest, _, hevidence, hfindings⟩
    exact ⟨hcycle, hrequest, hevidence, hfindings⟩
  · rintro ⟨hcycle, hrequest, hevidence, hfindings⟩
    exact ⟨_, hcycle, _, hrequest, _, hevidence, hfindings⟩

theorem inspects_requireReview :
    (requireReview sha256 parseRequest executionId requiredChecks).Inspects := by
  refine inspects_requireRow.bind fun row ↦ .bind .ofExcept fun task ↦ ?_
  refine .bind .ensure fun _ ↦ inspects_requireRow.bind fun row ↦ ?_
  refine .bind .ofExcept fun cycle ↦ .bind .ensure fun _ ↦ ?_
  exact inspects_validateReview

end FamiliarAi
