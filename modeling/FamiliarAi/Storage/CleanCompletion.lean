import FamiliarAi.Review.CleanReview
import FamiliarAi.Review.Disclosure
import FamiliarAi.Storage.Reviews

/-!
# Clean reviews at the completion gate

The coordinator decides in its loop when a review is clean, and the completion gate decides it again
from what was kept. We compare the two: a run that ends clean, kept as it ended, passes the gate exactly
under the conditions of `PassesGate`. They are more than the coordinator asks for. A candidate whose
tier asks for checks only is ready without a review, and the gate demands one; an adjudicated finding
is no obstacle to the coordinator, and stays one here; and the gate compares the evidence of the request,
which is put in order there, with the evidence of the cycle, which is not.
-/

namespace FamiliarAi

open Relational List

def requiredCheckIds (plan : VerificationPlan) : List String :=
  (plan.checks.filter (·.required)).map (·.checkId)

/-- When a clean cycle passes the gate. `remediations` is how often the implementer was asked. -/
structure PassesGate (cycle : ReviewCycle) (reviews : Reviews) (remediations : ℕ) : Prop where
  reviewed : ∃ result, cycle.reviewResult = some result ∧
    (∀ f ∈ result.findings, f.status = .opened → f.blocking = false) ∧
    ∀ f ∈ result.findings, f.Actionable → reviews.Waives cycle f
  inOrder : cycle.currentVerification.Pairwise (·.checkId ≤ ·.checkId)
  /-- After a remediation some check was run again, or there was none to begin with. -/
  rerun : remediations = 0 ∨ cycle.verificationAfterRemediation ≠ [] ∨
    cycle.verificationBeforeReview = []

section Kept

variable {cycle : ReviewCycle}

theorem checkEvidence_eq_ok {rows : List EvidenceRow} {history : List VerificationEvidence}
    {index : ℕ} (h : ∀ entry ∈ history.zipIdx index, ∃ row,
      (rows.find? fun row ↦ row.checkId = entry.1.checkId ∧ row.phase = evidencePhase entry.2) =
        some row ∧ row.evidence = .record entry.1) :
    checkEvidence rows index history = .ok () := by
  induction history generalizing index with
  | nil => rfl
  | cons expected history ih =>
    rw [zipIdx_cons, forall_mem_cons] at h
    obtain ⟨⟨row, hfound, hrecord⟩, hrest⟩ := h
    rw [checkEvidence, hfound]
    dsimp only
    rw [hrecord]
    refine Except.bind_eq_ok.2 ⟨expected, rfl, ?_⟩
    rw [if_pos rfl]
    exact ih hrest

theorem find_evidenceRow {entry : VerificationEvidence × ℕ}
    (hentry : entry ∈ cycle.verificationHistory.zipIdx) :
    ((cycle.verificationHistory.zipIdx.map (evidenceRow cycle)).find? fun row ↦
        row.checkId = entry.1.checkId ∧ row.phase = evidencePhase entry.2) =
      some (evidenceRow cycle entry) := by
  have hmem := List.mem_map_of_mem (f := evidenceRow cycle) hentry
  rcases hfound : (cycle.verificationHistory.zipIdx.map (evidenceRow cycle)).find? fun row ↦
      row.checkId = entry.1.checkId ∧ row.phase = evidencePhase entry.2 with _ | row
  · exact absurd (decide_eq_true ⟨rfl, rfl⟩) (find?_eq_none.1 hfound _ hmem)
  · obtain ⟨other, hother, rfl⟩ := List.mem_map.1 (mem_of_find?_eq_some hfound)
    have hmatch := find?_some hfound
    obtain ⟨-, hphase⟩ := of_decide_eq_true hmatch
    have hindex : other.2 = entry.2 := evidencePhase_injective hphase
    have hsame : other = entry := inj_on_of_nodup_map (by
      rw [zipIdx_map_snd]
      exact nodup_range') hother hentry hindex
    rw [hfound, hsame]

theorem evidenceOf_eq_of_rows {reviews : Reviews} {entries : List (VerificationEvidence × ℕ)}
    (h : reviews.evidenceRows cycle.cycleId = entries.map (evidenceRow cycle)) :
    reviews.evidenceOf cycle = entries.map (evidenceRow cycle) := by
  have hrows : reviews.evidenceOf cycle = (reviews.evidenceRows cycle.cycleId).filter
      (·.repositoryKey = some cycle.repositoryKey) := by
    rw [Reviews.evidenceRows, List.filter_filter]
    refine filter_congr fun row _ ↦ ?_
    rw [← Bool.decide_and]
    exact decide_eq_decide.2 and_comm
  rw [hrows, h]
  refine filter_eq_self.2 fun row hrow ↦ ?_
  obtain ⟨entry, -, rfl⟩ := List.mem_map.1 hrow
  exact decide_eq_true rfl

end Kept

theorem contents_of_buildReviewRequest {sha256 : Sha256} {input : ReviewPackageInput}
    {request : ReviewRequest} (h : buildReviewRequest sha256 input = .ok request) :
    request.task = input.task ∧ request.diff = input.captured.diff ∧
      request.verification = input.verification.insertionSort fun a b ↦ a.checkId ≤ b.checkId := by
  obtain ⟨_, d, size, -, hpackages⟩ := exists_packages h
  rw [hpackages.request_eq]
  exact ⟨rfl, rfl, rfl⟩

section Standing

variable {coordinator : ReviewCoordinator} {request : CoordinationRequest} {parties : Parties}
  {cycle : ReviewCycle} {o : Observation} {k : Knowledge}

theorem Clean.verificationFor_eq (h : Clean coordinator request parties cycle o k)
    (hrerun : k.remediations = 0 ∨ cycle.verificationAfterRemediation ≠ [] ∨
      cycle.verificationBeforeReview = []) :
    cycle.verificationFor k.remediations = cycle.currentVerification := by
  rw [ReviewCycle.verificationFor, ReviewCycle.currentVerification]
  by_cases hnone : k.remediations = 0
  · rw [if_pos hnone, if_pos (h.fresh hnone)]
  · rw [if_neg hnone]
    by_cases hafter : cycle.verificationAfterRemediation = []
    · obtain hbefore := (hrerun.resolve_left hnone).resolve_left fun hne ↦ hne hafter
      rw [if_pos hafter, hafter, hbefore]
    · rw [if_neg hafter]

theorem Clean.testedIdentity (h : Clean coordinator request parties cycle o k)
    (hechoes : Echoes parties) {e : VerificationEvidence}
    (he : e ∈ cycle.verificationFor k.remediations) :
    e.testedIdentity = o.captured.diff.contentHash := by
  obtain ⟨check, -, t, hanswer⟩ := h.verified.answered e he
  exact (hechoes t check _ e hanswer).2.2

theorem Clean.requireChecks (h : Clean coordinator request parties cycle o k)
    (hechoes : Echoes parties) (hidentity : o.captured.diff.contentHash ≠ "")
    (hstanding : cycle.verificationFor k.remediations = cycle.currentVerification) :
    FamiliarAi.requireChecks cycle.currentVerification none
      (requiredCheckIds request.verificationPlan) = .ok () := by
  refine requireChecks_eq_ok hidentity (fun e he ↦ ?_) (fun id hid ↦ ?_) nofun
  · exact h.testedIdentity hechoes (hstanding ▸ he)
  · obtain ⟨check, hcheck, rfl⟩ := List.mem_map.1 hid
    obtain ⟨hcheck, hrequired⟩ := mem_filter.1 hcheck
    obtain ⟨e, he, hsame, hrequired, hpassed, -⟩ := h.passed hechoes hcheck hrequired
    exact ⟨e, he, hsame, hrequired, hpassed⟩

end Standing

/-! ### The two of them -/

theorem returns_request_iff {coordinator : ReviewCoordinator} {request : CoordinationRequest}
    {parties : Parties} {cycle : ReviewCycle} {captured : CapturedDiff}
    {verification : List VerificationEvidence} {package : ReviewRequest} {result : ReviewResult}
    {k : Knowledge} {serialize : Artifact → List Char}
    {parseRequest : List Char → Except String ReviewRequest} {db : Database}
    (hreview : Reviewed coordinator request parties cycle captured verification package result k)
    (htask : cycle.taskId = request.task.taskId)
    (hstore : ∀ t artifact reference, parties t (.saveArtifact artifact) = .ok reference →
      reference = artifactReference coordinator.sha256 (serialize artifact))
    (hkept : artifactRow coordinator.sha256 "review_request" (serialize (.reviewRequest package)) ∈
      db.reviews.artifacts.rows)
    (hparse : parseRequest (serialize (.reviewRequest package)) = .ok package) :
    (validatePersistedReviewRequest coordinator.sha256 parseRequest cycle).Returns db () db ↔
      verification.insertionSort (fun a b ↦ a.checkId ≤ b.checkId) = cycle.currentVerification := by
  obtain ⟨reference, hreference, t, hsaved⟩ := hreview.reviewRequest
  obtain rfl := hstore t _ _ hsaved
  obtain ⟨input, hbuilt, -, hinput, hevidence⟩ := hreview.built
  obtain ⟨raw, hvalid⟩ := hreview.validated
  obtain ⟨hid, hmanifest, htested, -⟩ := applyAndValidate_binds hvalid
  obtain ⟨hpackage, -, hverification⟩ := contents_of_buildReviewRequest hbuilt
  rw [hevidence] at hverification
  rw [returns_validatePersistedReviewRequest, ← hverification]
  constructor
  · rintro ⟨reference, hreference', -, row, hrow, -, parsed, hparsed, result', -, hanswered⟩
    obtain rfl := Option.some.inj (hreference.symm.trans hreference')
    rw [find_artifactRow hkept] at hrow
    obtain rfl := Option.some.inj hrow
    obtain rfl := Except.ok.inj (hparse.symm.trans hparsed)
    exact hanswered.2.2.2.1
  · intro hcurrent
    refine ⟨_, hreference, ⟨rfl, rfl, rfl, rfl⟩, _, find_artifactRow hkept, ⟨rfl, rfl, rfl, rfl, rfl⟩,
      package, hparse, result, hreview.reviewResult, ?_, hid, hmanifest, hcurrent, htested⟩
    rw [hpackage, hinput, htask]

/-- **A clean review passes the gate exactly when its condition is met.** The run ended with a cycle
that is ready, the requests of the run are kept as artifacts and read back as they were, and the cycle
was saved. Then the validations of a completion of its task let it pass if and only if it was reviewed,
nothing open is left that blocks, what is left open otherwise is waived, the evidence that stands is in
order, and it was not left without any by a remediation. -/
theorem cleanReview_completes_iff {coordinator : ReviewCoordinator} {request : CoordinationRequest}
    {parties : Parties} {cycle : ReviewCycle} {t : Transcript} {serialize : Artifact → List Char}
    {parseRequest : List Char → Except String ReviewRequest}
    {c c' : Connection Database String}
    (hrun : coordinator.run request parties = (.ok cycle, t))
    (hready : cycle.disposition = .readyForHumanApproval)
    (hid : request.cycleId = request.task.taskId ++ "-cycle") (hechoes : Echoes parties)
    (hidentity : ∀ captured, Transcript.lastCaptured t = some captured →
      captured.diff.contentHash ≠ "")
    (hstore : ∀ t artifact reference, parties t (.saveArtifact artifact) = .ok reference →
      reference = artifactReference coordinator.sha256 (serialize artifact))
    (hkept : ∀ package result,
      Transcript.lastReview coordinator.policy t = some (package, result) →
        artifactRow coordinator.sha256 "review_request" (serialize (.reviewRequest package)) ∈
            c.store.reviews.artifacts.rows ∧
          parseRequest (serialize (.reviewRequest package)) = .ok package)
    (hsaved : (ReviewRepository.saveCycle cycle).Runs c () c') :
    (validateReview coordinator.sha256 parseRequest cycle request.task.taskId
        (requiredCheckIds request.verificationPlan)).Returns c'.store () c'.store ↔
      PassesGate cycle c'.store.reviews (Transcript.asked .remediation t) := by
  obtain ⟨-, hclean⟩ := run_concluded coordinator request parties
  rw [hrun] at hclean
  obtain ⟨hnotReady, -⟩ | ⟨o, hclean⟩ := hclean cycle rfl
  · exact absurd hready hnotReady
  obtain ⟨hartifacts, hevidence, hfindings⟩ := saveCycle_runs hsaved
  rw [returns_validateReview, returns_validateCompletionCycle]
  cases hclean.judged with
  | checksOnly _ _ hresult _ =>
    -- without a review there is nothing that the gate could let pass
    constructor
    · rintro ⟨⟨-, result, hresult', -⟩, -⟩
      cases hresult.symm.trans hresult'
    · rintro ⟨⟨result, hresult', -⟩, -, -⟩
      cases hresult.symm.trans hresult'
  | reviewed package result hreview _ _ =>
    obtain ⟨hrow, hparse⟩ := hkept package result hreview.last
    rw [← hartifacts] at hrow
    obtain ⟨raw, hvalid⟩ := hreview.validated
    obtain ⟨-, -, -, hnodup⟩ := applyAndValidate_binds hvalid
    have hrows := hfindings result hreview.reviewResult hnodup
    rw [returns_request_iff hreview hclean.taskId hstore hrow hparse,
      returns_validatePersistedFindings hreview.reviewResult]
    constructor
    · rintro ⟨⟨-, result', hresult', hwaived, -⟩, hsorted, -, -, hclosed⟩
      obtain rfl := Option.some.inj (hreview.reviewResult.symm.trans hresult')
      refine ⟨⟨result, hreview.reviewResult, fun f hf hopen ↦ ?_, hwaived⟩, ?_, ?_⟩
      · by_contra hblocking
        refine hclosed ⟨findingRow cycle f, ?_, Bool.eq_true_of_not_eq_false hblocking, hopen⟩
        rw [hrows]
        exact List.mem_map_of_mem hf
      · rw [← hsorted]
        exact pairwise_insertionSort _ _
      · -- with nothing run again, the request holds no evidence
        by_contra hrerun
        obtain ⟨hsome, hrerun⟩ := not_or.1 hrerun
        obtain ⟨hafter, hbefore⟩ := not_or.1 hrerun
        have hafter := not_not.1 hafter
        have hfor : cycle.verificationFor (Transcript.asked .remediation t) = [] :=
          (if_neg hsome).trans hafter
        have hcurrent : cycle.currentVerification = cycle.verificationBeforeReview := if_pos hafter
        have hsorted : List.insertionSort (fun a b ↦ a.checkId ≤ b.checkId)
          (cycle.verificationFor (Transcript.asked .remediation t)) = _ := hsorted
        rw [hfor, hcurrent] at hsorted
        exact hbefore hsorted.symm
    · rintro ⟨⟨result', hresult', hclosed, hwaived⟩, hinOrder, hrerun⟩
      obtain rfl := Option.some.inj (hreview.reviewResult.symm.trans hresult')
      have hstanding := hclean.verificationFor_eq hrerun
      refine ⟨⟨⟨hclean.taskId, hclean.cycleId.trans hid, hclean.state, hclean.disposition,
        hclean.stopReasons⟩, result, hreview.reviewResult, hwaived,
        hclean.requireChecks hechoes (hidentity _ hclean.observed.captured) hstanding⟩, ?_, ?_,
        holdsFindings_of_mem (by rw [hrows, length_map]) fun f hf ↦ ?_, ?_⟩
      · rw [hstanding]
        exact hinOrder.insertionSort_eq
      · rw [returns_validatePersistedEvidence, evidenceOf_eq_of_rows hevidence, length_map,
          length_zipIdx]
        exact ⟨rfl, checkEvidence_eq_ok fun entry hentry ↦ ⟨_, find_evidenceRow hentry, rfl⟩⟩
      · rw [hrows]
        exact List.mem_map_of_mem hf
      · rintro ⟨row, hrow, hblocking, hopen⟩
        rw [hrows] at hrow
        obtain ⟨f, hf, rfl⟩ := List.mem_map.1 hrow
        exact Bool.false_ne_true ((hclosed f hf hopen).symm.trans hblocking)

/-! ### Sample runs -/

/-- A request of the execution `t`. -/
def executionRequest : CoordinationRequest :=
  { sampleRequest 5 [sampleCheck] with cycleId := "t-cycle" }

def sampleSerialize : Artifact → List Char
  | .reviewRequest package => package.json.render
  | artifact => artifact.kind.toList

def storingParties (files : List ChangedFile) : Parties := fun t op ↦
  match op with
  | .saveArtifact artifact =>
    .ok (artifactReference sampleCoordinator.sha256 (sampleSerialize artifact))
  | op => sampleParties files t op

def samplePackage? : Option ReviewRequest :=
  (Transcript.lastReview sampleCoordinator.policy
    (sampleCoordinator.run executionRequest (storingParties [])).2).map (·.1)

/-- The package is read back from its text. -/
def sampleParse (text : List Char) : Except String ReviewRequest :=
  match samplePackage? with
  | some package => if text = package.json.render then .ok package else .error "expected value"
  | none => .error "expected value"

def sampleArtifacts : Table artifactSchema :=
  ⟨samplePackage?.toList.map fun package ↦
    artifactRow sampleCoordinator.sha256 "review_request" (sampleSerialize (.reviewRequest package)),
    by simp [artifactSchema], by
      cases samplePackage? with
      | none => exact List.Pairwise.nil
      | some package => exact pairwise_singleton _ _⟩

def taskDatabase (artifacts : Table artifactSchema) : Database :=
  { Database.empty with
    reviews := { Reviews.empty with
      tasks := ⟨[⟨"t", .record executionRequest.task⟩], by simp [reviewTaskSchema],
        pairwise_singleton _ _⟩
      artifacts } }

/-- The candidate is reviewed, and its cycle passes the gate. -/
theorem cleanReview_completes_sample :
    ∃ cycle t c', sampleCoordinator.run executionRequest (storingParties []) = (.ok cycle, t) ∧
      (ReviewRepository.saveCycle cycle).Runs ⟨taskDatabase sampleArtifacts, []⟩ () c' ∧
      (validateReview sampleCoordinator.sha256 sampleParse cycle "t" ["unit"]).Returns c'.store ()
        c'.store := by
  have hresult :
      (sampleCoordinator.run executionRequest (storingParties [])).map
          (fun outcome ↦ outcome.toOption.map fun cycle ↦ decide
            (cycle.disposition = .readyForHumanApproval ∧
              cycle.reviewResult.map (·.findings.isEmpty) = some true ∧
              cycle.currentVerification.map (·.checkId) = ["unit"] ∧
              ((ReviewRepository.saveCycle cycle).run ⟨taskDatabase sampleArtifacts, []⟩).1.toOption = some ()))
          (fun t ↦ decide (Transcript.asked .remediation t = 0 ∧
            (Transcript.lastCaptured t).map (·.diff.contentHash) = some "hash")) =
        (some true, true) := by
    decide +kernel
  rcases hrun : sampleCoordinator.run executionRequest (storingParties []) with ⟨_ | cycle, t⟩
  · rw [hrun] at hresult
    cases congrArg Prod.fst hresult
  rw [hrun] at hresult
  obtain ⟨hcycle, htranscript⟩ := Prod.mk.inj hresult
  have hcycle := Option.some.inj hcycle
  obtain ⟨hready, hfindings, hcurrent, hsave⟩ := of_decide_eq_true hcycle
  obtain ⟨hasked, hcaptured⟩ := of_decide_eq_true htranscript
  have hsave := Except.toOption_eq_some.1 hsave
  refine ⟨cycle, t, _, rfl, Prod.ext hsave rfl, ?_⟩
  have hstored (t : Transcript) (artifact : Artifact) (reference : EvidenceRef)
      (h : storingParties [] t (.saveArtifact artifact) = .ok reference) :
      reference = artifactReference sampleCoordinator.sha256 (sampleSerialize artifact) := by
    cases h
    rfl
  refine (cleanReview_completes_iff hrun hready rfl ?_ ?_ hstored ?_ (Prod.ext hsave rfl)).2 ?_
  · intro t check identity e h
    cases h
    exact ⟨rfl, rfl, rfl⟩
  · intro captured h
    rw [h] at hcaptured
    have hhash : captured.diff.contentHash = "hash" := Option.some.inj hcaptured
    rw [hhash]
    decide
  · intro package result h
    have hpackage : samplePackage? = some package := by
      rw [samplePackage?, hrun, h]
      rfl
    constructor
    · show _ ∈ samplePackage?.toList.map _
      rw [hpackage]
      exact mem_singleton_self _
    · rw [sampleParse, hpackage]
      exact if_pos rfl
  · obtain ⟨result, hresult, hnone⟩ := Option.map_eq_some_iff.1 hfindings
    have hnone := List.isEmpty_iff.1 hnone
    refine ⟨⟨result, hresult, ?_, ?_⟩, ?_, ?_⟩
    · rw [hnone]
      exact fun _ hmem ↦ absurd hmem not_mem_nil
    · rw [hnone]
      exact fun _ hmem ↦ absurd hmem not_mem_nil
    · obtain ⟨e, he, -⟩ := map_eq_singleton_iff.1 hcurrent
      rw [he]
      exact pairwise_singleton _ _
    · exact .inl hasked

theorem checksOnly_rejected :
    ∃ cycle t c', sampleCoordinator.run executionRequest
        (storingParties [⟨"src/lib.rs", .modified, none, []⟩]) = (.ok cycle, t) ∧
      cycle.state = .completed ∧ cycle.stopReasons = [.cleanReview] ∧
      cycle.disposition = .readyForHumanApproval ∧
      (ReviewRepository.saveCycle cycle).Runs ⟨taskDatabase .empty, []⟩ () c' ∧
      ∀ parseRequest requiredChecks,
        ¬(validateReview sampleCoordinator.sha256 parseRequest cycle "t" requiredChecks).Returns
          c'.store () c'.store := by
  have hresult :
      ((sampleCoordinator.run executionRequest
          (storingParties [⟨"src/lib.rs", .modified, none, []⟩])).1.toOption.map fun cycle ↦
        (cycle.state, cycle.stopReasons, cycle.disposition, cycle.reviewResult.isSome,
          ((ReviewRepository.saveCycle cycle).run ⟨taskDatabase .empty, []⟩).1.toOption)) =
        some (.completed, [.cleanReview], .readyForHumanApproval, false, some ()) := by
    decide +kernel
  rcases hrun : sampleCoordinator.run executionRequest
    (storingParties [⟨"src/lib.rs", .modified, none, []⟩]) with ⟨_ | cycle, t⟩
  · rw [hrun] at hresult
    cases hresult
  rw [hrun] at hresult
  obtain ⟨hstate, hcycle⟩ := Prod.mk.inj (Option.some.inj hresult)
  obtain ⟨hreasons, hcycle⟩ := Prod.mk.inj hcycle
  obtain ⟨hready, hcycle⟩ := Prod.mk.inj hcycle
  obtain ⟨hnone, hsave⟩ := Prod.mk.inj hcycle
  have hsave := Except.toOption_eq_some.1 hsave
  refine ⟨cycle, t, _, rfl, hstate, hreasons, hready, Prod.ext hsave rfl, ?_⟩
  intro parseRequest requiredChecks h
  obtain ⟨hcompletion, -⟩ := returns_validateReview.1 h
  obtain ⟨-, result, hresult, -⟩ := returns_validateCompletionCycle.1 hcompletion
  rw [hresult] at hnone
  cases hnone

end FamiliarAi
