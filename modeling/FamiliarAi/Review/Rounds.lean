import FamiliarAi.Review.Stages

/-!
# What the reviews keep

The second half of the coordinator: a review of the package that is built on the candidate, what it
comes to, and the candidate again after its findings were remediated. At its end stand the facts about
whole runs.
-/

namespace FamiliarAi

open Interaction Coordination Except

variable {coordinator : ReviewCoordinator} {request : CoordinationRequest} {parties : Parties}
  {α : Type} {cycle cycle' : ReviewCycle} {due : Account} {reviews remediations : ℕ}
  {o : Observation} {k : Knowledge} {package : ReviewRequest} {result : ReviewResult}
  {policy : BlockingPolicy} {p : Progress} {s : ReviewState} {Q : Empty → Knowledge → Prop}
  {blocking : List ReviewFinding} {captured : CapturedDiff}

theorem applyAndValidate_eq_ok {raw result : ReviewResult}
    (h : policy.applyAndValidate package raw = .ok result) :
    ∃ findings disposition, result = { raw with findings, disposition } := by
  unfold BlockingPolicy.applyAndValidate at h
  obtain ⟨-, h⟩ := ite_throw_eq_ok.1 h
  obtain ⟨-, h⟩ := ite_throw_eq_ok.1 h
  obtain ⟨-, h⟩ := ite_throw_eq_ok.1 h
  obtain ⟨findings, -, h⟩ := bind_eq_ok.1 h
  obtain ⟨-, h⟩ := ite_throw_eq_ok.1 h
  obtain ⟨-, h⟩ := ite_throw_eq_ok.1 h
  cases h
  exact ⟨findings, _, rfl⟩

theorem nodup_of_checkFindings {paths checks ids : List String}
    {findings checked : List ReviewFinding}
    (h : checkFindings policy paths checks ids findings = .ok checked) :
    (checked.map (·.findingId)).Nodup ∧ ∀ f ∈ checked, f.findingId ∉ ids := by
  induction findings generalizing ids checked with
  | nil =>
    obtain rfl := Except.ok.inj h
    exact ⟨List.nodup_nil, fun _ hmem ↦ absurd hmem List.not_mem_nil⟩
  | cons finding findings ih =>
    rw [checkFindings] at h
    obtain ⟨_, hcheck, h⟩ := bind_eq_ok.1 h
    obtain ⟨rest, hrest, h⟩ := bind_eq_ok.1 h
    obtain rfl := Except.ok.inj h
    obtain ⟨hnodup, hfresh⟩ := ih hrest
    have hnew : finding.findingId ∉ ids := by
      rw [checkFinding] at hcheck
      obtain ⟨hid, -⟩ := ite_throw_eq_ok.1 hcheck
      exact fun hmem ↦ hid (.inr hmem)
    constructor
    · refine List.nodup_cons.2 ⟨fun hmem ↦ ?_, hnodup⟩
      obtain ⟨f, hf, hid⟩ := List.mem_map.1 hmem
      exact hfresh f hf (hid ▸ List.mem_cons_self)
    · intro f hf
      rcases List.mem_cons.1 hf with rfl | hf
      · exact hnew
      · exact fun hmem ↦ hfresh f hf (List.mem_cons_of_mem _ hmem)

/-- **A valid review** is one of the package, on evidence of the diff that was reviewed, and its
findings have ids of their own. -/
theorem applyAndValidate_binds {raw result : ReviewResult}
    (h : policy.applyAndValidate package raw = .ok result) :
    result.reviewId = package.reviewId ∧
      result.reviewedManifestHash = package.manifest.manifestHash ∧
      (∀ e ∈ package.verification, e.testedIdentity = package.diff.contentHash) ∧
      (result.findings.map (·.findingId)).Nodup := by
  rw [BlockingPolicy.applyAndValidate] at h
  obtain ⟨hid, h⟩ := ite_throw_eq_ok.1 h
  obtain ⟨hmanifest, h⟩ := ite_throw_eq_ok.1 h
  obtain ⟨hfresh, h⟩ := ite_throw_eq_ok.1 h
  obtain ⟨findings, hfindings, h⟩ := bind_eq_ok.1 h
  obtain ⟨-, h⟩ := ite_throw_eq_ok.1 h
  obtain ⟨-, h⟩ := ite_throw_eq_ok.1 h
  obtain rfl := Except.ok.inj h
  refine ⟨not_not.1 hid, not_not.1 hmanifest, fun e he ↦ ?_, (nodup_of_checkFindings hfindings).1⟩
  by_contra hstale
  exact hfresh ⟨e, he, hstale⟩

section Answers

variable {policy : BlockingPolicy} {reviewer : ReviewerKind} {package : ReviewRequest}
  {raw result : ReviewResult}

theorem spent_valid (h : policy.applyAndValidate package raw = .ok result) :
    spent policy ⟨.review reviewer package, .ok raw⟩ = result.usage.account result.durationMs := by
  simp only [spent, h]
  obtain ⟨findings, disposition, rfl⟩ := applyAndValidate_eq_ok h
  rfl

theorem spent_invalid {e : ReviewValidationError}
    (h : policy.applyAndValidate package raw = .error e) :
    spent policy ⟨.review reviewer package, .ok raw⟩ = raw.usage.account 0 := by
  simp only [spent, h]

theorem validatedReview_valid (h : policy.applyAndValidate package raw = .ok result) :
    validatedReview? policy ⟨.review reviewer package, .ok raw⟩ = some (package, result) := by
  simp only [validatedReview?, h]
  rfl

end Answers

/-! ### One review -/

/-- What the cycle says of the candidate. -/
structure SameRecord (cycle cycle' : ReviewCycle) : Prop where
  scopeEvaluations : cycle'.scopeEvaluations = cycle.scopeEvaluations
  tierSelection : cycle'.tierSelection = cycle.tierSelection
  before : cycle'.verificationBeforeReview = cycle.verificationBeforeReview
  after : cycle'.verificationAfterRemediation = cycle.verificationAfterRemediation

theorem Observed.sameRecord (ho : Observed request cycle o k) (hsame : SameRecord cycle cycle') :
    Observed request cycle' o k :=
  { ho with
    recorded := by
      rw [hsame.scopeEvaluations, hsame.tierSelection]
      exact ho.recorded }

theorem SameRecord.verificationFor (hsame : SameRecord cycle cycle') (remediations : ℕ) :
    cycle'.verificationFor remediations = cycle.verificationFor remediations := by
  unfold ReviewCycle.verificationFor
  rw [hsame.before, hsame.after]

def failedReviewDue (usage : Option ExecutionUsage) : Account :=
  usage.elim ⟨none, none, 0⟩ (·.account 0)

theorem ensures_failReview {started message : String} {usage : Option ExecutionUsage}
    {reason : ReviewStopReason}
    (ht : Tracks request cycle (failedReviewDue usage) reviews remediations k)
    (hreason : reason ≠ .cleanReview) :
    Ensures coordinator request parties (failReview request cycle started message usage reason) k
      fun cycle' k' ↦ Tracks request cycle' 0 reviews remediations k' ∧ SameCandidate k k' ∧
        SameRecord cycle cycle' := by
  unfold failReview
  refine (ensures_failedStage ht).bind ?_
  rintro stage k' ⟨ht, hsame, husage⟩
  dsimp only
  have hdue : failedReviewDue usage = (usage.getD stage.usage).account 0 := by
    cases usage with
    | none => exact husage.symm
    | some usage => rfl
  rw [hdue, ExecutionUsage.account_add_time] at ht
  refine (ensures_charge ht).bind ?_
  rintro _ k' ⟨rfl, ht, u, d, rfl⟩
  have ht : Tracks request _ 0 reviews remediations k' := { ht with }
  refine (ensures_saveCycle ht.toLawful).bind ?_
  rintro _ k' rfl
  split
  · exact Monitor.ensures_pure ⟨{ ht with }, hsame, ⟨rfl, rfl, rfl, rfl⟩⟩
  · exact ensures_stop ht.toLawful ht.stopReasons hreason

theorem ensures_acceptReview
    (ht : Tracks request cycle (result.usage.account result.durationMs) reviews remediations k)
    (hreviews : reviews ≠ 0) :
    Ensures coordinator request parties (acceptReview request cycle result) k fun cycle' k' ↦
      k' = k ∧ Tracks request cycle' 0 reviews remediations k ∧ SameRecord cycle cycle' ∧
        cycle'.account.WithinCeilings request.limits ∧ cycle'.reviewResult = some result ∧
        cycle'.reviewRequest = cycle.reviewRequest := by
  unfold acceptReview
  refine (ensures_saveArtifact ht.toLawful).bind ?_
  rintro artifact k ⟨rfl, -⟩
  have ht (attempts : List StageExecution) :
      Tracks request { cycle with reviewAttempts := attempts }
        (result.usage.account result.durationMs) reviews remediations k := { ht with }
  refine (ensures_charge (ht _)).bind ?_
  rintro _ k ⟨rfl, ht, u, d, rfl⟩
  refine (ensures_checkBudget ht).bind ?_
  rintro _ k ⟨rfl, hbudget⟩
  refine (ensures_saveCycle ht.toLawful).bind ?_
  rintro _ k rfl
  exact Monitor.ensures_pure
    ⟨rfl, { ht with unreviewed := fun hnone ↦ absurd hnone hreviews }, ⟨rfl, rfl, rfl, rfl⟩, hbudget,
      rfl, rfl⟩

/-- What asking the reviewer for a review of the package comes to. -/
structure Performed (coordinator : ReviewCoordinator) (request : CoordinationRequest)
    (parties : Parties) (cycle : ReviewCycle) (package : ReviewRequest) (reviews remediations : ℕ)
    (k : Knowledge) (p : ReviewCycle × Option ReviewResult) (k' : Knowledge) : Prop where
  tracks : Tracks request p.1 0 reviews remediations k'
  sameCandidate : SameCandidate k k'
  sameRecord : SameRecord cycle p.1
  accepted : ∀ result, p.2 = some result → p.1.account.WithinCeilings request.limits ∧
    k'.review = some (package, result) ∧
    (∃ raw, coordinator.policy.applyAndValidate package raw = .ok result) ∧
    p.1.reviewResult = some result ∧
    ∃ reference, p.1.reviewRequest = some reference ∧
      Saved parties (.reviewRequest package) reference

/-- **A review is one more, and it was started within the ceilings.** -/
theorem ensures_performReview (ht : Tracks request cycle 0 reviews remediations k)
    (hroom : Affordable request.limits k.account .review)
    (hcount : reviews < request.limits.maxReviewAttempts) :
    Ensures coordinator request parties (performReview coordinator request cycle package) k
      (Performed coordinator request parties cycle package (reviews + 1) remediations k) := by
  unfold performReview
  refine (ensures_saveArtifact ht.toLawful).bind ?_
  rintro reference k ⟨rfl, hsaved⟩
  refine (ensures_saveCycle ht.toLawful).bind ?_
  rintro _ k rfl
  refine Monitor.Ensures.bind (ensures_silent .now (Q := fun _ k' ↦ k' = k) trivial
    fun _ _ ↦ rfl) ?_
  rintro started k rfl
  have ht : Tracks request { cycle with reviewRequest := some reference } 0 reviews remediations k :=
    { ht with }
  refine Monitor.Ensures.bind (ensures_askReview ht hroom hcount) ?_
  rintro (e | raw) k' ⟨hsame, hreview, ht⟩
  · cases e with
    | agent message =>
      have ht : Tracks request _ (failedReviewDue none) (reviews + 1) remediations k' := ht
      refine (ensures_failReview ht (by decide)).bind ?_
      rintro cycle' k'' ⟨ht, hsame', hrecord⟩
      exact Monitor.ensures_pure
        { tracks := ht
          sameCandidate := ⟨hsame'.1.trans hsame.1, hsame'.2.trans hsame.2⟩
          sameRecord := { hrecord with }
          accepted := fun _ h ↦ by cases h }
    | capabilityIncompatible worker reason => exact ensures_error ht.toLawful
    | parked batchId =>
      refine (ensures_saveCycle ht.toLawful).bind ?_
      rintro _ k' rfl
      -- The cycle is returned as it is. It has not stopped.
      refine Monitor.ensures_exit ⟨ht.toLawful, ?_⟩
      rintro _ ⟨⟩
      left
      rw [ht.disposition, ht.stopReasons]
      exact ⟨by decide, List.not_mem_nil⟩
  · dsimp only
    split
    · rename_i result hvalid
      rw [spent_valid hvalid] at ht
      refine (ensures_acceptReview ht (Nat.succ_ne_zero _)).bind ?_
      rintro cycle' k' ⟨rfl, ht, hrecord, hbudget, hresult, hrequest⟩
      refine Monitor.ensures_pure
        { tracks := ht
          sameCandidate := hsame
          sameRecord := { hrecord with }
          accepted := ?_ }
      rintro _ ⟨⟩
      rw [validatedReview_valid hvalid] at hreview
      exact ⟨hbudget, hreview, ⟨raw, hvalid⟩, hresult, reference, hrequest, hsaved⟩
    · rename_i e hinvalid
      rw [spent_invalid hinvalid] at ht
      have ht : Tracks request _ (failedReviewDue (some raw.usage)) (reviews + 1) remediations k' :=
        ht
      refine (ensures_failReview ht (by decide)).bind ?_
      rintro cycle' k'' ⟨ht, hsame', hrecord⟩
      exact Monitor.ensures_pure
        { tracks := ht
          sameCandidate := ⟨hsame'.1.trans hsame.1, hsame'.2.trans hsame.2⟩
          sameRecord := { hrecord with }
          accepted := fun _ h ↦ by cases h }

def ReviewCycle.finished (cycle : ReviewCycle) (endedAt : String) : ReviewCycle :=
  ({ cycle with disposition := .readyForHumanApproval } : ReviewCycle).stopped .cleanReview endedAt

theorem Judged.finished {verification : List VerificationEvidence}
    (h : Judged coordinator request parties cycle captured verification k) (endedAt : String) :
    Judged coordinator request parties (cycle.finished endedAt) captured verification k := by
  cases h with
  | checksOnly htier hreviews hresult hbudget => exact .checksOnly htier hreviews hresult hbudget
  | reviewed package result hreview hcleared hbudget =>
    exact .reviewed package result { hreview with } hcleared hbudget

/-- **A judged candidate ends the run with a clean cycle.** -/
theorem ensures_finish {Q : α → Knowledge → Prop}
    (h : Stands coordinator request parties p o reviews k)
    (hjudged : Judged coordinator request parties p.cycle p.captured (p.cycle.verificationFor p.remediations) k)
    :
    Ensures coordinator request parties
      (stop { p.cycle with disposition := .readyForHumanApproval } .cleanReview) k Q := by
  have ht := h.tracks
  have hjudged := hjudged
  have hverified := h.verified
  have hfresh := h.fresh
  rw [h.captured, ← ht.remediated] at hjudged hverified
  rw [← ht.remediated] at hfresh
  refine ensures_stopped fun endedAt ↦ ⟨ht.toLawful, ?_⟩
  rintro _ ⟨⟩
  right
  exact ⟨o,
    { cycleId := ht.cycleId
      taskId := ht.taskId
      repositoryKey := ht.repositoryKey
      state := rfl
      disposition := rfl
      stopReasons := by
        show p.cycle.stopReasons ++ [_] = _
        rw [ht.stopReasons, List.nil_append]
      account := by rw [ht.account, Account.add_zero]; rfl
      observed := { h.observed with }
      passable := h.passable
      verified := hverified
      fresh := hfresh
      judged := hjudged.finished endedAt }⟩

theorem eraseDupsBy_eq_nil {r : α → α → Bool} {as : List α} (h : as.eraseDupsBy r = []) : as = [] := by
  rcases as with _ | ⟨a, as⟩
  · rfl
  rw [List.eraseDupsBy_cons] at h
  cases h

/-- **No blocking findings: nothing is left to remediate.** -/
theorem cleared_of_blockingFindings
    (h : blockingFindings (adjudicatedPaths coordinator.sha256 request cycle) result.findings = [])
    :
    Cleared coordinator request cycle result := by
  intro f hf hactionable
  have hnil := List.filter_eq_nil_iff.1 (eraseDupsBy_eq_nil h) f hf
  by_contra hopen
  exact hnil (decide_eq_true ⟨hactionable, hopen⟩)

theorem ensures_judge (h : Stands coordinator request parties p o reviews k)
    (hreview : Reviewed coordinator request parties p.cycle p.captured (p.cycle.verificationFor p.remediations) package result k)
    (hbudget : p.cycle.account.WithinCeilings request.limits) :
    Ensures coordinator request parties (judge coordinator request p.cycle result) k
      (fun _ k' ↦ k' = k) := by
  have ht := h.tracks
  unfold judge
  split
  · exact ensures_stop ht.toLawful ht.stopReasons (by decide)
  dsimp only
  split
  · rename_i hblocking
    exact ensures_finish h
      (.reviewed package result hreview (cleared_of_blockingFindings hblocking) hbudget)
  · split
    · exact ensures_stop ht.toLawful ht.stopReasons (by decide)
    · exact Monitor.ensures_pure rfl

/-- **The findings are remediated until the implementer answers**, or the remediations are used up. -/
theorem ensures_remediateFindings (ht : Tracks request cycle 0 reviews remediations k) :
    Ensures coordinator request parties
      (remediateFindings request remediations captured blocking cycle) k
      fun p k' ↦ Tracks request p.1 (p.2.2.usage.account p.2.2.durationMs) reviews p.2.1 k' ∧
        p.2.1 ≠ 0 := by
  induction hleft : request.limits.maxRemediationAttempts - remediations
    generalizing remediations cycle k with
  | zero =>
    unfold remediateFindings
    rw [dif_pos (by omega)]
    exact ensures_stop ht.toLawful ht.stopReasons (by decide)
  | succ left ih =>
    unfold remediateFindings
    rw [dif_neg (by omega)]
    refine (ensures_remediate ht (by omega)).bind ?_
    rintro ⟨cycle, _ | result⟩ k ht
    · exact ih ht (by omega)
    · exact Monitor.ensures_pure ⟨ht, Nat.succ_ne_zero _⟩

/-- **The candidate is captured, evaluated and checked again** after the findings were remediated. -/
theorem ensures_recheck {remediation : RemediationResult}
    (ht : Tracks request s.cycle (remediation.usage.account remediation.durationMs) reviews s.remediations k)
    (hremediated : s.remediations ≠ 0) :
    Ensures coordinator request parties
      (recheck coordinator request s blocking result remediation) k
      fun s' k' ↦ ∃ o, Stands coordinator request parties s'.toProgress o reviews k' := by
  unfold recheck
  refine (ensures_recapture ht).bind ?_
  rintro ⟨cycle, o⟩ k ⟨ht, ho, hbudget⟩
  refine Monitor.Ensures.bind (ensures_silent (.isolationEvidence .interactive)
    (Q := fun _ k' ↦ k' = k) trivial fun _ _ ↦ rfl) ?_
  rintro isolation k rfl
  dsimp only
  have ht (independence : Option ReviewerIndependence) :
      Tracks request { cycle with independence } 0 reviews s.remediations k := { ht with }
  split
  · exact ensures_stop (ht none).toLawful (ht none).stopReasons (by decide)
  have ht (independence : Option ReviewerIndependence) : Tracks request
      (({ cycle with independence } : ReviewCycle).remediated request s.remediations remediation o)
      0 reviews s.remediations k := { ht independence with }
  have ho (independence : Option ReviewerIndependence) : Observed request
      (({ cycle with independence } : ReviewCycle).remediated request s.remediations remediation o)
      o k := { ho with }
  refine (ensures_saveCycle (ht none).toLawful).bind ?_
  rintro _ k rfl
  refine (ensures_requireScope (ht _)).bind ?_
  rintro _ k ⟨rfl, hpassable⟩
  refine (ensures_reverify (ht _) (ho _) hbudget).bind ?_
  rintro cycle k ⟨ht, ho, -, hverified⟩
  split
  · rename_i hpassing
    exact Monitor.ensures_pure ⟨o,
      { tracks := ht
        observed := ho
        passable := hpassable
        captured := rfl
        verified := by
          rw [ReviewCycle.verificationFor, if_neg hremediated]
          exact hverified hpassing
        fresh := fun h ↦ absurd h hremediated }⟩
  · exact ensures_stopWithDetail ht.toLawful ht.stopReasons (by decide)

/-! ### The reviews of a run -/

theorem Stands.again {k' : Knowledge} {cycle : ReviewCycle} {reviews' : ℕ}
    (h : Stands coordinator request parties p o reviews k) (hsame : SameCandidate k k')
    (hrecord : SameRecord p.cycle cycle) (ht : Tracks request cycle 0 reviews' p.remediations k') :
    Stands coordinator request parties { p with cycle } o reviews' k' where
  tracks := ht
  observed := (h.observed.sameCandidate hsame).sameRecord hrecord
  passable := h.passable
  captured := h.captured
  verified := by
    rw [hrecord.verificationFor]
    exact h.verified
  fresh := fun hr ↦ hrecord.after.trans (h.fresh hr)

/-- **One round of the review loop.** -/
theorem ensures_reviewRound (h : Stands coordinator request parties s.toProgress o reviews k)
    (hcount : reviews < request.limits.maxReviewAttempts) :
    Ensures coordinator request parties (reviewRound coordinator request (reviews + 1) s) k
      fun s' k' ↦ ∃ o, Stands coordinator request parties s'.toProgress o (reviews + 1) k' := by
  have ht := h.tracks
  unfold reviewRound
  refine (ensures_reserveOrStop ht).bind ?_
  rintro _ k ⟨rfl, hroom⟩
  dsimp only
  have ht : Tracks request
      { s.cycle with attempt := reviews + 1, state := .awaitingReview } 0 reviews s.remediations k :=
    { ht with }
  split
  · exact ensures_stop ht.toLawful ht.stopReasons (by decide)
  rename_i package hpackage
  refine (ensures_performReview ht hroom hcount).bind ?_
  rintro ⟨cycle, result⟩ k' hp
  have hrecord : SameRecord s.cycle cycle := { hp.sameRecord with }
  have hstands := h.again hp.sameCandidate hrecord hp.tracks
  rcases result with _ | result
  · exact Monitor.ensures_pure ⟨o, hstands⟩
  obtain ⟨hbudget, hlast, hvalid, hresult, hrequest⟩ := hp.accepted result rfl
  have hreview : Reviewed coordinator request parties cycle s.captured
      (cycle.verificationFor s.remediations) package result k' :=
    { last := hlast
      built := ⟨_, hpackage, rfl, rfl, (hrecord.verificationFor _).symm⟩
      validated := hvalid
      reviewRequest := hrequest
      reviewResult := hresult }
  refine Monitor.Ensures.bind (ensures_judge hstands hreview hbudget) ?_
  rintro blocking k' rfl
  refine (ensures_remediateFindings hp.tracks).bind ?_
  rintro ⟨cycle, remediations, remediation⟩ k' ⟨ht, hremediated⟩
  exact ensures_recheck ht hremediated

/-- **The reviews go on until the cycle stops.** -/
theorem ensures_reviewLoop (h : Stands coordinator request parties s.toProgress o reviews k) :
    Ensures coordinator request parties (reviewLoop coordinator request reviews s) k Q := by
  induction hleft : request.limits.maxReviewAttempts - reviews generalizing reviews s o k with
  | zero =>
    unfold reviewLoop
    rw [dif_pos (by omega)]
    exact ensures_stop h.tracks.toLawful h.tracks.stopReasons (by decide)
  | succ left ih =>
    unfold reviewLoop
    rw [dif_neg (by omega)]
    refine (ensures_reviewRound h (by omega)).bind ?_
    rintro s k ⟨o, h⟩
    exact ih h (by omega)

theorem ensures_reviewCandidate (h : Stands coordinator request parties p o 0 k)
    (hbudget : request.spent.WithinCeilings request.limits ∨ request.verificationPlan.checks ≠ [] → p.cycle.account.WithinCeilings request.limits)
    :
    Ensures coordinator request parties (reviewCandidate coordinator request p) k Q := by
  have ht := h.tracks
  unfold reviewCandidate
  split
  · rename_i htier
    exact ensures_finish h (.checksOnly htier ht.reviewed (ht.unreviewed rfl) hbudget)
  dsimp only
  refine Monitor.Ensures.bind (ensures_silent (.isolationEvidence _)
    (Q := fun _ k' ↦ k' = k) trivial fun _ _ ↦ rfl) ?_
  rintro isolation k rfl
  split
  · exact ensures_stop ht.toLawful ht.stopReasons (by decide)
  rename_i independence _
  have hsame : SameRecord p.cycle { p.cycle with independence := some independence } :=
    ⟨rfl, rfl, rfl, rfl⟩
  exact ensures_reviewLoop (h.again ⟨rfl, rfl⟩ hsame { ht with })

/-- The run starts with what the implementer had used. -/
theorem ensures_coordinate (hk : Lawful request.limits k) (haccount : k.account = request.spent)
    (hreviews : k.reviews = 0) (hremediations : k.remediations = 0) :
    Ensures coordinator request parties (coordinate coordinator request) k fun _ _ ↦ False := by
  unfold coordinate
  split
  · exact ensures_error hk
  refine (ensures_openCycle hk haccount hreviews hremediations).bind ?_
  rintro cycle k ⟨ht, hspent, hbefore, hafter⟩
  refine (ensures_examine ht).bind ?_
  rintro ⟨cycle', o⟩ k ⟨ht, ho, hpassable, haccount, hbefore', hafter'⟩
  rw [hspent] at haccount
  refine (ensures_verifyCandidate ht ho hpassable (hbefore'.trans hbefore)
    (hafter'.trans hafter)).bind ?_
  rintro p k ⟨⟨o, h⟩, hbudget⟩
  rw [haccount] at hbudget
  exact ensures_reviewCandidate h hbudget

/-- **How every run ends**: within the limits, and with a cycle that is clean if it is ready. -/
theorem run_concluded (coordinator : ReviewCoordinator) (request : CoordinationRequest)
    (parties : Parties) :
    Concluded coordinator request parties (coordinator.run request parties).1
      ((watch coordinator.policy request.limits request.spent).state
        (coordinator.run request parties).2) := by
  have hstart : Lawful request.limits
      ((watch coordinator.policy request.limits request.spent).state []) :=
    ⟨Nat.zero_le _, Nat.zero_le _, trivial⟩
  have hcoordinate : Ensures coordinator request parties (coordinate coordinator request) _ _ :=
    ensures_coordinate hstart rfl rfl rfl
  have h := (hcoordinate [] rfl).result
  unfold ReviewCoordinator.run
  rcases hrun : (coordinate coordinator request).run parties [] with ⟨outcome | nothing, t⟩
  · rw [hrun] at h
    obtain ⟨_, ⟨⟩, _⟩ | ⟨_, ⟨⟩, h⟩ := h
    exact h
  · exact nothing.elim

end FamiliarAi
