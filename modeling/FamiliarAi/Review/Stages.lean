import FamiliarAi.Review.Transcript

/-!
# What the stages of a review keep

Every stage of the coordinator is taken through once, with all that the results about runs need: the
cycle accounts for what the parties have used, no action is started without room for it, and the cycle
says of the candidate what was captured, evaluated, checked and reviewed last.

The stages speak of what is known of the run (`Knowledge`), never of its transcript.
-/

namespace FamiliarAi

open Interaction Coordination List

/-! ### The facts -/

section Facts

variable (coordinator : ReviewCoordinator) (request : CoordinationRequest) (parties : Parties)

/-- What the implementer had used before the run. -/
def CoordinationRequest.spent : Account :=
  request.implementationUsage.account request.implementationDurationMs

/-- The limits were kept. -/
structure Lawful (limits : WorkflowLimits) (k : Knowledge) : Prop where
  reviews_le : k.reviews ≤ limits.maxReviewAttempts
  remediations_le : k.remediations ≤ limits.maxRemediationAttempts
  reserved : k.reserved

/-- The cycle goes on, and it accounts for everything but what is due. -/
structure Tracks (cycle : ReviewCycle) (due : Account) (reviews remediations : ℕ)
    (k : Knowledge) : Prop extends Lawful request.limits k where
  cycleId : cycle.cycleId = request.cycleId
  taskId : cycle.taskId = request.task.taskId
  repositoryKey : cycle.repositoryKey = request.repositoryKey
  disposition : cycle.disposition = .pending
  stopReasons : cycle.stopReasons = []
  account : k.account = cycle.account + due
  reviewed : k.reviews = reviews
  remediated : k.remediations = remediations
  unreviewed : reviews = 0 → cycle.reviewResult = none

/-- The candidate was captured last, and evidence on its scope was collected. -/
structure Captures (o : Observation) (k : Knowledge) : Prop where
  captured : k.captured = some o.captured
  evidence : k.scopeEvidence = some (o.captured.changedFiles, o.captured.bytes, o.evidence)

/-- The cycle records the evaluation of the candidate that was captured last. -/
structure Observed (cycle : ReviewCycle) (o : Observation) (k : Knowledge) : Prop
    extends Captures o k where
  recorded : ∃ phase,
    cycle.scopeEvaluations.getLast? = some (o.scopeCheck request.scopePolicy phase) ∧
      cycle.tierSelection = some (selectReviewTier request.tierPolicy request.declaredRiskClasses
        o.captured.changedFiles o.captured.diff.byteSize (o.scopeCheck request.scopePolicy phase))

/-- The scope of the candidate lets the cycle go on. -/
def Passable (o : Observation) : Prop :=
  (o.evaluation request.scopePolicy).disposition = .contained ∨
    humanReviewAbsorbed coordinator.sha256 (o.evaluation request.scopePolicy)
      request.approvedScopeFindings

def Answers (captured : CapturedDiff) (check : VerificationCheck)
    (evidence : VerificationEvidence) : Prop :=
  ∃ t, parties t (.verify check captured.diff.contentHash) = .ok evidence

def Saved (artifact : Artifact) (reference : EvidenceRef) : Prop :=
  ∃ t, parties t (.saveArtifact artifact) = .ok reference

/-- The evidence is about the candidate, covers what is required, and none of it is failing. -/
structure Verified (captured : CapturedDiff) (verification : List VerificationEvidence) : Prop where
  answered : ∀ e ∈ verification,
    ∃ check ∈ request.verificationPlan.checks, Answers parties captured check e
  covers : ∀ check ∈ request.verificationPlan.checks, check.required = true →
    ∃ e ∈ verification, Answers parties captured check e
  passing : failing verification = []

def ReviewCycle.verificationFor (cycle : ReviewCycle) (remediations : ℕ) :
    List VerificationEvidence :=
  if remediations = 0 then cycle.verificationBeforeReview else cycle.verificationAfterRemediation

/-- A run stands at a candidate that was verified. -/
structure Stands (p : Progress) (o : Observation) (reviews : ℕ) (k : Knowledge) : Prop where
  tracks : Tracks request p.cycle 0 reviews p.remediations k
  observed : Observed request p.cycle o k
  passable : Passable coordinator request o
  captured : p.captured = o.captured
  verified : Verified request parties p.captured (p.cycle.verificationFor p.remediations)
  fresh : p.remediations = 0 → p.cycle.verificationAfterRemediation = []

/-- The cycle holds a valid review of the candidate. -/
structure Reviewed (cycle : ReviewCycle) (captured : CapturedDiff)
    (verification : List VerificationEvidence) (package : ReviewRequest) (result : ReviewResult)
    (k : Knowledge) : Prop where
  last : k.review = some (package, result)
  built : ∃ input : ReviewPackageInput, buildReviewRequest coordinator.sha256 input = .ok package ∧
    input.captured = captured ∧ input.task = request.task ∧ input.verification = verification
  validated : ∃ raw, coordinator.policy.applyAndValidate package raw = .ok result
  reviewRequest : ∃ reference, cycle.reviewRequest = some reference ∧
    Saved parties (.reviewRequest package) reference
  reviewResult : cycle.reviewResult = some result

def Cleared (cycle : ReviewCycle) (result : ReviewResult) : Prop :=
  ∀ f ∈ result.findings, f.Actionable →
    ScopeClaimAdjudicated (adjudicatedPaths coordinator.sha256 request cycle) f

/-- How a candidate comes to be ready: its tier asks for checks only, or it was reviewed. -/
inductive Judged (cycle : ReviewCycle) (captured : CapturedDiff)
    (verification : List VerificationEvidence) (k : Knowledge) : Prop
  | checksOnly (htier : cycle.tierSelection.map (·.tier) = some .checksOnly)
      (hreviews : k.reviews = 0) (hresult : cycle.reviewResult = none)
      (hbudget : request.spent.WithinCeilings request.limits ∨
        request.verificationPlan.checks ≠ [] → cycle.account.WithinCeilings request.limits)
  | reviewed (package : ReviewRequest) (result : ReviewResult)
      (hreview : Reviewed coordinator request parties cycle captured verification package result k)
      (hcleared : Cleared coordinator request cycle result)
      (hbudget : cycle.account.WithinCeilings request.limits)

/-- The cycle is finished with a clean review of the candidate. -/
structure Clean (cycle : ReviewCycle) (o : Observation) (k : Knowledge) : Prop where
  cycleId : cycle.cycleId = request.cycleId
  taskId : cycle.taskId = request.task.taskId
  repositoryKey : cycle.repositoryKey = request.repositoryKey
  state : cycle.state = .completed
  disposition : cycle.disposition = .readyForHumanApproval
  stopReasons : cycle.stopReasons = [.cleanReview]
  account : k.account = cycle.account
  observed : Observed request cycle o k
  passable : Passable coordinator request o
  verified : Verified request parties o.captured (cycle.verificationFor k.remediations)
  fresh : k.remediations = 0 → cycle.verificationAfterRemediation = []
  judged : Judged coordinator request parties cycle o.captured
    (cycle.verificationFor k.remediations) k

/-- **How a run ends.** The limits were kept, and a cycle that is ready is clean. -/
def Concluded (outcome : Outcome) (k : Knowledge) : Prop :=
  Lawful request.limits k ∧ ∀ cycle, outcome = .ok cycle →
    (cycle.disposition ≠ .readyForHumanApproval ∧ .cleanReview ∉ cycle.stopReasons) ∨
      ∃ o, Clean coordinator request parties cycle o k

/-- The stage, started when `k` is known, ends with `Q`, or the run ends as it should. -/
abbrev Ensures {α : Type} (m : Coordination α) (k : Knowledge) (Q : α → Knowledge → Prop) : Prop :=
  (watch coordinator.policy request.limits request.spent).Ensures parties
    (Concluded coordinator request parties) m k Q

end Facts

variable {coordinator : ReviewCoordinator} {request : CoordinationRequest} {parties : Parties}
  {α : Type} {cycle cycle' : ReviewCycle} {due : Account} {reviews remediations : ℕ}
  {o : Observation} {k : Knowledge} {captured : CapturedDiff} {reason : ReviewStopReason}
  {Q : α → Knowledge → Prop} {limits : WorkflowLimits} {failures : List VerificationEvidence}
  {checks : List VerificationCheck} {check : VerificationCheck} {maximum used reserved : Option ℕ}
  {action : Action} {duration : ℕ} {phase : VerificationPhase} {count : ℕ} {usage : ExecutionUsage}
  {e : CoordinatorError}

theorem ensures_ask {op : CoordinatorOp} {Q : op.Answer → Knowledge → Prop}
    (hQ : ∀ answer, (∃ t, parties t op = answer) →
      Q answer (k.step coordinator.policy request.limits ⟨op, answer⟩)) :
    Ensures coordinator request parties (ask op) k Q :=
  Monitor.ensures_perform hQ

theorem ensures_silent (op : CoordinatorOp) {Q : op.Answer → Knowledge → Prop} (hop : op.Silent)
    (hQ : ∀ answer, (∃ t, parties t op = answer) → Q answer k) :
    Ensures coordinator request parties (ask op) k Q :=
  ensures_ask fun answer h ↦ by
    rw [Knowledge.step_silent hop]
    exact hQ answer h

theorem ensures_error (hk : Lawful request.limits k) :
    Ensures coordinator request parties (leave (.error e)) k Q :=
  Monitor.ensures_exit ⟨hk, fun _ h ↦ by cases h⟩

theorem ensures_saveCycle (hk : Lawful request.limits k) :
    Ensures coordinator request parties (saveCycle cycle) k (fun _ k' ↦ k' = k) := by
  unfold saveCycle
  refine (ensures_silent (.saveCycle cycle) (Q := fun _ k' ↦ k' = k) trivial fun _ _ ↦ rfl).bind ?_
  rintro (message | _) k' rfl
  · exact ensures_error hk
  · exact Monitor.ensures_pure rfl

theorem ensures_saveArtifact {artifact : Artifact} {wrap : String → CoordinatorError}
    (hk : Lawful request.limits k) :
    Ensures coordinator request parties (saveArtifact artifact wrap) k
      (fun reference k' ↦ k' = k ∧ Saved parties artifact reference) := by
  unfold saveArtifact
  refine (ensures_silent (.saveArtifact artifact) (Q := fun answer k' ↦
    k' = k ∧ ∃ t, parties t (.saveArtifact artifact) = answer) trivial fun _ h ↦ ⟨rfl, h⟩).bind ?_
  rintro (message | reference) k' ⟨rfl, h⟩
  · exact ensures_error hk
  · exact Monitor.ensures_pure ⟨rfl, h⟩

theorem ensures_stopped
    (h : ∀ endedAt, Concluded coordinator request parties (.ok (cycle.stopped reason endedAt)) k) :
    Ensures coordinator request parties (stop cycle reason) k Q := by
  unfold stop
  refine (ensures_silent .now (Q := fun _ k' ↦ k' = k) trivial fun _ _ ↦ rfl).bind ?_
  rintro endedAt k' rfl
  refine (ensures_saveCycle (h endedAt).1).bind ?_
  rintro _ k' rfl
  exact Monitor.ensures_exit (h endedAt)

/-- **A cycle that stops for another reason than a clean review is not ready.** -/
theorem ensures_stop (hk : Lawful request.limits k) (hcycle : cycle.stopReasons = [])
    (hreason : reason ≠ .cleanReview) :
    Ensures coordinator request parties (stop cycle reason) k Q := by
  refine ensures_stopped fun endedAt ↦ ⟨hk, ?_⟩
  rintro _ ⟨⟩
  left
  constructor
  · show (if reason ≠ .cleanReview then ReviewDisposition.humanReviewRequired else _) ≠ _
    rw [if_pos hreason]
    decide
  · show .cleanReview ∉ cycle.stopReasons ++ [reason]
    rw [hcycle, nil_append, mem_singleton]
    exact hreason.symm

theorem ensures_stopWithDetail {detail : String} (hk : Lawful request.limits k)
    (hcycle : cycle.stopReasons = []) (hreason : reason ≠ .cleanReview) :
    Ensures coordinator request parties (stopWithDetail cycle reason detail) k Q := by
  unfold stopWithDetail
  refine ensures_stop hk ?_ hreason
  split
  · exact hcycle
  · exact hcycle

theorem reserveAmount_eq_ok {unknown : CoordinatorError}
    (h : reserveAmount maximum used reserved unknown reason = .ok ()) :
    LeavesRoom maximum used reserved := by
  unfold reserveAmount at h
  split at h
  · rintro m ⟨⟩
  · rename_i maximum
    split at h
    · rename_i used reserved
      split at h
      · rename_i total htotal
        obtain ⟨rfl, -⟩ := checkedAdd_eq_some htotal
        split_ifs at h with hle
        rintro m ⟨⟩
        exact ⟨used, rfl, reserved, rfl, Nat.not_lt.1 hle⟩
      · cases h
    · cases h

theorem reserveAmount_eq_error {unknown e : CoordinatorError}
    (h : reserveAmount maximum used reserved unknown reason = .error e) :
    e = unknown ∨ e = .limit reason ∨ e = .accountingOverflow := by
  unfold reserveAmount at h
  split at h
  · cases h
  · split at h
    · split at h
      · split_ifs at h
        cases h
        exact .inr (.inl rfl)
      · cases h
        exact .inr (.inr rfl)
    · cases h
      exact .inl rfl

/-- **An action starts only when its reservation is within every ceiling.** -/
theorem reserve_eq_ok (h : reserve limits cycle action = .ok ()) :
    Affordable limits cycle.account action := by
  unfold reserve at h
  obtain ⟨_, htokens, h⟩ := Except.bind_eq_ok.1 h
  obtain ⟨_, hcost, h⟩ := Except.bind_eq_ok.1 h
  exact ⟨reserveAmount_eq_ok htokens, reserveAmount_eq_ok hcost, reserveAmount_eq_ok h⟩

theorem limitReason_reserve (h : reserve limits cycle action = .error e) :
    limitReason e ≠ .cleanReview := by
  unfold reserve at h
  rcases Except.bind_eq_error.1 h with h | ⟨_, _, h⟩
  · rcases reserveAmount_eq_error h with rfl | rfl | rfl <;> decide
  rcases Except.bind_eq_error.1 h with h | ⟨_, _, h⟩
  · rcases reserveAmount_eq_error h with rfl | rfl | rfl <;> decide
  rcases reserveAmount_eq_error h with rfl | rfl | rfl <;> decide

theorem ensures_reserveOrStop (ht : Tracks request cycle 0 reviews remediations k) :
    Ensures coordinator request parties (reserveOrStop request.limits cycle action) k
      (fun _ k' ↦ k' = k ∧ Affordable request.limits k.account action) := by
  unfold reserveOrStop
  split
  · rename_i h
    refine Monitor.ensures_pure ⟨rfl, ?_⟩
    rw [ht.account, Account.add_zero]
    exact reserve_eq_ok h
  · rename_i h
    exact ensures_stop ht.toLawful ht.stopReasons (limitReason_reserve h)

/-! ### Accounting -/

namespace Tracks

theorem step (ht : Tracks request cycle 0 reviews remediations k) (event : CoordinatorEvent)
    (hlawful : Lawful request.limits (k.step coordinator.policy request.limits event)) :
    Tracks request cycle (spent coordinator.policy event)
      (reviews + if event.op.action? = some .review then 1 else 0)
      (remediations + if event.op.action? = some .remediation then 1 else 0)
      (k.step coordinator.policy request.limits event) :=
  { ht with
    toLawful := hlawful
    account := by
      show k.account + _ = cycle.account + _
      rw [ht.account, Account.add_zero]
    reviewed := by rw [← ht.reviewed]; rfl
    remediated := by rw [← ht.remediated]; rfl
    unreviewed := fun hnone ↦ ht.unreviewed (Nat.eq_zero_of_add_eq_zero_right hnone) }

theorem elapsed (ht : Tracks request cycle due reviews remediations k) (elapsed : ℕ) :
    Tracks request cycle (due + .time (min elapsed maxU64)) reviews remediations
      (k.step coordinator.policy request.limits ⟨.elapsed, elapsed⟩) := by
  rw [Knowledge.step_elapsed]
  exact
    { ht with
      account := by
        show k.account + _ = _
        rw [ht.account, Account.add_assoc] }

end Tracks

/-- Nothing was captured between. -/
def SameCandidate (k k' : Knowledge) : Prop :=
  k'.captured = k.captured ∧ k'.scopeEvidence = k.scopeEvidence

theorem Observed.sameCandidate {k' : Knowledge} (ho : Observed request cycle o k)
    (hsame : SameCandidate k k') : Observed request cycle o k' :=
  { captured := hsame.1.trans ho.captured
    evidence := hsame.2.trans ho.evidence
    recorded := ho.recorded }

theorem ensures_verify {identity : String} (ht : Tracks request cycle 0 reviews remediations k)
    (hroom : Affordable request.limits k.account .verification) :
    Ensures coordinator request parties (ask (.verify check identity)) k fun answer k' ↦
      (∃ t, parties t (.verify check identity) = answer) ∧ SameCandidate k k' ∧
        Tracks request cycle (spent coordinator.policy ⟨.verify check identity, answer⟩) reviews
          remediations k' := by
  refine ensures_ask fun answer hanswer ↦ ⟨hanswer, by rw [Knowledge.step_verify]; exact ⟨rfl, rfl⟩,
    ht.step ⟨.verify check identity, answer⟩ ⟨ht.reviews_le, ht.remediations_le, ?_, ht.reserved⟩⟩
  rintro _ ⟨⟩
  exact hroom

theorem ensures_askRemediation {remediation : RemediationRequest}
    (ht : Tracks request cycle 0 reviews remediations k)
    (hroom : Affordable request.limits k.account .remediation)
    (hcount : remediations < request.limits.maxRemediationAttempts) :
    Ensures coordinator request parties (ask (.remediate remediation)) k fun answer k' ↦
      Tracks request cycle (spent coordinator.policy ⟨.remediate remediation, answer⟩) reviews
        (remediations + 1) k' := by
  rw [← ht.remediated] at hcount
  refine ensures_ask fun answer _ ↦
    ht.step ⟨.remediate remediation, answer⟩ ⟨ht.reviews_le, hcount, ?_, ht.reserved⟩
  rintro _ ⟨⟩
  exact hroom

theorem ensures_askReview {reviewer : ReviewerKind} {package : ReviewRequest}
    (ht : Tracks request cycle 0 reviews remediations k)
    (hroom : Affordable request.limits k.account .review)
    (hcount : reviews < request.limits.maxReviewAttempts) :
    Ensures coordinator request parties (ask (.review reviewer package)) k fun answer k' ↦
      SameCandidate k k' ∧
        k'.review = (validatedReview? coordinator.policy ⟨.review reviewer package, answer⟩).or
          k.review ∧
        Tracks request cycle (spent coordinator.policy ⟨.review reviewer package, answer⟩)
          (reviews + 1) remediations k' := by
  rw [← ht.reviewed] at hcount
  refine ensures_ask fun answer _ ↦ ⟨by rw [Knowledge.step_review]; exact ⟨rfl, rfl⟩, rfl,
    ht.step ⟨.review reviewer package, answer⟩ ⟨hcount, ht.remediations_le, ?_, ht.reserved⟩⟩
  rintro _ ⟨⟩
  exact hroom

theorem addAmounts_eq_some {a b c : Option ℕ} (h : addAmounts a b = some c) :
    c = Option.map₂ (· + ·) a b := by
  cases a <;> cases b <;> simp only [addAmounts, Option.some.injEq] at h
  case some.some a b =>
    obtain ⟨total, htotal, rfl⟩ := Option.map_eq_some_iff.1 h
    rw [(checkedAdd_eq_some htotal).1]
    rfl
  all_goals
    subst h
    rfl

theorem ExecutionUsage.account_checkedAdd {usage other total : ExecutionUsage} (d e : ℕ)
    (h : usage.checkedAdd other = some total) :
    total.account d + .time e = usage.account d + other.account e := by
  unfold checkedAdd at h
  simp only [Option.bind_eq_bind, Option.bind_eq_some_iff, Option.some.injEq] at h
  obtain ⟨_, _, _, _, _, _, tokens, htokens, cost, hcost, rfl⟩ := h
  ext1
  · exact (Account.amount_add_zero tokens).trans (addAmounts_eq_some htokens)
  · exact (Account.amount_add_zero cost).trans (addAmounts_eq_some hcost)
  · rfl

theorem ReviewCycle.account_addDuration (cycle : ReviewCycle) (d : ℕ) :
    ({ cycle with aggregateDurationMs := cycle.aggregateDurationMs + d } : ReviewCycle).account =
      cycle.account + .time d := by
  ext1
  · exact (Account.amount_add_zero _).symm
  · exact (Account.amount_add_zero _).symm
  · rfl

theorem ensures_addUsage (ht : Tracks request cycle (usage.account duration) reviews remediations k)
    :
    Ensures coordinator request parties (addUsage cycle usage) k fun cycle' k' ↦
      k' = k ∧ Tracks request cycle' (.time duration) reviews remediations k ∧
        ∃ u, cycle' = { cycle with aggregateUsage := u } := by
  unfold addUsage
  split
  · rename_i u hu
    refine Monitor.ensures_pure ⟨rfl, { ht with account := ?_ }, u, rfl⟩
    rw [ht.account]
    exact (ExecutionUsage.account_checkedAdd _ _ hu).symm
  · exact ensures_stop ht.toLawful ht.stopReasons (by decide)

theorem ensures_addDuration (ht : Tracks request cycle (.time duration) reviews remediations k) :
    Ensures coordinator request parties (addDuration cycle duration) k fun cycle' k' ↦
      k' = k ∧ Tracks request cycle' 0 reviews remediations k ∧
        ∃ d, cycle' = { cycle with aggregateDurationMs := d } := by
  unfold addDuration
  split
  · rename_i d hd
    obtain ⟨rfl, -⟩ := checkedAdd_eq_some hd
    refine Monitor.ensures_pure ⟨rfl, { ht with account := ?_ }, _, rfl⟩
    rw [ht.account, Account.add_zero, ReviewCycle.account_addDuration]
  · exact ensures_stop ht.toLawful ht.stopReasons (by decide)

/-- **What is due is charged to the cycle.** -/
theorem ensures_charge (ht : Tracks request cycle (usage.account duration) reviews remediations k) :
    Ensures coordinator request parties (charge cycle usage duration) k fun cycle' k' ↦
      k' = k ∧ Tracks request cycle' 0 reviews remediations k ∧
        ∃ u d, cycle' = { cycle with aggregateUsage := u, aggregateDurationMs := d } := by
  unfold charge
  refine (ensures_addUsage ht).bind ?_
  rintro _ k ⟨rfl, ht, u, rfl⟩
  refine (ensures_addDuration ht).imp ?_
  rintro _ k ⟨rfl, ht, d, rfl⟩
  exact ⟨rfl, ht, u, d, rfl⟩

theorem budgetViolation_eq_none (h : budgetViolation limits cycle = none) :
    cycle.account.WithinCeilings limits := by
  unfold budgetViolation at h
  split_ifs at h with htokens hcost hduration
  exact ⟨htokens, hcost, hduration⟩

theorem budgetViolation_ne (h : budgetViolation limits cycle = some reason) :
    reason ≠ .cleanReview := by
  unfold budgetViolation at h
  split_ifs at h <;> cases h <;> decide

/-- **After a budget check the cycle is within the ceilings.** -/
theorem ensures_checkBudget (ht : Tracks request cycle due reviews remediations k) :
    Ensures coordinator request parties (checkBudget request.limits cycle) k
      (fun _ k' ↦ k' = k ∧ cycle.account.WithinCeilings request.limits) := by
  unfold checkBudget
  split
  · rename_i h
    exact ensures_stop ht.toLawful ht.stopReasons (budgetViolation_ne h)
  · rename_i h
    exact Monitor.ensures_pure ⟨rfl, budgetViolation_eq_none h⟩

/-- **The candidate that is captured is the last one.** -/
theorem ensures_captureScope (ht : Tracks request cycle 0 reviews remediations k) :
    Ensures coordinator request parties (captureScope request cycle) k
      (fun o k' ↦ Captures o k' ∧ Tracks request cycle 0 reviews remediations k') := by
  unfold captureScope
  refine Monitor.Ensures.bind (ensures_ask (Q := fun answer k' ↦
    k' = k.step coordinator.policy request.limits ⟨.capture request.task.baseRevision, answer⟩)
    fun _ _ ↦ rfl) ?_
  rintro (message | captured) k' rfl
  · rw [Knowledge.step_capture_error]
    exact ensures_stop ht.toLawful ht.stopReasons (by decide)
  rw [Knowledge.step_capture_ok]
  refine Monitor.Ensures.bind (ensures_ask (Q := fun answer k' ↦
    k' = ({ k with captured := some captured } : Knowledge).step coordinator.policy request.limits
      ⟨.collectScopeEvidence captured.changedFiles captured.bytes, answer⟩) fun _ _ ↦ rfl) ?_
  rintro (message | evidence) k' rfl
  · rw [Knowledge.step_collect_error]
    exact ensures_stop { ht.toLawful with } ht.stopReasons (by decide)
  · rw [Knowledge.step_collect_ok]
    exact Monitor.ensures_pure ⟨⟨rfl, rfl⟩, { ht with }⟩

theorem Captures.observed (ho : Captures o k) (phase : String) :
    Observed request (cycle.observed request o phase) o k :=
  { ho with recorded := ⟨phase, getLast?_concat, rfl⟩ }

theorem Tracks.observed (ht : Tracks request cycle due reviews remediations k) (phase : String) :
    Tracks request (cycle.observed request o phase) due reviews remediations k :=
  { ht with }

/-- **The cycle goes on only when the scope of the candidate lets it.** -/
theorem ensures_requireScope (ht : Tracks request cycle due reviews remediations k) :
    Ensures coordinator request parties
      (requireScope coordinator.sha256 request cycle (o.evaluation request.scopePolicy)) k
      (fun _ k' ↦ k' = k ∧ Passable coordinator request o) := by
  unfold requireScope
  split
  · rename_i h
    exact Monitor.ensures_pure ⟨rfl, .inl h⟩
  · split_ifs with h
    · exact Monitor.ensures_pure ⟨rfl, .inr h⟩
    · exact ensures_stop ht.toLawful ht.stopReasons (by decide)
  · split_ifs with h
    · exact Monitor.ensures_pure ⟨rfl, .inr h⟩
    · exact ensures_stop ht.toLawful ht.stopReasons (by decide)

def ReviewCycle.verificationIn (cycle : ReviewCycle) : VerificationPhase →
    List VerificationEvidence
  | .beforeReview => cycle.verificationBeforeReview
  | .afterRemediation => cycle.verificationAfterRemediation

/-- What the checks that were run come to: their answers in order, and a cycle within the ceilings. -/
structure Checked (request : CoordinationRequest) (parties : Parties) (cycle : ReviewCycle)
    (captured : CapturedDiff) (phase : VerificationPhase) (reviews remediations : ℕ)
    (o : Observation) (checks : List VerificationCheck) (cycle' : ReviewCycle)
    (k : Knowledge) : Prop where
  tracks : Tracks request cycle' 0 reviews remediations k
  observed : Observed request cycle' o k
  answers : Forall₂ (Answers parties captured) checks (cycle'.verificationIn phase)
  after : phase = .beforeReview →
    cycle'.verificationAfterRemediation = cycle.verificationAfterRemediation
  budget : cycle.account.WithinCeilings request.limits ∨ checks ≠ [] →
    cycle'.account.WithinCeilings request.limits

theorem ensures_runCheck {cycle₀ : ReviewCycle}
    (h : Checked request parties cycle₀ captured phase reviews remediations o checks cycle k) :
    Ensures coordinator request parties (runCheck request.limits phase captured cycle check) k
      (Checked request parties cycle₀ captured phase reviews remediations o (checks ++ [check])) := by
  unfold runCheck
  refine (ensures_reserveOrStop h.tracks).bind ?_
  rintro _ k ⟨rfl, hroom⟩
  refine Monitor.Ensures.bind (ensures_verify h.tracks hroom) ?_
  rintro (message | evidence) k' ⟨hanswer, hsame, ht⟩
  · exact ensures_stopWithDetail ht.toLawful ht.stopReasons (by decide)
  have ht' : Tracks request (cycle.record phase evidence) (.time evidence.durationMs) reviews
      remediations k' := by
    cases phase <;> exact { ht with }
  refine (ensures_addDuration ht').bind ?_
  rintro _ k' ⟨rfl, ht', d, rfl⟩
  refine (ensures_checkBudget ht').bind ?_
  rintro _ k' ⟨rfl, hbudget⟩
  refine Monitor.ensures_pure ⟨ht', ?_, ?_, ?_, fun _ ↦ hbudget⟩
  · have ho := h.observed.sameCandidate hsame
    cases phase <;> exact { ho with }
  · have hforall := rel_append h.answers (.cons hanswer .nil)
    cases phase <;> exact hforall
  · rintro rfl
    exact h.after rfl

theorem ensures_runChecks (ht : Tracks request cycle 0 reviews remediations k)
    (ho : Observed request cycle o k) (hempty : cycle.verificationIn phase = []) :
    Ensures coordinator request parties (runChecks request.limits phase captured checks cycle) k
      (Checked request parties cycle captured phase reviews remediations o checks) := by
  have hnil : Checked request parties cycle captured phase reviews remediations o [] cycle k :=
    { tracks := ht
      observed := ho
      answers := by rw [hempty]; exact .nil
      after := fun _ ↦ rfl
      budget := fun h ↦ h.resolve_right fun hne ↦ hne rfl }
  exact Monitor.Ensures.foldlM hnil fun _ _ _ _ _ h ↦ ensures_runCheck h

theorem exists_mem_of_forall₂ {β : Type} {R : α → β → Prop} {as : List α} {bs : List β}
    (h : Forall₂ R as bs) : (∀ a ∈ as, ∃ b ∈ bs, R a b) ∧ ∀ b ∈ bs, ∃ a ∈ as, R a b := by
  induction h with
  | nil => exact ⟨nofun, nofun⟩
  | cons hab _ ih =>
    refine ⟨?_, ?_⟩
    · rintro a (_ | ⟨_, ha⟩)
      · exact ⟨_, mem_cons_self, hab⟩
      · obtain ⟨b, hb, h⟩ := ih.1 a ha
        exact ⟨b, mem_cons_of_mem _ hb, h⟩
    · rintro b (_ | ⟨_, hb⟩)
      · exact ⟨_, mem_cons_self, hab⟩
      · obtain ⟨a, ha, h⟩ := ih.2 b hb
        exact ⟨a, mem_cons_of_mem _ ha, h⟩

theorem Verified.of_answers {verification : List VerificationEvidence}
    (h : Forall₂ (Answers parties captured) checks verification)
    (hsub : ∀ check ∈ checks, check ∈ request.verificationPlan.checks)
    (hrequired : ∀ check ∈ request.verificationPlan.checks, check.required = true → check ∈ checks)
    (hpassing : failing verification = []) : Verified request parties captured verification where
  answered e he :=
    let ⟨check, hcheck, hanswer⟩ := (exists_mem_of_forall₂ h).2 e he
    ⟨check, hsub check hcheck, hanswer⟩
  covers check hcheck hreq := (exists_mem_of_forall₂ h).1 check (hrequired check hcheck hreq)
  passing := hpassing

/-- **The checks that are run again are all that are required.** -/
theorem mem_relevantChecks {plan : VerificationPlan} {changed cited unsuccessful : List String}
    (hcheck : check ∈ plan.checks) (hrequired : check.required = true) :
    check ∈ relevantChecks plan changed cited unsuccessful := by
  refine mem_filter.2 ⟨hcheck, ?_⟩
  rw [hrequired, Bool.or_true]
  simp only [Bool.true_or]

theorem ensures_reverify {cited unsuccessful : List String}
    (ht : Tracks request cycle 0 reviews remediations k) (ho : Observed request cycle o k)
    (hbudget : cycle.account.WithinCeilings request.limits) :
    Ensures coordinator request parties (reverify request captured cited unsuccessful cycle) k
      fun cycle' k' ↦ Tracks request cycle' 0 reviews remediations k' ∧
        Observed request cycle' o k' ∧ cycle'.account.WithinCeilings request.limits ∧
        (failing cycle'.verificationAfterRemediation = [] →
          Verified request parties captured cycle'.verificationAfterRemediation) := by
  unfold reverify
  have ht' : Tracks request { cycle with state := .reverifying, verificationAfterRemediation := [] }
      0 reviews remediations k := { ht with }
  refine (ensures_runChecks ht' { ho with } rfl).imp fun cycle' k' h ↦ ?_
  refine ⟨h.tracks, h.observed, h.budget (.inl hbudget), fun hpassing ↦ ?_⟩
  exact .of_answers h.answers (fun check hcheck ↦ (mem_filter.1 hcheck).1)
    (fun _ hcheck hrequired ↦ mem_relevantChecks hcheck hrequired) hpassing

/-! ### Remediation -/

theorem ExecutionUsage.account_add_time (usage : ExecutionUsage) (d : ℕ) :
    usage.account 0 + .time d = usage.account d := by
  ext1
  · exact Account.amount_add_zero _
  · exact Account.amount_add_zero _
  · exact Nat.zero_add d

theorem ensures_failedStage {stageId startedAt message : String} {kind : StageKind}
    (ht : Tracks request cycle due reviews remediations k) :
    Ensures coordinator request parties (failedStage stageId kind startedAt message) k
      fun stage k' ↦ Tracks request cycle (due + .time stage.durationMs) reviews remediations k' ∧
        SameCandidate k k' ∧ stage.usage.account 0 = ⟨none, none, 0⟩ := by
  unfold failedStage
  refine Monitor.Ensures.bind (ensures_silent .now (Q := fun _ k' ↦ k' = k) trivial
    fun _ _ ↦ rfl) ?_
  rintro endedAt k rfl
  refine Monitor.Ensures.bind (ensures_ask (Q := fun elapsed k' ↦
    k' = k.step coordinator.policy request.limits ⟨.elapsed, elapsed⟩) fun _ _ ↦ rfl) ?_
  rintro elapsed _ rfl
  refine Monitor.ensures_pure ⟨ht.elapsed elapsed, ?_⟩
  rw [Knowledge.step_elapsed]
  exact ⟨⟨rfl, rfl⟩, rfl⟩

def remediationDue (result : Option RemediationResult) : Account :=
  result.elim 0 fun result ↦ result.usage.account result.durationMs

/-- **A remediation is one more, and it was started within the ceilings.** -/
theorem ensures_remediate {blocking : List ReviewFinding}
    (ht : Tracks request cycle 0 reviews remediations k)
    (hcount : remediations < request.limits.maxRemediationAttempts) :
    Ensures coordinator request parties (remediate request count captured blocking failures cycle) k
      fun p k' ↦ Tracks request p.1 (remediationDue p.2) reviews (remediations + 1) k' := by
  unfold remediate
  refine (ensures_reserveOrStop ht).bind ?_
  rintro _ k ⟨rfl, hroom⟩
  refine (ensures_saveArtifact ht.toLawful).bind ?_
  rintro reference k ⟨rfl, -⟩
  refine (ensures_saveCycle ht.toLawful).bind ?_
  rintro _ k rfl
  refine Monitor.Ensures.bind (ensures_silent .now (Q := fun _ k' ↦ k' = k) trivial
    fun _ _ ↦ rfl) ?_
  rintro started k rfl
  have ht : Tracks request
      { cycle with state := .remediating, remediationRequest := some reference } 0 reviews
      remediations k := { ht with }
  refine Monitor.Ensures.bind (ensures_askRemediation ht hroom hcount) ?_
  rintro (message | result) k' ht
  · refine (ensures_failedStage ht).bind ?_
    rintro stage k' ⟨ht, -, husage⟩
    rw [show spent coordinator.policy ⟨.remediate _, .error message⟩ = stage.usage.account 0 from
      husage.symm, ExecutionUsage.account_add_time] at ht
    refine Monitor.Ensures.bind (ensures_charge ht) ?_
    rintro _ k ⟨rfl, ht, u, d, rfl⟩
    have ht : Tracks request _ 0 reviews (remediations + 1) k := { ht with }
    refine (ensures_saveCycle ht.toLawful).bind ?_
    rintro _ k rfl
    split
    · exact ensures_stop ht.toLawful ht.stopReasons (by decide)
    · exact Monitor.ensures_pure { ht with }
  · refine (ensures_saveArtifact ht.toLawful).bind ?_
    rintro artifact k' ⟨rfl, -⟩
    exact Monitor.ensures_pure { ht with }

theorem ensures_recapture {result : RemediationResult}
    (ht : Tracks request cycle (result.usage.account result.durationMs) reviews remediations k) :
    Ensures coordinator request parties (recapture request count result cycle) k fun p k' ↦
      Tracks request p.1 0 reviews remediations k' ∧ Observed request p.1 p.2 k' ∧
        p.1.account.WithinCeilings request.limits := by
  unfold recapture
  refine (ensures_charge ht).bind ?_
  rintro cycle k ⟨rfl, ht, -⟩
  refine (ensures_checkBudget ht).bind ?_
  rintro _ k ⟨rfl, hbudget⟩
  refine (ensures_captureScope ht).bind ?_
  rintro o k' ⟨ho, ht⟩
  exact Monitor.ensures_pure ⟨ht.observed _, ho.observed _, hbudget⟩

def RoundEnds (coordinator : ReviewCoordinator) (request : CoordinationRequest) (parties : Parties)
    (reviews remediations : ℕ) : CheckRound → Knowledge → Prop
  | .again cycle _ _, k => Tracks request cycle 0 reviews remediations k
  | .passed cycle captured, k =>
    cycle.account.WithinCeilings request.limits ∧
      ∃ o, Stands coordinator request parties ⟨cycle, captured, remediations⟩ o reviews k

/-- **One remediation of failing checks.** The checks pass on the candidate that is captured then. -/
theorem ensures_checkRound (ht : Tracks request cycle 0 reviews remediations k)
    (hcount : remediations < request.limits.maxRemediationAttempts) :
    Ensures coordinator request parties
      (checkRound coordinator.sha256 request count cycle captured failures) k
      (RoundEnds coordinator request parties reviews (remediations + 1)) := by
  unfold checkRound
  refine (ensures_remediate ht hcount).bind ?_
  rintro ⟨cycle, _ | result⟩ k ht
  · exact Monitor.ensures_pure ht
  refine (ensures_recapture ht).bind ?_
  rintro ⟨cycle, o⟩ k ⟨ht, ho, hbudget⟩
  have ht : Tracks request (cycle.remediated request count result o) 0 reviews (remediations + 1) k :=
    { ht with }
  have ho : Observed request (cycle.remediated request count result o) o k := { ho with }
  refine (ensures_saveCycle ht.toLawful).bind ?_
  rintro _ k rfl
  refine (ensures_requireScope ht).bind ?_
  rintro _ k ⟨rfl, hpassable⟩
  refine (ensures_reverify ht ho hbudget).bind ?_
  rintro cycle k ⟨ht, ho, hbudget, hverified⟩
  dsimp only
  split
  · exact ensures_stop ht.toLawful ht.stopReasons (by decide)
  split
  · split
    · rename_i hpassing
      exact Monitor.ensures_pure ⟨hbudget, o,
        { tracks := ht
          observed := ho
          passable := hpassable
          captured := rfl
          verified := hverified hpassing
          fresh := nofun }⟩
    · exact Monitor.ensures_pure ht
  · exact ensures_stopWithDetail ht.toLawful ht.stopReasons (by decide)

/-- **The failing checks are remediated until they pass**, or the remediations are used up. -/
theorem ensures_remediateChecks (ht : Tracks request cycle 0 reviews remediations k) :
    Ensures coordinator request parties
      (remediateChecks coordinator.sha256 request remediations cycle captured failures) k
      fun p k' ↦ p.cycle.account.WithinCeilings request.limits ∧
        ∃ o, Stands coordinator request parties p o reviews k' := by
  induction hleft : request.limits.maxRemediationAttempts - remediations
    generalizing remediations cycle captured failures k with
  | zero =>
    unfold remediateChecks
    rw [dif_pos (by omega)]
    exact ensures_stop ht.toLawful ht.stopReasons (by decide)
  | succ left ih =>
    unfold remediateChecks
    rw [dif_neg (by omega)]
    refine (ensures_checkRound ht (by omega)).bind ?_
    rintro (⟨cycle, captured, failures⟩ | ⟨cycle, captured⟩) k h
    · exact ih h (by omega)
    · exact Monitor.ensures_pure h

theorem ensures_openCycle (hk : Lawful request.limits k) (haccount : k.account = request.spent)
    (hreviews : k.reviews = 0) (hremediations : k.remediations = 0) :
    Ensures coordinator request parties (openCycle request) k fun cycle k' ↦
      Tracks request cycle 0 0 0 k' ∧ cycle.account = request.spent ∧
        cycle.verificationBeforeReview = [] ∧ cycle.verificationAfterRemediation = [] := by
  unfold openCycle
  refine Monitor.Ensures.bind (ensures_silent .now (Q := fun _ k' ↦ k' = k) trivial
    fun _ _ ↦ rfl) ?_
  rintro started k rfl
  refine Monitor.Ensures.bind (ensures_silent (.loadCycle _) (Q := fun _ k' ↦ k' = k) trivial
    fun _ _ ↦ rfl) ?_
  rintro earlier k rfl
  refine (ensures_saveArtifact hk).bind ?_
  rintro reference k ⟨rfl, -⟩
  refine (ensures_saveCycle hk).bind ?_
  rintro _ k rfl
  refine Monitor.ensures_pure ⟨?_, rfl, rfl, rfl⟩
  exact
    { toLawful := hk
      cycleId := rfl
      taskId := rfl
      repositoryKey := rfl
      disposition := rfl
      stopReasons := rfl
      account := by rw [haccount, Account.add_zero]; rfl
      reviewed := hreviews
      remediated := hremediations
      unreviewed := fun _ ↦ rfl }

theorem ensures_examine (ht : Tracks request cycle 0 reviews remediations k) :
    Ensures coordinator request parties (examine coordinator request cycle) k fun p k' ↦
      Tracks request p.1 0 reviews remediations k' ∧ Observed request p.1 p.2 k' ∧
        Passable coordinator request p.2 ∧ p.1.account = cycle.account ∧
        p.1.verificationBeforeReview = cycle.verificationBeforeReview ∧
        p.1.verificationAfterRemediation = cycle.verificationAfterRemediation := by
  unfold examine
  refine (ensures_captureScope ht).bind ?_
  rintro o k ⟨ho, ht⟩
  have ht : Tracks request (cycle.observed request o "initial") 0 reviews remediations k :=
    ht.observed _
  have ho : Observed request (cycle.observed request o "initial") o k := ho.observed _
  refine (ensures_saveCycle ht.toLawful).bind ?_
  rintro _ k rfl
  refine (ensures_requireScope ht).bind ?_
  rintro _ k ⟨rfl, hpassable⟩
  refine (ensures_saveCycle ht.toLawful).bind ?_
  rintro _ k rfl
  exact Monitor.ensures_pure ⟨{ ht with }, { ho with }, hpassable, rfl, rfl, rfl⟩

/-- **The checks before the review.** With a check to run the cycle is within the ceilings then. -/
theorem ensures_verifyCandidate (ht : Tracks request cycle 0 reviews 0 k)
    (ho : Observed request cycle o k) (hpassable : Passable coordinator request o)
    (hbefore : cycle.verificationBeforeReview = [])
    (hafter : cycle.verificationAfterRemediation = []) :
    Ensures coordinator request parties (verifyCandidate coordinator request cycle o.captured) k
      fun p k' ↦ (∃ o, Stands coordinator request parties p o reviews k') ∧
        (cycle.account.WithinCeilings request.limits ∨ request.verificationPlan.checks ≠ [] →
          p.cycle.account.WithinCeilings request.limits) := by
  unfold verifyCandidate
  have hbefore : cycle.verificationIn .beforeReview = [] := hbefore
  refine (ensures_runChecks ht ho hbefore).bind fun cycle' k h ↦ ?_
  dsimp only
  split
  · rename_i hpassing
    refine Monitor.ensures_pure ⟨⟨o, ?_⟩, h.budget⟩
    exact
      { tracks := h.tracks
        observed := h.observed
        passable := hpassable
        captured := rfl
        verified := .of_answers h.answers (fun _ hcheck ↦ hcheck) (fun _ hcheck _ ↦ hcheck) hpassing
        fresh := fun _ ↦ (h.after rfl).trans hafter }
  split
  · exact ensures_stop h.tracks.toLawful h.tracks.stopReasons (by decide)
  · exact (ensures_remediateChecks h.tracks).imp fun p k' hp ↦ ⟨hp.2, fun _ ↦ hp.1⟩

end FamiliarAi
