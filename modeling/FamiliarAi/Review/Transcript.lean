import FamiliarAi.Review.Coordinator

/-!
# What a transcript says

The transcript of a run shows which parties were asked and what they answered, whatever the
coordinator wrote into its cycle. From it we read how often the reviewer and the implementer were
asked, what the parties have used up at any time, whether every action was started within the
ceilings, and what was captured and reviewed last.
-/

namespace FamiliarAi

open Interaction

abbrev CoordinatorEvent := Event CoordinatorOp CoordinatorOp.Answer

/-! ### Amounts -/

/-- The amounts that the limits bound. What is not reported is unknown. -/
@[ext]
structure Account where
  tokens : Option ℕ
  cost : Option ℕ
  duration : ℕ

namespace Account

instance : Zero Account := ⟨⟨some 0, some 0, 0⟩⟩

/-- An unknown amount makes the sum unknown. -/
instance : Add Account :=
  ⟨fun a b ↦ ⟨Option.map₂ (· + ·) a.tokens b.tokens, Option.map₂ (· + ·) a.cost b.cost,
    a.duration + b.duration⟩⟩

def time (duration : ℕ) : Account :=
  ⟨some 0, some 0, duration⟩

theorem amount_add_zero (amount : Option ℕ) : Option.map₂ (· + ·) amount (some 0) = amount := by
  cases amount <;> rfl

@[simp]
theorem add_zero (a : Account) : a + 0 = a := by
  ext1
  · exact amount_add_zero a.tokens
  · exact amount_add_zero a.cost
  · rfl

theorem add_assoc (a b c : Account) : a + b + c = a + (b + c) := by
  ext1
  · exact Option.map₂_assoc Nat.add_assoc
  · exact Option.map₂_assoc Nat.add_assoc
  · exact Nat.add_assoc ..

def WithinCeilings (limits : WorkflowLimits) (account : Account) : Prop :=
  Within limits.maxTotalTokens account.tokens ∧
    Within limits.maxTotalCostMicrousd account.cost ∧
    Within limits.maxTotalDurationMs (some account.duration)

instance (limits : WorkflowLimits) : DecidablePred (WithinCeilings limits) :=
  fun _ ↦ inferInstanceAs (Decidable (_ ∧ _ ∧ _))

end Account

/-- The amount and the reservation are known, and together within the ceiling. -/
def LeavesRoom (maximum used reserved : Option ℕ) : Prop :=
  ∀ m ∈ maximum, ∃ u ∈ used, ∃ r ∈ reserved, u + r ≤ m

/-- The reservation of the action is within every finite ceiling. -/
def Affordable (limits : WorkflowLimits) (account : Account) (action : Action) : Prop :=
  LeavesRoom limits.maxTotalTokens account.tokens (limits.tokens action) ∧
    LeavesRoom limits.maxTotalCostMicrousd account.cost limits.actionReservationCostMicrousd ∧
    LeavesRoom limits.maxTotalDurationMs (some account.duration)
      (some limits.actionReservationDurationMs)

def ExecutionUsage.account (usage : ExecutionUsage) (duration : ℕ) : Account :=
  ⟨usage.totalTokens, usage.estimatedCostMicrousd, duration⟩

/-- What the cycle says was used. -/
def ReviewCycle.account (cycle : ReviewCycle) : Account :=
  cycle.aggregateUsage.account cycle.aggregateDurationMs

def CoordinatorOp.action? : CoordinatorOp → Option Action
  | verify .. => some .verification
  | review .. => some .review
  | remediate _ => some .remediation
  | _ => none

/-- What was used, as the answer reports it. A failed agent reports nothing; of its execution, and of
one whose review is not valid, the time is measured. -/
def spent (policy : BlockingPolicy) : CoordinatorEvent → Account
  | ⟨.verify _ _, .ok evidence⟩ => .time evidence.durationMs
  | ⟨.review _ package, .ok raw⟩ =>
    raw.usage.account <| match policy.applyAndValidate package raw with
      | .ok result => result.durationMs
      | .error _ => 0
  | ⟨.review _ _, .error (.agent _)⟩ => ⟨none, none, 0⟩
  | ⟨.remediate _, .ok result⟩ => result.usage.account result.durationMs
  | ⟨.remediate _, .error _⟩ => ⟨none, none, 0⟩
  | ⟨.elapsed, elapsed⟩ => .time (min elapsed maxU64)
  | _ => 0

def captured? : CoordinatorEvent → Option CapturedDiff
  | ⟨.capture _, .ok captured⟩ => some captured
  | _ => none

def scopeEvidence? : CoordinatorEvent → Option (List ChangedFile × List UInt8 × ScopeEvidence)
  | ⟨.collectScopeEvidence files diff, .ok evidence⟩ => some (files, diff, evidence)
  | _ => none

def validatedReview? (policy : BlockingPolicy) :
    CoordinatorEvent → Option (ReviewRequest × ReviewResult)
  | ⟨.review _ package, .ok raw⟩ => (policy.applyAndValidate package raw).toOption.map (package, ·)
  | _ => none

/-- The operation is none of those that a transcript is read for. -/
def CoordinatorOp.Silent : CoordinatorOp → Prop
  | loadCycle _ | saveCycle _ | saveArtifact _ | isolationEvidence _ | now => True
  | _ => False

namespace Transcript

/-- How often an action was started. -/
def asked (action : Action) (t : Transcript) : ℕ :=
  t.countP (·.op.action? = some action)

/-- What was used in all, with what the implementation had used before the run. -/
def account (policy : BlockingPolicy) (initial : Account) : Transcript → Account
  | [] => initial
  | event :: t => account policy initial t + spent policy event

/-- Every action was started within the ceilings. -/
def Reserved (policy : BlockingPolicy) (limits : WorkflowLimits) (initial : Account) :
    Transcript → Prop
  | [] => True
  | event :: t =>
    (∀ action ∈ event.op.action?, Affordable limits (account policy initial t) action) ∧
      Reserved policy limits initial t

def lastCaptured (t : Transcript) : Option CapturedDiff :=
  t.findSome? captured?

def lastScopeEvidence (t : Transcript) : Option (List ChangedFile × List UInt8 × ScopeEvidence) :=
  t.findSome? scopeEvidence?

def lastReview (policy : BlockingPolicy) (t : Transcript) : Option (ReviewRequest × ReviewResult) :=
  t.findSome? (validatedReview? policy)

end Transcript

/-- What is known of a run from its transcript. -/
@[ext]
structure Knowledge where
  reviews : ℕ
  remediations : ℕ
  account : Account
  reserved : Prop
  captured : Option CapturedDiff
  scopeEvidence : Option (List ChangedFile × List UInt8 × ScopeEvidence)
  review : Option (ReviewRequest × ReviewResult)

def Knowledge.step (policy : BlockingPolicy) (limits : WorkflowLimits) (k : Knowledge)
    (event : CoordinatorEvent) : Knowledge where
  reviews := k.reviews + if event.op.action? = some .review then 1 else 0
  remediations := k.remediations + if event.op.action? = some .remediation then 1 else 0
  account := k.account + spent policy event
  reserved := (∀ action ∈ event.op.action?, Affordable limits k.account action) ∧ k.reserved
  captured := (captured? event).or k.captured
  scopeEvidence := (scopeEvidence? event).or k.scopeEvidence
  review := (validatedReview? policy event).or k.review

/-- What the transcript tells is known event by event. -/
def watch (policy : BlockingPolicy) (limits : WorkflowLimits) (initial : Account) :
    Monitor CoordinatorOp CoordinatorOp.Answer Knowledge where
  state t :=
    { reviews := Transcript.asked .review t
      remediations := Transcript.asked .remediation t
      account := Transcript.account policy initial t
      reserved := Transcript.Reserved policy limits initial t
      captured := Transcript.lastCaptured t
      scopeEvidence := Transcript.lastScopeEvidence t
      review := Transcript.lastReview policy t }
  step := Knowledge.step policy limits
  state_cons event t := by
    ext1
    · simp [Knowledge.step, Transcript.asked, List.countP_cons]
    · simp [Knowledge.step, Transcript.asked, List.countP_cons]
    · rfl
    · rfl
    · show (event :: t).findSome? captured? = (captured? event).or (t.findSome? captured?)
      rw [List.findSome?_cons]
      cases captured? event <;> rfl
    · show (event :: t).findSome? scopeEvidence? =
        (scopeEvidence? event).or (t.findSome? scopeEvidence?)
      rw [List.findSome?_cons]
      cases scopeEvidence? event <;> rfl
    · show (event :: t).findSome? (validatedReview? policy) =
        (validatedReview? policy event).or (t.findSome? (validatedReview? policy))
      rw [List.findSome?_cons]
      cases validatedReview? policy event <;> rfl

section Steps

variable {policy : BlockingPolicy} {limits : WorkflowLimits} {k : Knowledge}
  {files : List ChangedFile} {diff : List UInt8}

attribute [local simp] Knowledge.step CoordinatorOp.action? spent captured? scopeEvidence?
  validatedReview?

theorem Knowledge.step_silent {op : CoordinatorOp} (hop : op.Silent) (answer : op.Answer) :
    k.step policy limits ⟨op, answer⟩ = k := by
  cases op with
  | loadCycle | saveCycle | saveArtifact | isolationEvidence | now =>
    simp [Knowledge.step, CoordinatorOp.action?, spent, captured?, scopeEvidence?, validatedReview?]
  | capture | collectScopeEvidence | verify | review | remediate | elapsed => exact hop.elim

theorem Knowledge.step_capture_ok {baseRevision : String} {captured : CapturedDiff} :
    k.step policy limits ⟨.capture baseRevision, .ok captured⟩ =
      { k with captured := some captured } := by
  simp [Knowledge.step, CoordinatorOp.action?, spent, captured?, scopeEvidence?, validatedReview?]

theorem Knowledge.step_capture_error {baseRevision message : String} :
    k.step policy limits ⟨.capture baseRevision, .error message⟩ = k := by
  simp [Knowledge.step, CoordinatorOp.action?, spent, captured?, scopeEvidence?, validatedReview?]

theorem Knowledge.step_collect_ok {evidence : ScopeEvidence} :
    k.step policy limits ⟨.collectScopeEvidence files diff, .ok evidence⟩ =
      { k with scopeEvidence := some (files, diff, evidence) } := by
  simp [Knowledge.step, CoordinatorOp.action?, spent, captured?, scopeEvidence?, validatedReview?]

theorem Knowledge.step_collect_error {message : String} :
    k.step policy limits ⟨.collectScopeEvidence files diff, .error message⟩ = k := by
  simp [Knowledge.step, CoordinatorOp.action?, spent, captured?, scopeEvidence?, validatedReview?]

theorem Knowledge.step_elapsed {elapsed : ℕ} :
    k.step policy limits ⟨.elapsed, elapsed⟩ =
      { k with account := k.account + .time (min elapsed maxU64) } := by
  simp [Knowledge.step, CoordinatorOp.action?, spent, captured?, scopeEvidence?, validatedReview?]

theorem Knowledge.step_verify {check : VerificationCheck} {identity : String}
    {answer : Except String VerificationEvidence} :
    k.step policy limits ⟨.verify check identity, answer⟩ =
      { k with
        account := k.account + spent policy ⟨.verify check identity, answer⟩
        reserved := Affordable limits k.account .verification ∧ k.reserved } := by
  simp [Knowledge.step, CoordinatorOp.action?, captured?, scopeEvidence?, validatedReview?]

theorem Knowledge.step_review {reviewer : ReviewerKind} {package : ReviewRequest}
    {answer : Except ReviewExecutionError ReviewResult} :
    k.step policy limits ⟨.review reviewer package, answer⟩ =
      { k with
        reviews := k.reviews + 1
        account := k.account + spent policy ⟨.review reviewer package, answer⟩
        reserved := Affordable limits k.account .review ∧ k.reserved
        review := (validatedReview? policy ⟨.review reviewer package, answer⟩).or k.review } := by
  simp [Knowledge.step, CoordinatorOp.action?, captured?, scopeEvidence?]

end Steps

end FamiliarAi
