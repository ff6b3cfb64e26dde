import FamiliarAi.Agent.Ceilings
import FamiliarAi.Core.Outcome
import FamiliarAi.Agent.HostReservations

/-!
# What a run reports

Whether a run of the loop is completed is decided by its last turn alone, while the final text is what
was said last in any of the turns, and a turn that the provider's content filter cut off completes the
loop as well. The usage that the raw agent reports is the sum over the attempts that the loop has
recorded, where an attempt that reports nothing counts for nothing.
-/

namespace FamiliarAi

open Interaction Program List

section FinalText

variable (P : Platform) (config : LoopConfig)

/-- A completed run ends with a submission that ended normally, and its final text is what this
submission said, which is something when structured output was requested. -/
def CompletesHonestly (run : LoopRun) : Prop :=
  ∀ outcome structured, run.1 = .ok outcome → outcome.stopReason = .completed structured →
    ∃ s before answer, submissions run.2 = s :: before ∧
      s.2.answer config.ceilings.maxWallClockMs = some (.ok answer) ∧
      (answer.stopReason = .endTurn ∨ answer.stopReason = .stopSequence) ∧
      outcome.finalText = saidIn P s ∧ (config.structuredOutput.isSome → outcome.finalText.isSome)

/-- Where the last submission is one that completes the loop, the content filter did not cut it off, and it
said something or no other one did. -/
def EndsWell (run : LoopRun) : Prop :=
  ∀ s before answer structured, submissions run.2 = s :: before →
    s.2.answer config.ceilings.maxWallClockMs = some (.ok answer) → callsIn P s = [] →
    endOfTurn config (heard P (s :: before)) answer.stopReason = .stop (.completed structured) →
    answer.stopReason ≠ .contentFilter ∧ ((saidIn P s).isSome ∨ heard P before = none)

end FinalText

theorem endOfTurn_eq_completed {config : LoopConfig} {finalText : Option String}
    {stopReason : AdapterStopReason} {structured : Bool}
    (h : endOfTurn config finalText stopReason = .stop (.completed structured)) :
    (stopReason = .endTurn ∨ stopReason = .stopSequence ∨ stopReason = .contentFilter) ∧
      (config.structuredOutput.isSome → finalText.isSome) := by
  have hoffered (hoffer : (if config.structuredOutput.isSome ∧ finalText.isNone then
      TurnEnd.stop .invalidStructuredOutput
      else .stop (.completed config.structuredOutput.isSome)) = .stop (.completed structured)) :
      config.structuredOutput.isSome → finalText.isSome := by
    intro hrequested
    split_ifs at hoffer with hmissing
    · cases hoffer
    · cases finalText with
      | none => exact absurd ⟨hrequested, rfl⟩ hmissing
      | some text => rfl
  cases stopReason with
  | endTurn => exact ⟨.inl rfl, hoffered h⟩
  | stopSequence => exact ⟨.inr (.inl rfl), hoffered h⟩
  | contentFilter => exact ⟨.inr (.inr rfl), hoffered h⟩
  | maxTokens | toolUse | pauseTurn | refusal => cases h

/-- **The final text of a run.** Whatever the parties do, a run that ends well is completed by a
submission that ended normally, and has what it said as its final text. -/
theorem runLoop_completesHonestly (P : Platform) (stable : StablePrefix) (task : String)
    (config : LoopConfig) (env : LoopEnvironment)
    (hends : EndsWell P config (runLoopIn P stable task config env)) :
    CompletesHonestly P config (runLoopIn P stable task config env) := by
  intro outcome structured hrun hstop
  obtain ⟨s, before, answer, hlast, hanswer, hnone, hend, htext⟩ :=
    (runLoopIn_ended hrun).2 structured hstop
  rw [hstop] at hend
  obtain ⟨hnormal, hoffered⟩ := endOfTurn_eq_completed hend
  obtain ⟨hfilter, hsaid⟩ := hends s before answer structured hlast hanswer hnone (htext ▸ hend)
  refine ⟨s, before, answer, hlast, hanswer, ?_, ?_, hoffered⟩
  · rcases hnormal with hend | hsequence | hcut
    · exact .inl hend
    · exact .inr hsequence
    · exact absurd hcut hfilter
  · rw [htext, heard, findSome?_cons]
    cases htold : saidIn P s with
    | some text => rfl
    | none =>
      rw [htold] at hsaid
      exact hsaid.resolve_left fun h ↦ by cases h

/-- The provider says something, and ends the turn like this. -/
def saying (stopReason : AdapterStopReason) : AdapterReply :=
  ⟨[.textDelta "done"], some 1, .ok ⟨stopReason, { outputTokens := some 1 }, none⟩⟩

theorem runLoop_completesHonestly_endTurn :
    CompletesHonestly plainPlatform briefLoop (runLoopIn plainPlatform ⟨"", "none"⟩ "task" briefLoop
      (answering (saying .endTurn))) := by
  refine runLoop_completesHonestly plainPlatform ⟨"", "none"⟩ "task" briefLoop
    (answering (saying .endTurn)) fun s before answer structured hlast hanswer _ _ ↦ ?_
  obtain ⟨rfl, rfl⟩ := cons.inj hlast
  obtain rfl := Except.ok.inj (Option.some.inj hanswer)
  exact ⟨nofun, .inl rfl⟩

/-- A turn that the content filter cuts off completes the loop. -/
theorem not_completesHonestly :
    ¬∀ P stable task config env,
      CompletesHonestly P config (runLoopIn P stable task config env) := by
  intro h
  obtain ⟨outcome, hrun, hstop⟩ : ∃ outcome, (runLoopIn plainPlatform ⟨"", "none"⟩ "task" briefLoop
      (answering (saying .contentFilter))).1 = .ok outcome ∧
        outcome.stopReason = .completed false := ⟨_, rfl, rfl⟩
  obtain ⟨s, before, answer, hlast, hanswer, hnormal, -⟩ := h _ _ _ _ _ outcome false hrun hstop
  obtain ⟨rfl, rfl⟩ := cons.inj hlast
  obtain rfl := Except.ok.inj (Option.some.inj hanswer)
  rcases hnormal with hnormal | hnormal
  · cases hnormal
  · cases hnormal

/-! ### The usage -/

/-- The categories of tokens that are told apart. -/
inductive TokenCategory
  | uncachedInput
  | cacheRead
  | cacheWrite
  | output
  | reasoningOutput

def UsageCategories.amount (usage : UsageCategories) : TokenCategory → Option ℕ
  | .uncachedInput => usage.uncachedInputTokens
  | .cacheRead => usage.cacheReadTokens
  | .cacheWrite => usage.cacheWriteTokens
  | .output => usage.outputTokens
  | .reasoningOutput => usage.reasoningOutputTokens

def UsageCategories.of (amount : TokenCategory → Option ℕ) : UsageCategories :=
  ⟨amount .uncachedInput, amount .cacheRead, amount .cacheWrite, amount .output,
    amount .reasoningOutput⟩

theorem UsageCategories.amount_of (amount : TokenCategory → Option ℕ) (category : TokenCategory) :
    (UsageCategories.of amount).amount category = amount category := by
  cases category <;> rfl

def ExecutionResult.amount (result : ExecutionResult) : TokenCategory → Option ℕ
  | .uncachedInput => result.inputTokens
  | .cacheRead => result.cachedTokens
  | .cacheWrite => result.cacheWriteTokens
  | .output => result.outputTokens
  | .reasoningOutput => result.reasoningOutputTokens

def AgentExecutionError.result : AgentExecutionError → ExecutionResult
  | launch _ _ result | output _ result | malformedOutput _ result | timeout result
  | budgetStopped result => result

def returnedResult : Except ExecutionExit ExecutionResult → Option ExecutionResult
  | .ok result => some result
  | .error (.failed error) => some error.result
  | .error (.panicked _) => none

def reportedAmount (ceiling : Option ℕ) (category : TokenCategory)
    (s : SubmitRequest × AdapterReply) : Option ℕ :=
  match s.2.answer ceiling with
  | some (.ok outcome) => outcome.usage.amount category
  | _ => none

def reportedSum (ceiling : Option ℕ) (l : List (SubmitRequest × AdapterReply))
    (category : TokenCategory) : ℕ :=
  (l.map fun s ↦ (reportedAmount ceiling category s).getD 0).sum

/-- There is a result, and it says of each category nothing, or the whole sum where every submission has
reported it. -/
def NeverUnderstates (ceiling : Option ℕ) (l : List (SubmitRequest × AdapterReply))
    (returned : Except ExecutionExit ExecutionResult) : Prop :=
  ∃ result, returnedResult returned = some result ∧ ∀ category, result.amount category = none ∨
    (∀ s ∈ l, (reportedAmount ceiling category s).isSome) ∧
      result.amount category = some (reportedSum ceiling l category)

/-- What an agent returns of a run of the loop never understates its usage, whatever the host does. -/
def UsageFaithful (config : LoopConfig) (run : LoopRun) : Prop :=
  ∀ outcome, run.1 = .ok outcome → ∀ host spec request slots env h,
    After env (HostProgram.finishExecution host spec request outcome slots) h
      (fun step _ ↦ NeverUnderstates config.ceilings.maxWallClockMs (submissions run.2) step.1)
      fun _ _ ↦ True

/-- Each category is reported by all of the submissions or by none, and the sums are 64-bit numbers. -/
def ReportsWhole (config : LoopConfig) (run : LoopRun) : Prop :=
  ∀ category,
    ((∀ s ∈ submissions run.2, reportedAmount config.ceilings.maxWallClockMs category s = none) ∨
      ∀ s ∈ submissions run.2, (reportedAmount config.ceilings.maxWallClockMs category s).isSome) ∧
    reportedSum config.ceilings.maxWallClockMs (submissions run.2) category < 2 ^ 64

section Usage

variable {usage other : UsageCategories} {attempts : List AttemptUsage}
  {category : TokenCategory} {ceiling : Option ℕ}

def knownSum (a b : Option ℕ) : Option ℕ :=
  if a = none ∧ b = none then none else some (a.getD 0 + b.getD 0)

theorem addOpt_eq_ok {a b : Option ℕ} (h : a.getD 0 + b.getD 0 < 2 ^ 64) :
    addOpt a b = .ok (knownSum a b) := by
  cases a with
  | none =>
    cases b with
    | none => rfl
    | some b => exact if_neg (Nat.not_le.2 h)
  | some a => exact if_neg (Nat.not_le.2 h)

theorem merge_eq_ok
    (h : ∀ category, (usage.amount category).getD 0 + (other.amount category).getD 0 < 2 ^ 64) :
    usage.merge other =
      .ok (.of fun category ↦ knownSum (usage.amount category) (other.amount category)) := by
  have huncached : addOpt usage.uncachedInputTokens other.uncachedInputTokens = _ :=
    addOpt_eq_ok (h .uncachedInput)
  have hread : addOpt usage.cacheReadTokens other.cacheReadTokens = _ :=
    addOpt_eq_ok (h .cacheRead)
  have hwrite : addOpt usage.cacheWriteTokens other.cacheWriteTokens = _ :=
    addOpt_eq_ok (h .cacheWrite)
  have houtput : addOpt usage.outputTokens other.outputTokens = _ := addOpt_eq_ok (h .output)
  have hreasoning : addOpt usage.reasoningOutputTokens other.reasoningOutputTokens = _ :=
    addOpt_eq_ok (h .reasoningOutput)
  rw [UsageCategories.merge, huncached, hread, hwrite, houtput, hreasoning]
  rfl

theorem foldlM_merge_amount (h : ∀ category, (usage.amount category).getD 0 +
      (attempts.map fun attempt ↦ (attempt.usage.amount category).getD 0).sum < 2 ^ 64) :
    ∃ total, attempts.foldlM (fun (usage : UsageCategories) attempt ↦ usage.merge attempt.usage)
        usage = .ok total ∧ ∀ category, total.amount category =
      if usage.amount category = none ∧ ∀ attempt ∈ attempts, attempt.usage.amount category = none
      then none
      else some ((usage.amount category).getD 0 +
        (attempts.map fun attempt ↦ (attempt.usage.amount category).getD 0).sum) := by
  induction attempts generalizing usage with
  | nil =>
    refine ⟨usage, rfl, fun category ↦ ?_⟩
    cases usage.amount category <;> simp
  | cons attempt attempts ih =>
    simp only [map_cons, sum_cons] at h
    have hmerged := merge_eq_ok fun category ↦
      (Nat.add_le_add_left (Nat.le_add_right _ _) _).trans_lt (h category)
    generalize hof : UsageCategories.of _ = merged at hmerged
    have hamounts (category : TokenCategory) : merged.amount category =
        knownSum (usage.amount category) (attempt.usage.amount category) := by
      rw [← hof, UsageCategories.amount_of]
    have hmergedAmount (category : TokenCategory) : (merged.amount category).getD 0 =
        (usage.amount category).getD 0 + (attempt.usage.amount category).getD 0 := by
      rw [hamounts, knownSum]
      split_ifs with hnone
      · rw [hnone.1, hnone.2]
        rfl
      · rfl
    obtain ⟨total, htotal, htotals⟩ := ih fun category ↦ by
      rw [hmergedAmount, Nat.add_assoc]
      exact h category
    refine ⟨total, ?_, fun category ↦ ?_⟩
    · show (usage.merge attempt.usage >>= _) = _
      rw [hmerged]
      exact htotal
    · have hnone : merged.amount category = none ↔
          usage.amount category = none ∧ attempt.usage.amount category = none := by
        rw [hamounts, knownSum, ite_eq_left_iff]
        simp
      rw [htotals, hmergedAmount, map_cons, sum_cons, Nat.add_assoc]
      simp only [hnone, forall_mem_cons, and_assoc]

theorem amount_of_recorded (s : SubmitRequest × AdapterReply) :
    ((recorded ceiling s).bind fun attempt ↦ attempt.usage.amount category) =
      reportedAmount ceiling category s := by
  unfold recorded reportedAmount
  rcases s.2.answer ceiling with _ | result
  · cases category <;> rfl
  cases result with
  | ok outcome => rfl
  | error error => cases error <;> cases category <;> rfl

theorem recorded_amounts (l : List (SubmitRequest × AdapterReply)) :
    ((l.filterMap (recorded ceiling)).map fun attempt ↦
        (attempt.usage.amount category).getD 0).sum = reportedSum ceiling l category ∧
      ((∀ attempt ∈ l.filterMap (recorded ceiling), attempt.usage.amount category = none) ↔
        ∀ s ∈ l, reportedAmount ceiling category s = none) := by
  induction l with
  | nil => exact ⟨rfl, by simp⟩
  | cons s l ih =>
    have hamount := @amount_of_recorded category ceiling s
    rw [reportedSum, map_cons, sum_cons, ← hamount, forall_mem_cons, ← hamount, ← ih.2]
    rcases hrecorded : recorded ceiling s with _ | attempt
    · exact ⟨by rw [filterMap_cons_none hrecorded, ih.1]; simp [reportedSum],
        by simp [hrecorded]⟩
    rw [filterMap_cons_some hrecorded, map_cons, sum_cons, ih.1, forall_mem_cons]
    exact ⟨rfl, Iff.rfl⟩

theorem finishExecution_returns {host : SqliteRawAgentHost} {spec : RawAgentSpec}
    {request : ExecutionRequest} {outcome : RunOutcome} {slots : HostSlots} {env : HostEnvironment}
    {h : HostHistory} {result : ExecutionResult}
    (hresult : spec.executionResult outcome (spec.effectiveModel request) = .ok result) :
    After env (HostProgram.finishExecution host spec request outcome slots) h
      (fun step _ ↦ ∃ returned, returnedResult step.1 = some returned ∧
        ∀ category, returned.amount category = result.amount category) fun _ _ ↦ True := by
  have hany {α : Type} (m : HostProgram α) (h : HostHistory) :
      After env m h (fun _ _ ↦ True) fun _ _ ↦ True := by
    unfold After
    split <;> trivial
  refine (hany _ h).bind fun finished h' _ ↦ ?_
  obtain ⟨detail | _, slots'⟩ := finished
  · refine (hany _ h').bind fun _ _ _ ↦ ?_
    exact ⟨result, by rw [RawAgentSpec.unfinished, hresult]; rfl, fun _ ↦ rfl⟩
  · show ∃ returned, returnedResult (spec.report outcome _) = some returned ∧ _
    rw [RawAgentSpec.report, hresult]
    cases outcome.stopReason with
    | completed structured => exact ⟨_, rfl, fun category ↦ by cases category <;> rfl⟩
    | _ => exact ⟨result, rfl, fun _ ↦ rfl⟩

/-- **Reported usage never understates.** Whatever the parties do, where each category is reported by all
submissions of the run or by none and the sums are 64-bit numbers, the result that the agent returns says
of each category nothing or the whole sum. -/
theorem runLoop_usageFaithful (P : Platform) (stable : StablePrefix) (task : String)
    (config : LoopConfig) (env : LoopEnvironment)
    (hwhole : ReportsWhole config (runLoopIn P stable task config env)) :
    UsageFaithful config (runLoopIn P stable task config env) := by
  intro outcome hrun host spec request slots henv h
  have hattempts := (runLoopIn_ended hrun).1.attempts
  have hsum (category : TokenCategory) := @recorded_amounts category
    config.ceilings.maxWallClockMs (submissions (runLoopIn P stable task config env).2)
  have htotal (category : TokenCategory) :
      (outcome.attempts.map fun attempt ↦ (attempt.usage.amount category).getD 0).sum =
        reportedSum config.ceilings.maxWallClockMs
          (submissions (runLoopIn P stable task config env).2) category := by
    rw [hattempts, map_reverse, sum_reverse, (hsum category).1]
  obtain ⟨usage, husage, hamounts⟩ := @foldlM_merge_amount {}
    outcome.attempts fun category ↦ by
      rw [htotal]
      cases category <;> exact (Nat.zero_add _).trans_lt (hwhole _).2
  have hresult : spec.executionResult outcome (spec.effectiveModel request) = .ok
      { agentVersion := some spec.workerEmpiricalVersion
        model := some (spec.effectiveModel request)
        inputTokens := usage.uncachedInputTokens
        outputTokens := usage.outputTokens
        cachedTokens := usage.cacheReadTokens
        cacheWriteTokens := usage.cacheWriteTokens
        reasoningOutputTokens := usage.reasoningOutputTokens } := by
    rw [RawAgentSpec.executionResult, husage]
    rfl
  refine (finishExecution_returns hresult).imp fun step h' hreturned ↦ ?_
  obtain ⟨returned, hreturned, hsame⟩ := hreturned
  refine ⟨returned, hreturned, fun category ↦ ?_⟩
  have hamount : returned.amount category = usage.amount category := by
    rw [hsame]
    cases category <;> rfl
  have hunknown : ({} : UsageCategories).amount category = none := by
    cases category <;> rfl
  rw [hamount, hamounts, hunknown, htotal, Option.getD_none, Nat.zero_add]
  rcases (hwhole category).1 with hnone | hall
  · left
    refine if_pos ⟨rfl, fun attempt hattempt ↦ ?_⟩
    rw [hattempts, mem_reverse] at hattempt
    exact (hsum category).2.2 hnone attempt hattempt
  · split_ifs
    · exact .inl rfl
    · exact .inr ⟨hall, rfl⟩

end Usage

theorem runLoop_usageFaithful_endTurn :
    (runLoopIn plainPlatform ⟨"", "none"⟩ "task" briefLoop (answering (saying .endTurn))).1.isOk ∧
      UsageFaithful briefLoop (runLoopIn plainPlatform ⟨"", "none"⟩ "task" briefLoop
        (answering (saying .endTurn))) := by
  refine ⟨by decide, runLoop_usageFaithful plainPlatform ⟨"", "none"⟩ "task" briefLoop
    (answering (saying .endTurn)) fun category ↦ ?_⟩
  cases category with
  | output => exact ⟨.inr (forall_mem_singleton.2 rfl), by decide⟩
  | uncachedInput | cacheRead | cacheWrite | reasoningOutput =>
    exact ⟨.inl (forall_mem_singleton.2 rfl), by decide⟩

/-- The provider pauses once, and then it is not known what it does. -/
def losing : LoopEnvironment
  | h, op => answering (if (submissions h).isEmpty then pausing
      else ⟨[], some 1, .error (.ambiguous "lost")⟩) h op

/-- A lost submission counts for nothing. -/
theorem not_usageFaithful :
    ¬∀ P stable task config env, UsageFaithful config (runLoopIn P stable task config env) := by
  intro h
  obtain ⟨outcome, hrun, hattempts⟩ : ∃ outcome,
      (runLoopIn plainPlatform ⟨"", "none"⟩ "task" briefLoop losing).1 = .ok outcome ∧
        (plainSpec.executionResult outcome "model").toOption.map (·.outputTokens) =
          some (some 1) := ⟨_, rfl, rfl⟩
  obtain ⟨result, hresult, houtput⟩ := Option.map_eq_some_iff.1 hattempts
  have hfinished := (h _ _ _ _ _ outcome hrun localHost plainSpec plainRequest {}
    (serving (.ok outcome) []) []).result
  rcases hfinished with ⟨step, hstep, returned, hreturned, hamounts⟩ | ⟨_, he, -⟩
  · have hok : plainSpec.executionResult outcome (plainSpec.effectiveModel plainRequest) =
        .ok result := Except.toOption_eq_some.1 hresult
    rcases (finishExecution_returns hok).result with
      ⟨step', hstep', returned', hreturned', hsame⟩ | ⟨_, he, -⟩
    · obtain rfl : step = step' := Except.ok.inj (hstep.symm.trans hstep')
      obtain rfl : returned = returned' := Option.some.inj (hreturned.symm.trans hreturned')
      rcases hamounts .output with hnone | ⟨hall, -⟩
      · have hone : returned.amount .output = some 1 := (hsame .output).trans houtput
        cases hnone.symm.trans hone
      · have hlost : (submissions (runLoopIn plainPlatform ⟨"", "none"⟩ "task" briefLoop losing).2).all
            (fun s ↦ (reportedAmount (some 10) .output s).isSome) = false := by
          decide
        cases (all_eq_true.2 hall).symm.trans hlost
    · cases he
  · cases he

end FamiliarAi
