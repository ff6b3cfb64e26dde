import FamiliarAi.Agent.Turns

/-!
# The ceilings of the loop

Iterations, cancellation and output tokens are checked before every submission, and whatever the
parties do, these checks bind. The other two promises of the loop need more. The wall-clock ceiling cuts
off each submission by itself, so several of them may take longer together. And an attempt whose
submission fails with a retryable or a non-retryable error is not recorded, nor is one marked whose
provider answers without any usage. The loop keeps all its promises exactly when this does not come up
(`runLoop_keepsCeilings_iff`).
-/

namespace FamiliarAi

open Interaction Program List

abbrev LoopRun := Except LoopExit RunOutcome × LoopHistory

/-- `run_loop` among these parties. -/
def runLoopIn (P : Platform) (stable : StablePrefix) (task : String) (config : LoopConfig)
    (env : LoopEnvironment) : LoopRun :=
  (LoopProgram.runLoop P stable task config).run env []

/-- The time that a submission takes under a ceiling. -/
def AdapterReply.spentMs (ms : ℕ) (submission : AdapterReply) : ℕ :=
  match submission.elapsedMs with
  | none => ms
  | some elapsed => min elapsed ms

/-- The time that the submissions take together. -/
def spentMs (ms : ℕ) (h : LoopHistory) : ℕ :=
  ((submissions h).map fun s ↦ s.2.spentMs ms).sum

/-- What is promised of a run of the loop. -/
structure KeepsCeilings (ceilings : LoopCeilings) (run : LoopRun) : Prop where
  count : (submissions run.2).length ≤ ceilings.maxIterations
  uncancelled : ∀ request submission before, ⟨.submit request, submission⟩ :: before <:+ run.2 →
    ¬CancelSeen before
  tokens : ∀ request submission before, ⟨.submit request, submission⟩ :: before <:+ run.2 →
    ∀ max ∈ ceilings.maxOutputTokens, knownOutputTokens ceilings.maxWallClockMs before < max
  /-- The submissions together take no longer than the ceiling. -/
  clock : ∀ ms ∈ ceilings.maxWallClockMs, spentMs ms run.2 ≤ ms
  attempts : ∀ outcome, run.1 = .ok outcome →
    outcome.attempts.map (·.attemptId) = (minted run.2).reverse
  marked : ∀ outcome, run.1 = .ok outcome →
    ∀ attempt ∈ outcome.attempts, attempt.usage.isEntirelyUnknown → attempt.ambiguous

/-- The adapter fails ambiguously or not at all, and reports some usage when it answers. -/
def Accountable (ceiling : Option ℕ) (submission : AdapterReply) : Prop :=
  match submission.answer ceiling with
  | some (.error (.retryable _)) | some (.error (.nonRetryable _)) => False
  | some (.ok outcome) => outcome.usage.isEntirelyUnknown = false
  | _ => True

/-- Each submission is over within what the ones before it have left of the wall-clock ceiling, and where
there is an outcome, the submissions are accountable. -/
structure AnswersFit (ceilings : LoopCeilings) (run : LoopRun) : Prop where
  inTime : ∀ request submission before, ⟨.submit request, submission⟩ :: before <:+ run.2 →
    ∀ ms ∈ ceilings.maxWallClockMs, submission.spentMs ms ≤ ms - spentMs ms before
  accountable : ∀ outcome, run.1 = .ok outcome →
    ∀ s ∈ submissions run.2, Accountable ceilings.maxWallClockMs s.2

section

variable {P : Platform} {stable : StablePrefix} {task : String} {config : LoopConfig}
  {env : LoopEnvironment} {h : LoopHistory} {ceiling : Option ℕ}
  {l : List (SubmitRequest × AdapterReply)} {s : SubmitRequest × AdapterReply} {ms : ℕ}

theorem runLoopIn_left : Left P env stable task config (runLoopIn P stable task config env).2 := by
  rcases (after_runLoop : After env (LoopProgram.runLoop P stable task config) [] _ _).result with
    ⟨_, _, hended, _⟩ | ⟨_, _, hleft⟩
  · exact Ended.toLeft hended
  · exact hleft.1

/-- Without an outcome there is a reason. -/
theorem runLoopIn_leftFor {exit : LoopExit}
    (hrun : (runLoopIn P stable task config env).1 = .error exit) :
    LeftFor exit (runLoopIn P stable task config env).2 := by
  rcases (after_runLoop : After env (LoopProgram.runLoop P stable task config) [] _ _).result with
    ⟨a, ha, _⟩ | ⟨e, he, hleft⟩
  · cases ha.symm.trans hrun
  · obtain rfl : e = exit := Except.error.inj (he.symm.trans hrun)
    exact hleft.2

theorem runLoopIn_ended {outcome : RunOutcome}
    (hrun : (runLoopIn P stable task config env).1 = .ok outcome) :
    Ended P env stable task config outcome.attempts (runLoopIn P stable task config env).2 ∧
      CompletedBy P config outcome.stopReason outcome.finalText
        (runLoopIn P stable task config env).2 := by
  rcases (after_runLoop : After env (LoopProgram.runLoop P stable task config) [] _ _).result with
    ⟨a, ha, hended⟩ | ⟨e, he, _⟩
  · obtain rfl : a = outcome := Except.ok.inj (ha.symm.trans hrun)
    exact hended
  · cases he.symm.trans hrun

/-! ### The record of the attempts -/

theorem attemptId_of_recorded {attempt : AttemptUsage}
    (hrecorded : recorded ceiling s = some attempt) : attempt.attemptId = s.1.attemptId := by
  unfold recorded at hrecorded
  split at hrecorded
  · obtain rfl := Option.some.inj hrecorded
    rfl
  · obtain rfl := Option.some.inj hrecorded
    rfl
  · cases hrecorded
  · cases hrecorded
  · obtain rfl := Option.some.inj hrecorded
    rfl

theorem accountable_iff :
    Accountable ceiling s.2 ↔ ∃ attempt, recorded ceiling s = some attempt ∧
      (attempt.usage.isEntirelyUnknown → attempt.ambiguous) := by
  unfold Accountable recorded
  rcases s.2.answer ceiling with _ | result
  · simp [AttemptUsage.unknown]
  cases result with
  | error error => cases error <;> simp [AttemptUsage.unknown]
  | ok outcome => simp

theorem map_filterMap_recorded_iff :
    (l.filterMap (recorded ceiling)).map (·.attemptId) = l.map (·.1.attemptId) ↔
      ∀ s ∈ l, (recorded ceiling s).isSome := by
  induction l with
  | nil => simp
  | cons s l ih =>
    cases hrecorded : recorded ceiling s with
    | none =>
      -- one attempt is missing, so the lists differ in length
      have hlength := length_filterMap_le (recorded ceiling) l
      refine ⟨fun heq ↦ ?_, fun h ↦ ?_⟩
      · have hsame := congrArg List.length heq
        rw [filterMap_cons_none hrecorded, length_map, length_map, length_cons] at hsame
        omega
      · simpa [hrecorded] using h s mem_cons_self
    | some attempt =>
      rw [filterMap_cons_some hrecorded, map_cons, map_cons,
        attemptId_of_recorded hrecorded, List.cons.injEq, ih, forall_mem_cons]
      simp [hrecorded]

theorem recorded_iff :
    ((l.filterMap (recorded ceiling)).map (·.attemptId) = l.map (·.1.attemptId) ∧
        ∀ attempt ∈ l.filterMap (recorded ceiling),
          attempt.usage.isEntirelyUnknown → attempt.ambiguous) ↔
      ∀ s ∈ l, Accountable ceiling s.2 := by
  rw [map_filterMap_recorded_iff]
  constructor
  · rintro ⟨hall, hmarked⟩ s hs
    obtain ⟨attempt, hattempt⟩ := Option.isSome_iff_exists.1 (hall s hs)
    exact accountable_iff.2 ⟨attempt, hattempt, hmarked attempt (mem_filterMap.2 ⟨s, hs, hattempt⟩)⟩
  · intro haccountable
    refine ⟨fun s hs ↦ ?_, fun attempt hattempt ↦ ?_⟩
    · obtain ⟨attempt, hsome, -⟩ := accountable_iff.1 (haccountable s hs)
      rw [hsome]
      rfl
    · obtain ⟨s, hs, hsome⟩ := mem_filterMap.1 hattempt
      obtain ⟨attempt', hsome', hmarked⟩ := accountable_iff.1 (haccountable s hs)
      obtain rfl : attempt' = attempt := Option.some.inj (hsome'.symm.trans hsome)
      exact hmarked

theorem complete_iff_of_ended {attempts : List AttemptUsage}
    (hended : Ended P env stable task config attempts h) :
    (attempts.map (·.attemptId) = (minted h).reverse ∧
        ∀ attempt ∈ attempts, attempt.usage.isEntirelyUnknown → attempt.ambiguous) ↔
      ∀ s ∈ submissions h, Accountable config.ceilings.maxWallClockMs s.2 := by
  rw [← recorded_iff, hended.attempts, hended.minted, map_reverse, reverse_inj]
  simp only [mem_reverse]

theorem spentMs_cons {request : SubmitRequest} {submission : AdapterReply} :
    spentMs ms (⟨.submit request, submission⟩ :: h) = submission.spentMs ms + spentMs ms h :=
  rfl

theorem spentMs_le_iff :
    spentMs ms h ≤ ms ↔ ∀ request submission before,
      ⟨.submit request, submission⟩ :: before <:+ h →
        submission.spentMs ms ≤ ms - spentMs ms before := by
  induction h with
  | nil =>
    refine ⟨fun _ _ _ _ hsuffix ↦ ?_, fun _ ↦ Nat.zero_le _⟩
    simp at hsuffix
  | cons e h ih =>
    obtain ⟨op, answer⟩ := e
    cases op with
    | submit request =>
      rw [spentMs_cons]
      constructor
      · intro hle request' submission before hsuffix
        rcases suffix_cons_iff.1 hsuffix with heq | hsuffix
        · obtain ⟨hhead, rfl⟩ := List.cons.inj heq
          cases hhead
          omega
        · exact ih.1 (by omega) request' submission before hsuffix
      · intro hall
        have hlast := hall request answer h (suffix_refl _)
        have hrest : spentMs ms h ≤ ms := ih.2 fun request' submission before hsuffix ↦
          hall request' submission before (hsuffix.trans (suffix_cons _ _))
        omega
    | isCancelled | mintAttemptId | authorize | resultFor | recordIntent | execute | recordResult
    | journalLength =>
      show spentMs ms h ≤ ms ↔ _
      rw [ih]
      refine forall_congr' fun request ↦ forall_congr' fun submission ↦ forall_congr' fun before ↦ ?_
      rw [suffix_cons_iff]
      simp

/-- **The ceilings of the loop.** Whatever the adapter, the tools, the journal and the token do, the
loop keeps all its promises exactly when each submission is over within what is left of the wall-clock
ceiling and, where there is an outcome, every one of them is accountable. -/
theorem runLoop_keepsCeilings_iff (P : Platform) (stable : StablePrefix) (task : String)
    (config : LoopConfig) (env : LoopEnvironment) :
    KeepsCeilings config.ceilings (runLoopIn P stable task config env) ↔
      AnswersFit config.ceilings (runLoopIn P stable task config env) := by
  have hleft : Left P env stable task config (runLoopIn P stable task config env).2 := runLoopIn_left
  constructor
  · intro hwithin
    refine ⟨fun request submission before hsuffix ms hms ↦ ?_, fun outcome hrun ↦ ?_⟩
    · exact spentMs_le_iff.1 (hwithin.clock ms hms) request submission before hsuffix
    · exact (complete_iff_of_ended (runLoopIn_ended hrun).1).1
        ⟨hwithin.attempts outcome hrun, hwithin.marked outcome hrun⟩
  · intro hfit
    have hsubmit : ∀ request submission before,
        ⟨.submit request, submission⟩ :: before <:+ (runLoopIn P stable task config env).2 →
          MaySubmit P stable task config before request :=
      fun _ _ _ hsuffix ↦ (hleft.grows.allowed hsuffix nil_suffix).2
    exact
      { count := hleft.count
        uncancelled := fun _ _ _ hsuffix ↦ (hsubmit _ _ _ hsuffix).uncancelled
        tokens := fun _ _ _ hsuffix ↦ (hsubmit _ _ _ hsuffix).tokens
        clock := fun ms hms ↦ spentMs_le_iff.2 fun request submission before hsuffix ↦
          hfit.inTime request submission before hsuffix ms hms
        attempts := fun outcome hrun ↦
          ((complete_iff_of_ended (runLoopIn_ended hrun).1).2 (hfit.accountable outcome hrun)).1
        marked := fun outcome hrun ↦
          ((complete_iff_of_ended (runLoopIn_ended hrun).1).2 (hfit.accountable outcome hrun)).2 }

end

/-- What a platform needs to show for a conversation without tools. -/
def plainPlatform : Platform :=
  ⟨fun _ ↦ none, fun _ ↦ "", id, id⟩

/-- A loop of three iterations and ten milliseconds. -/
def briefLoop : LoopConfig where
  workerSpecIdentity := "worker"
  workerEmpiricalVersion := "1"
  model := "model"
  promptTemplateVersion := "1"
  ceilings := ⟨3, none, some 10⟩
  offeredCapabilities := []
  structuredOutput := none
  authority := ⟨"project", "execution", "0", "worker"⟩

/-- Parties where every submission is answered like this, and the ids are counted up. -/
def answering (submission : AdapterReply) : LoopEnvironment
  | _, .isCancelled => false
  | h, .mintAttemptId => ⟨toString (minted h).length⟩
  | _, .submit _ => submission
  | _, .authorize .. => .authorized
  | _, .resultFor _ => .ok none
  | _, .recordIntent _ => .ok ()
  | _, .execute .. => .error .timeout
  | _, .recordResult .. => .ok ()
  | _, .journalLength => 0

/-- The provider pauses after six milliseconds, again and again. -/
def pausing : AdapterReply :=
  ⟨[], some 6, .ok ⟨.pauseTurn, { outputTokens := some 1 }, none⟩⟩

def overloaded : AdapterReply :=
  ⟨[], some 1, .error (.retryable .overloaded)⟩

/-- Three submissions of six milliseconds each go beyond a ceiling of ten. -/
theorem runLoop_not_keepsCeilings :
    ¬∀ P stable task config env,
      KeepsCeilings config.ceilings (runLoopIn P stable task config env) := by
  intro h
  have hclock := (h plainPlatform ⟨"", "none"⟩ "task" briefLoop (answering pausing)).clock 10 rfl
  have hspent : spentMs 10 (runLoopIn plainPlatform ⟨"", "none"⟩ "task" briefLoop
      (answering pausing)).2 = 18 := by
    decide
  omega

end FamiliarAi
