import Mathlib.Data.List.Forall2
import FamiliarAi.Agent.ToolCalls

/-!
# What the loop does in its turns

The invariant of the loop, held between its turns: how its state and what was performed so far fit
together. A turn keeps it or ends the loop, and from this we read what a submission may follow
(`LoopRule`), what its messages are (`Conversed`) and what the loop has recorded at its end (`Ended`).
-/

namespace FamiliarAi

open Interaction Program List

/-- The submissions, the last first. -/
def submissions : LoopHistory → List (SubmitRequest × AdapterReply)
  | [] => []
  | ⟨.submit request, submission⟩ :: h => (request, submission) :: submissions h
  | _ :: h => submissions h

/-- The attempt ids that were minted, the last first. -/
def minted : LoopHistory → List AttemptId
  | [] => []
  | ⟨.mintAttemptId, attemptId⟩ :: h => attemptId :: minted h
  | _ :: h => minted h

def CancelSeen : LoopHistory → Prop
  | [] => False
  | ⟨.isCancelled, cancelled⟩ :: h => cancelled = true ∨ CancelSeen h
  | _ :: h => CancelSeen h

def AdapterReply.knownOutputTokens (ceiling : Option ℕ) (submission : AdapterReply) : ℕ :=
  match submission.answer ceiling with
  | some (.ok outcome) => outcome.usage.outputTokens.getD 0
  | _ => 0

def knownOutputTokens (ceiling : Option ℕ) (h : LoopHistory) : ℕ :=
  ((submissions h).map fun s ↦ s.2.knownOutputTokens ceiling).sum

def recorded (ceiling : Option ℕ) (s : SubmitRequest × AdapterReply) : Option AttemptUsage :=
  match s.2.answer ceiling with
  | none | some (.error (.ambiguous _)) => some (.unknown s.1.attemptId)
  | some (.error (.retryable _)) | some (.error (.nonRetryable _)) => none
  | some (.ok outcome) => some ⟨s.1.attemptId, outcome.usage, false, outcome.providerRequestId⟩

/-- A part of a conversation. -/
inductive Exchange
  | said (text : String)
  | called (calls : List ToolCallPayload) (results : List ToolResultPayload)

namespace Exchange

def Answers (call : ToolCallPayload) (result : ToolResultPayload) : Prop :=
  result.callId = call.callId ∧ result.capabilityName = call.capabilityName

def Matched : Exchange → Prop
  | said _ => True
  | called calls results => calls ≠ [] ∧ List.Forall₂ Answers calls results

def messages : Exchange → List Message
  | said text => [⟨.assistant, .text text⟩]
  | called calls results =>
    ⟨.assistant, .toolCalls calls⟩ :: results.map fun result ↦ ⟨.tool, .toolResult result⟩

def calls? : Exchange → Option (List ToolCallPayload)
  | said _ => none
  | called calls _ => some calls

end Exchange

def Conversed (called : List (List ToolCallPayload)) (history : List Message) : Prop :=
  ∃ exchanges : List Exchange, (∀ e ∈ exchanges, e.Matched) ∧
    exchanges.filterMap Exchange.calls? = called ∧ history = exchanges.flatMap Exchange.messages

theorem Conversed.nil : Conversed [] [] :=
  ⟨[], by simp, rfl, rfl⟩

theorem Conversed.snoc {called : List (List ToolCallPayload)} {history : List Message}
    {exchange : Exchange} (h : Conversed called history) (hexchange : exchange.Matched) :
    Conversed (called ++ exchange.calls?.toList) (history ++ exchange.messages) := by
  obtain ⟨exchanges, hmatched, rfl, rfl⟩ := h
  refine ⟨exchanges ++ [exchange], fun e he ↦ ?_, ?_, by simp⟩
  · rcases mem_append.1 he with he | he
    · exact hmatched e he
    · obtain rfl := mem_singleton.1 he
      exact hexchange
  · rw [filterMap_append]
    cases exchange with
    | said text => rfl
    | called calls results => rfl

section Turns

variable (P : Platform)

/-- What the turn of a submission says. -/
def saidIn (s : SubmitRequest × AdapterReply) : Option String :=
  (TurnCollector.collect P s.2.events).text

/-- The calls that the turn of a submission makes, as the transcript records them. -/
def callsIn (s : SubmitRequest × AdapterReply) : List ToolCallPayload :=
  (TurnCollector.collect P s.2.events).completedCalls.map (·.payload P)

/-- What was said last in the turns of these submissions, of which the last comes first. -/
def heard (l : List (SubmitRequest × AdapterReply)) : Option String :=
  l.findSome? (saidIn P)

def calledIn (l : List (SubmitRequest × AdapterReply)) : List (List ToolCallPayload) :=
  (l.reverse.map (callsIn P)).filter (!·.isEmpty)

end Turns

theorem calledIn_cons (P : Platform) (s : SubmitRequest × AdapterReply)
    (l : List (SubmitRequest × AdapterReply)) :
    calledIn P (s :: l) = calledIn P l ++ [callsIn P s].filter (!·.isEmpty) := by
  simp [calledIn]

variable (P : Platform) (env : LoopEnvironment) (stable : StablePrefix) (task : String)
  (config : LoopConfig)

/-- What must have come before a submission, and what it carries. -/
structure MaySubmit (before : LoopHistory) (request : SubmitRequest) : Prop where
  uncancelled : ¬CancelSeen before
  count : (submissions before).length < config.ceilings.maxIterations
  tokens : ∀ max ∈ config.ceilings.maxOutputTokens,
    knownOutputTokens config.ceilings.maxWallClockMs before < max
  conversed : ∃ history, request.messages = composeMessages stable task history ∧
    Conversed (calledIn P (submissions before)) history

def LoopRule (before : LoopHistory) (e : RunLoopEvent) : Prop :=
  e.answer = env before e.op ∧ match e.op with
  | .submit request => MaySubmit P stable task config before request
  | .isCancelled | .mintAttemptId | .journalLength => True
  | _ => ToolRule before e

/-- How the state and what was performed fit together before a turn, with so many turns left. -/
structure Standing (left : ℕ) (state : RunLoopState) (h : LoopHistory) : Prop where
  grows : Grows (LoopRule P env stable task config) [] h
  uncancelled : ¬CancelSeen h
  iterations : (submissions h).length = state.iterations
  left : state.iterations + left = config.ceilings.maxIterations
  tokens : state.totalOutputTokens = knownOutputTokens config.ceilings.maxWallClockMs h
  attempts : state.attempts =
    ((submissions h).filterMap (recorded config.ceilings.maxWallClockMs)).reverse
  minted : minted h = (submissions h).map (·.1.attemptId)
  conversed : Conversed (calledIn P (submissions h)) state.history
  heard : state.finalText = heard P (submissions h)

/-- What was performed, and what is recorded, when the loop ends. -/
structure Ended (attempts : List AttemptUsage) (h : LoopHistory) : Prop where
  grows : Grows (LoopRule P env stable task config) [] h
  count : (submissions h).length ≤ config.ceilings.maxIterations
  attempts : attempts =
    ((submissions h).filterMap (recorded config.ceilings.maxWallClockMs)).reverse
  minted : minted h = (submissions h).map (·.1.attemptId)

/-- The loop is completed by its last submission, which was answered and made no calls, and what was said
last is its final text. -/
def CompletedBy (reason : StopReason) (finalText : Option String) (h : LoopHistory) : Prop :=
  ∀ structured, reason = .completed structured → ∃ s before outcome, submissions h = s :: before ∧
    s.2.answer config.ceilings.maxWallClockMs = some (.ok outcome) ∧ callsIn P s = [] ∧
    endOfTurn config finalText outcome.stopReason = .stop reason ∧ finalText = heard P (s :: before)

def LeftFor (exit : LoopExit) (h : LoopHistory) : Prop :=
  exit = .unanswered ∨ exit = .panicked "attempt to add with overflow" ∨ JournalRefused h

/-- What was performed when the loop is left without an outcome. -/
structure Left (h : LoopHistory) : Prop where
  grows : Grows (LoopRule P env stable task config) [] h
  count : (submissions h).length ≤ config.ceilings.maxIterations

section

variable {P : Platform} {stable : StablePrefix} {task : String} {config : LoopConfig}
  {env : LoopEnvironment} {h h₀ : LoopHistory} {state : RunLoopState} {n : ℕ}
  {attemptId : AttemptId} {calls : List ToolCallRequest} {outcome : SubmitOutcome}
  {e : RunLoopEvent}

/-- The calls of a turn change nothing of what is counted. -/
structure Framed (h₀ h : LoopHistory) : Prop where
  submissions : submissions h = submissions h₀
  minted : minted h = minted h₀
  cancelSeen : CancelSeen h ↔ CancelSeen h₀

theorem Framed.of_toolRule (he : ToolRule h e) : Framed h (e :: h) := by
  obtain ⟨op, answer⟩ := e
  cases op with
  | isCancelled | mintAttemptId | submit | journalLength => exact he.elim
  | authorize | resultFor | recordIntent | execute | recordResult => exact ⟨rfl, rfl, Iff.rfl⟩

theorem loopRule_of_toolEvent (he : ToolEvent env h e) :
    LoopRule P env stable task config h e := by
  obtain ⟨op, answer⟩ := e
  cases op with
  | isCancelled | mintAttemptId | submit | journalLength => exact he.2.elim
  | authorize | resultFor | recordIntent | execute | recordResult => exact he

theorem Framed.of_grows (hgrows : Grows (ToolEvent env) h₀ h) : Framed h₀ h := by
  induction hgrows with
  | refl => exact ⟨rfl, rfl, Iff.rfl⟩
  | cons _ he ih =>
    have hframe := Framed.of_toolRule he.2
    exact ⟨hframe.submissions.trans ih.submissions, hframe.minted.trans ih.minted,
      hframe.cancelSeen.trans ih.cancelSeen⟩

/-- These calls have their results at the end of the history, and nothing else that is counted has
changed. -/
def Called (env : LoopEnvironment) (P : Platform) (state : RunLoopState) (h₀ : LoopHistory) (calls : List ToolCallRequest)
    (acc : RunLoopState × Bool) (h : LoopHistory) : Prop :=
  Grows (ToolEvent env) h₀ h ∧ ∃ results,
    acc.1 = { state with
      history := state.history ++ results.map fun r ↦ ⟨.tool, .toolResult r⟩
      calls := acc.1.calls } ∧
    List.Forall₂ Exchange.Answers (calls.map (·.payload P)) results

theorem after_callStep {rawCall : ToolCallRequest} {acc : RunLoopState × Bool}
    (hcalled : Called env P state h₀ calls acc h) :
    After env (LoopProgram.callStep P config acc rawCall) h (Called env P state h₀ (calls ++ [rawCall]))
      fun _ h' ↦ Grows (ToolEvent env) h₀ h' ∧ JournalRefused h' := by
  obtain ⟨hgrows, results, hacc, hresults⟩ := hcalled
  refine (after_processToolCall hgrows fun _ ↦ mem_canonicalCapabilities).bind ?_
  rintro processed h' ⟨hgrows', htells⟩
  obtain ⟨result, hmessage, hid, hname⟩ := htells.message
  refine ⟨hgrows', results ++ [result], ?_, ?_⟩
  · rw [hacc, hmessage]
    simp
  · rw [map_append]
    exact rel_append hresults (.cons ⟨hid, hname⟩ .nil)

/-- **The calls of a turn**: the turn is recorded with its calls and their results. -/
theorem after_callsOfTurn (hcalls : calls ≠ []) :
    After env (LoopProgram.callsOfTurn P config state calls) h
      (fun ended h' ↦ Grows (ToolEvent env) h h' ∧ (∀ structured, ended.1 ≠ .stop (.completed structured)) ∧
        ∃ results, Exchange.Matched (.called (calls.map (·.payload P)) results) ∧
          ended.2 = { state with
            history := state.history ++ (Exchange.called (calls.map (·.payload P)) results).messages
            calls := ended.2.calls })
      fun _ h' ↦ Grows (ToolEvent env) h h' ∧ JournalRefused h' := by
  set recorded : Message := ⟨.assistant, .toolCalls (calls.map (·.payload P))⟩ with hrecorded
  set begun : RunLoopState := { state with history := state.history ++ [recorded] } with hbegun
  have hloop : After env (calls.foldlM (LoopProgram.callStep P config) (begun, false)) h
      (Called env P begun h ([] ++ calls)) fun _ h' ↦ Grows (ToolEvent env) h h' ∧ JournalRefused h' :=
    After.foldlM ⟨.refl, [], by simp, .nil⟩ fun _ _ _ _ _ hcalled ↦ after_callStep hcalled
  refine hloop.bind ?_
  rintro acc h' ⟨hgrows, results, hacc, hresults⟩
  refine ⟨hgrows, fun structured hended ↦ ?_, results, ⟨by simpa using hcalls, hresults⟩, ?_⟩
  · have hfatal : (if acc.2 then TurnEnd.stop .fatalToolRefusal else .again) =
        .stop (.completed structured) := hended
    split_ifs at hfatal
    cases hfatal
  · show acc.1 = _
    rw [hacc]
    simp [hbegun, hrecorded, Exchange.messages]

/-! ### One turn -/

/-- The state after a turn that was answered. -/
structure Answered (P : Platform) (called : List (List ToolCallPayload)) (said : Option String)
    (state : RunLoopState) (attemptId : AttemptId) (outcome : SubmitOutcome)
    (state' : RunLoopState) : Prop where
  conversed : Conversed called state'.history
  iterations : state'.iterations = state.iterations
  tokens : state'.totalOutputTokens = (state.charge attemptId outcome).totalOutputTokens
  attempts : state'.attempts = (state.charge attemptId outcome).attempts
  heard : state'.finalText = said.or state.finalText

theorem Answered.hear {called : List (List ToolCallPayload)} (text : Option String)
    (hconversed : Conversed called state.history) :
    Answered P called text state attemptId outcome ((state.charge attemptId outcome).hear text) := by
  rcases text with _ | text
  · exact ⟨hconversed, rfl, rfl, rfl, rfl⟩
  have hmatched : (Exchange.said text).Matched := trivial
  have hsaid := hconversed.snoc hmatched
  rw [Exchange.calls?, Option.toList_none, append_nil] at hsaid
  exact ⟨hsaid, rfl, rfl, rfl, rfl⟩

theorem after_answeredTurn {s : SubmitRequest × AdapterReply}
    {before : List (SubmitRequest × AdapterReply)}
    (hconversed : Conversed (calledIn P before) state.history) :
    After env (LoopProgram.answeredTurn P config state attemptId s.2.events outcome) h
      (fun ended h' ↦ Grows (ToolEvent env) h h' ∧
        Answered P (calledIn P (s :: before)) (saidIn P s) state attemptId outcome ended.2 ∧
        ∀ structured, ended.1 = .stop (.completed structured) → callsIn P s = [] ∧
          endOfTurn config ended.2.finalText outcome.stopReason = ended.1)
      fun exit h' ↦ Grows (ToolEvent env) h h' ∧ LeftFor exit h' := by
  rw [LoopProgram.answeredTurn]
  by_cases hoverflow : 2 ^ 64 ≤ state.totalOutputTokens + outcome.usage.outputTokens.getD 0
  · rw [if_pos hoverflow]
    exact ⟨.refl, .inr (.inl rfl)⟩
  · rw [if_neg hoverflow]
    have hheard : Answered P (calledIn P before) (saidIn P s) state attemptId outcome
        ((state.charge attemptId outcome).hear (saidIn P s)) := .hear _ hconversed
    show After env (ite _ _ _) _ _ _
    split
    · rename_i hcalls
      have hnone : callsIn P s = [] := by
        rw [callsIn, isEmpty_iff.1 hcalls, map_nil]
      refine ⟨.refl, ?_, fun _ _ ↦ ⟨hnone, rfl⟩⟩
      rw [calledIn_cons, hnone, filter_cons_of_neg (by simp), filter_nil, append_nil]
      exact hheard
    · rename_i hcalls
      refine (after_callsOfTurn (by simpa using hcalls)).mono ?_
        fun _ _ hleft ↦ ⟨hleft.1, .inr (.inr hleft.2)⟩
      rintro ended h' ⟨hgrows, hstops, results, hmatched, hended⟩
      refine ⟨hgrows, ?_, fun structured hstop ↦ absurd hstop (hstops structured)⟩
      have hcalled : [callsIn P s].filter (!·.isEmpty) = [callsIn P s] :=
        filter_cons_of_pos (by simpa [callsIn] using hcalls)
      rw [hended, calledIn_cons, hcalled]
      exact ⟨hheard.conversed.snoc hmatched, hheard.iterations, hheard.tokens, hheard.attempts,
        hheard.heard⟩

/-- Where the loop stands when it is about to submit. -/
structure AboutToSubmit (P : Platform) (env : LoopEnvironment) (stable : StablePrefix)
    (task : String) (config : LoopConfig) (n : ℕ) (state : RunLoopState) (h : LoopHistory) : Prop where
  grows : Grows (LoopRule P env stable task config) [] h
  uncancelled : ¬CancelSeen h
  iterations : (submissions h).length + 1 = state.iterations
  left : state.iterations + n = config.ceilings.maxIterations
  tokens : state.totalOutputTokens = knownOutputTokens config.ceilings.maxWallClockMs h
  affordable : ∀ max ∈ config.ceilings.maxOutputTokens, state.totalOutputTokens < max
  attempts : state.attempts =
    ((submissions h).filterMap (recorded config.ceilings.maxWallClockMs)).reverse
  minted : minted h = (submissions h).map (·.1.attemptId)
  conversed : Conversed (calledIn P (submissions h)) state.history
  heard : state.finalText = heard P (submissions h)

theorem Standing.frame (hstanding : Standing P env stable task config n state h₀)
    (hgrows : Grows (ToolEvent env) h₀ h) : Standing P env stable task config n state h := by
  have hframe := Framed.of_grows hgrows
  refine ⟨hstanding.grows.trans (hgrows.mono fun _ _ ↦ loopRule_of_toolEvent), ?_, ?_,
    hstanding.left, ?_, ?_, ?_, ?_, ?_⟩
  · rw [hframe.cancelSeen]
    exact hstanding.uncancelled
  · rw [hframe.submissions]
    exact hstanding.iterations
  · rw [knownOutputTokens, hframe.submissions]
    exact hstanding.tokens
  · rw [hframe.submissions]
    exact hstanding.attempts
  · rw [hframe.minted, hframe.submissions]
    exact hstanding.minted
  · rw [hframe.submissions]
    exact hstanding.conversed
  · rw [hframe.submissions]
    exact hstanding.heard

theorem Left.frame (hleft : Left P env stable task config h₀) (hgrows : Grows (ToolEvent env) h₀ h) :
    Left P env stable task config h := by
  refine ⟨hleft.grows.trans (hgrows.mono fun _ _ ↦ loopRule_of_toolEvent), ?_⟩
  rw [(Framed.of_grows hgrows).submissions]
  exact hleft.count

theorem Standing.ended (hstanding : Standing P env stable task config n state h) :
    Ended P env stable task config state.attempts h where
  grows := hstanding.grows
  count := by
    have hiterations := hstanding.iterations
    have hleft := hstanding.left
    omega
  attempts := hstanding.attempts
  minted := hstanding.minted

theorem Ended.toLeft {attempts : List AttemptUsage} (hended : Ended P env stable task config attempts h) :
    Left P env stable task config h :=
  ⟨hended.grows, hended.count⟩

theorem AboutToSubmit.submitted (hready : AboutToSubmit P env stable task config n state h)
    {submission : AdapterReply} (hminted : env h .mintAttemptId = attemptId)
    (hreply : env (⟨.mintAttemptId, attemptId⟩ :: h) (.submit (LoopProgram.requestFor P stable task config attemptId state.history)) = submission)
    :
    Ended P env stable task config
      (state.attempts ++ (recorded config.ceilings.maxWallClockMs
        (LoopProgram.requestFor P stable task config attemptId state.history, submission)).toList)
      (⟨.submit (LoopProgram.requestFor P stable task config attemptId state.history), submission⟩ ::
        ⟨.mintAttemptId, attemptId⟩ :: h) where
  grows := by
    have hmint : LoopRule P env stable task config h ⟨.mintAttemptId, attemptId⟩ :=
      ⟨hminted.symm, trivial⟩
    refine (hready.grows.cons hmint).cons ⟨hreply.symm, ?_⟩
    exact
      { uncancelled := hready.uncancelled
        count := by
          have hiterations := hready.iterations
          have hleft := hready.left
          show (submissions h).length < _
          omega
        tokens := fun max hmax ↦ by
          show knownOutputTokens _ h < max
          rw [← hready.tokens]
          exact hready.affordable max hmax
        conversed := ⟨state.history, rfl, hready.conversed⟩ }
  count := by
    have hiterations := hready.iterations
    have hleft := hready.left
    show (submissions h).length + 1 ≤ _
    omega
  attempts := by
    show _ = ((_ :: submissions h).filterMap _).reverse
    rw [hready.attempts]
    cases hrecorded : recorded config.ceilings.maxWallClockMs
        (LoopProgram.requestFor P stable task config attemptId state.history, submission) with
    | none => simp [hrecorded]
    | some attempt => simp [hrecorded]
  minted := by
    show attemptId :: FamiliarAi.minted h = _ :: (submissions h).map _
    rw [hready.minted]
    rfl

def TurnOver (P : Platform) (env : LoopEnvironment) (stable : StablePrefix) (task : String)
    (config : LoopConfig) (n : ℕ) (ended : TurnEnd × RunLoopState) (h : LoopHistory) : Prop :=
  match ended.1 with
  | .again => Standing P env stable task config n ended.2 h
  | .stop reason =>
    Ended P env stable task config ended.2.attempts h ∧ CompletedBy P config reason ended.2.finalText h

theorem Standing.turnOver {ended : TurnEnd × RunLoopState}
    (hstanding : Standing P env stable task config n ended.2 h)
    (hcompleted : ∀ reason, ended.1 = .stop reason →
      CompletedBy P config reason ended.2.finalText h) :
    TurnOver P env stable task config n ended h := by
  obtain ⟨reason | _, state⟩ := ended
  · exact ⟨hstanding.ended, hcompleted reason rfl⟩
  · exact hstanding

/-- **A turn.** -/
theorem after_submitTurn (hready : AboutToSubmit P env stable task config n state h) :
    After env (LoopProgram.submitTurn P stable task config state) h
      (TurnOver P env stable task config n) fun exit h' ↦ Left P env stable task config h' ∧ LeftFor exit h' := by
  rw [LoopProgram.submitTurn, after_bind, LoopProgram.mintAttemptId, after_perform]
  generalize hminted : env h .mintAttemptId = attemptId
  rw [after_bind, LoopProgram.submit, after_perform]
  generalize hreply : env _ (.submit _) = submission
  have hsubmitted := hready.submitted hminted hreply
  rw [after_bind, LoopProgram.awaitSubmission]
  split_ifs with hforever
  · exact ⟨hsubmitted.toLeft, .inl rfl⟩
  · show After env (LoopProgram.settleTurn P config state attemptId submission.events
      (submission.answer config.ceilings.maxWallClockMs)) _ _ _
    rcases hanswer : submission.answer config.ceilings.maxWallClockMs with _ | result
    · simp only [recorded, hanswer] at hsubmitted
      exact ⟨hsubmitted, nofun⟩
    cases result with
    | error error =>
      cases error with
      | ambiguous reason =>
        simp only [recorded, hanswer] at hsubmitted
        exact ⟨hsubmitted, nofun⟩
      | retryable kind | nonRetryable kind =>
        simp only [recorded, hanswer, Option.toList_none, append_nil] at hsubmitted
        exact ⟨hsubmitted, nofun⟩
    | ok outcome =>
      set s := (LoopProgram.requestFor P stable task config attemptId state.history, submission)
        with hs
      refine (after_answeredTurn (s := s) hready.conversed).mono ?_
        fun _ _ hleft ↦ ⟨hsubmitted.toLeft.frame hleft.1, hleft.2⟩
      rintro ended h' ⟨hgrows, hanswered, hends⟩
      have hheard : ended.2.finalText = heard P (s :: submissions h) := by
        rw [hanswered.heard, hready.heard, heard, heard, findSome?_cons]
        cases saidIn P s <;> rfl
      refine Standing.turnOver (Standing.frame ?_ hgrows) fun reason hreason structured hstop ↦ ?_
      · refine ⟨hsubmitted.grows, hready.uncancelled, ?_, ?_, ?_, ?_, hsubmitted.minted,
          hanswered.conversed, hheard⟩
        · rw [hanswered.iterations, ← hready.iterations]
          rfl
        · rw [hanswered.iterations]
          exact hready.left
        · show _ = submission.knownOutputTokens _ + knownOutputTokens _ h
          rw [hanswered.tokens, AdapterReply.knownOutputTokens, hanswer, ← hready.tokens]
          exact Nat.add_comm ..
        · rw [hanswered.attempts, ← hsubmitted.attempts]
          simp only [recorded, hs, hanswer]
          rfl
      · obtain ⟨hnone, hend⟩ := hends structured (hreason.trans (congrArg _ hstop))
        refine ⟨s, submissions h, outcome, ?_, hanswer, hnone, hend.trans hreason, hheard⟩
        rw [(Framed.of_grows hgrows).submissions]
        rfl

theorem Standing.looked (hstanding : Standing P env stable task config n state h)
    (hanswer : env h .isCancelled = false) :
    Standing P env stable task config n state (⟨.isCancelled, false⟩ :: h) where
  grows := by
    have hlook : LoopRule P env stable task config h ⟨.isCancelled, false⟩ :=
      ⟨hanswer.symm, trivial⟩
    exact hstanding.grows.cons hlook
  uncancelled := by
    rintro (htrue | hseen)
    · cases htrue
    · exact hstanding.uncancelled hseen
  iterations := hstanding.iterations
  left := hstanding.left
  tokens := hstanding.tokens
  attempts := hstanding.attempts
  minted := hstanding.minted
  conversed := hstanding.conversed
  heard := hstanding.heard

theorem Standing.cancelled (hstanding : Standing P env stable task config n state h)
    (hanswer : env h .isCancelled = true) :
    Ended P env stable task config state.attempts (⟨.isCancelled, true⟩ :: h) := by
  have hlook : LoopRule P env stable task config h ⟨.isCancelled, true⟩ := ⟨hanswer.symm, trivial⟩
  have hended := hstanding.ended
  exact ⟨hended.grows.cons hlook, hended.count, hended.attempts, hended.minted⟩

theorem after_beginTurn (hstanding : Standing P env stable task config n state h) :
    After env (LoopProgram.beginTurn state) h
      (fun begins h' ↦ if begins then Standing P env stable task config n state h'
        else Ended P env stable task config state.attempts h')
      fun exit h' ↦ Left P env stable task config h' ∧ LeftFor exit h' := by
  rw [LoopProgram.beginTurn, after_bind, LoopProgram.isCancelled, after_perform]
  cases hanswer : env h .isCancelled with
  | true => exact hstanding.cancelled hanswer
  | false =>
    have hlooked := hstanding.looked hanswer
    rw [if_neg Bool.false_ne_true]
    split_ifs with hoverflow
    · exact ⟨hlooked.ended.toLeft, .inr (.inl rfl)⟩
    · exact hlooked

theorem Standing.ready (hstanding : Standing P env stable task config (n + 1) state h)
    (hroom : ¬config.ceilings.maxOutputTokens.any (· ≤ state.totalOutputTokens)) :
    AboutToSubmit P env stable task config n { state with iterations := state.iterations + 1 } h where
  grows := hstanding.grows
  uncancelled := hstanding.uncancelled
  iterations := by rw [hstanding.iterations]
  left := by
    have hleft := hstanding.left
    show state.iterations + 1 + n = _
    omega
  tokens := hstanding.tokens
  affordable := by
    intro max hmax
    rw [Option.mem_def.1 hmax] at hroom
    simpa using hroom
  attempts := hstanding.attempts
  minted := hstanding.minted
  conversed := hstanding.conversed
  heard := hstanding.heard

/-- **The turns of the loop**, from any state that it can stand in. -/
theorem after_turns (hstanding : Standing P env stable task config n state h) :
    After env (LoopProgram.turns P stable task config n state) h
      (fun ended h' ↦ Ended P env stable task config ended.2.attempts h' ∧
        CompletedBy P config ended.1 ended.2.finalText h')
      fun exit h' ↦ Left P env stable task config h' ∧ LeftFor exit h' := by
  induction n generalizing state h with
  | zero =>
    refine (after_beginTurn hstanding).bind fun begins h' hbegins ↦ ?_
    cases begins with
    | true => exact ⟨Standing.ended hbegins, nofun⟩
    | false => exact ⟨hbegins, nofun⟩
  | succ n ih =>
    refine (after_beginTurn hstanding).bind fun begins h' hbegins ↦ ?_
    rcases begins with _ | _
    · exact ⟨hbegins, nofun⟩
    have hstands : Standing P env stable task config (n + 1) state h' := hbegins
    rw [if_pos rfl]
    show After env (ite _ _ _) _ _ _
    split_ifs with hroom
    · exact ⟨hstands.ended, nofun⟩
    · refine (after_submitTurn (hstands.ready hroom)).bind ?_
      rintro ⟨_ | _, state'⟩ h'' hover
      · exact hover
      · exact ih hover

theorem Standing.initial :
    Standing P env stable task config config.ceilings.maxIterations {} [] :=
  ⟨.refl, id, rfl, Nat.zero_add _, rfl, rfl, rfl, .nil, rfl⟩

/-- **The loop.** -/
theorem after_runLoop :
    After env (LoopProgram.runLoop P stable task config) []
      (fun outcome h' ↦ Ended P env stable task config outcome.attempts h' ∧
        CompletedBy P config outcome.stopReason outcome.finalText h')
      fun exit h' ↦ Left P env stable task config h' ∧ LeftFor exit h' := by
  refine (after_turns Standing.initial).bind fun ended h' ⟨hended, hcompleted⟩ ↦ ?_
  rw [after_bind, LoopProgram.journalLength, after_perform]
  have hlength : LoopRule P env stable task config h' ⟨.journalLength, env h' .journalLength⟩ :=
    ⟨rfl, trivial⟩
  exact ⟨⟨hended.grows.cons hlength, hended.count, hended.attempts, hended.minted⟩, hcompleted⟩

end

end FamiliarAi
