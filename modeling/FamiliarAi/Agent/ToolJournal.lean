import FamiliarAi.Agent.Ceilings
import FamiliarAi.Transition.System
import Mathlib.Data.List.Infix

/-!
# The write-ahead journal of tool calls

The journal of an execution holds an intent and a result for each call id, and it is shared by all runs
of the loop for that execution: implementation, review, remediation and restarts after a crash.

A call is executed only right after its intent was written, and an id gets one intent, so nothing that
the journal knows is executed again. But the journal knows calls by ids that the model chooses. A call
with the id of an earlier one is answered with the earlier result, whatever it asks for. And a call
whose intent has no result, because the process stopped in between, cannot write its intent again, and
the loop panics. The journal does what it is for in every run whose calls reuse an id only for the same
call, after its result was recorded (`journal_kept`).
-/

namespace FamiliarAi

open Interaction Program Transition List Except

/-- The journal of one execution: its intents and its results, one of each for a call id. -/
structure ToolJournal where
  intents : List JournalIntent := []
  results : List (String × JournalResult) := []

namespace ToolJournal

def resultFor (J : ToolJournal) (callId : String) : Option JournalResult :=
  (J.results.find? (·.1 = callId)).map (·.2)

def Fresh (J : ToolJournal) (callId : String) : Prop :=
  ∀ intent ∈ J.intents, intent.callId ≠ callId

instance (J : ToolJournal) (callId : String) : Decidable (J.Fresh callId) :=
  inferInstanceAs (Decidable (∀ intent ∈ J.intents, intent.callId ≠ callId))

def record (J : ToolJournal) : RunLoopEvent → ToolJournal
  | ⟨.recordIntent intent, .ok ()⟩ => { J with intents := J.intents ++ [intent] }
  | ⟨.recordResult callId result, .ok ()⟩ => { J with results := J.results ++ [(callId, result)] }
  | _ => J

def after (J : ToolJournal) : LoopHistory → ToolJournal
  | [] => J
  | e :: h => (J.after h).record e

end ToolJournal

/-- The parties read and write this journal. Any access may fail. -/
structure JournalLaw (J : ToolJournal) (env : LoopEnvironment) : Prop where
  resultFor : ∀ h callId result, env h (.resultFor callId) = .ok result →
    result = (J.after h).resultFor callId
  recordIntent : ∀ h intent, env h (.recordIntent intent) = .ok () → (J.after h).Fresh intent.callId
  recordResult : ∀ h callId result, env h (.recordResult callId result) = .ok () →
    (J.after h).resultFor callId = none

/-- No access fails but one that a constraint of the tables refuses. -/
structure Faultless (J : ToolJournal) (env : LoopEnvironment) : Prop where
  resultFor : ∀ h callId message, env h (.resultFor callId) ≠ .error message
  recordIntent : ∀ h intent, (J.after h).Fresh intent.callId → env h (.recordIntent intent) = .ok ()

/-- The database could not be opened: every call is said to have failed, and nothing is written. -/
structure Unopened (env : LoopEnvironment) : Prop where
  resultFor : ∀ h callId, ∃ detail, env h (.resultFor callId) = .ok (some (.failed detail))
  recordIntent : ∀ h intent, ∃ message, env h (.recordIntent intent) = .error message
  recordResult : ∀ h callId result, ∃ message, env h (.recordResult callId result) = .error message

/-- A run of the loop for the execution, which may stop before its last events. -/
structure LoopSession where
  platform : Platform
  stable : StablePrefix
  task : String
  config : LoopConfig
  env : LoopEnvironment
  /-- How many of the events at the end did not come about. -/
  lost : ℕ

namespace LoopSession

def whole (session : LoopSession) : LoopRun :=
  runLoopIn session.platform session.stable session.task session.config session.env

def performed (session : LoopSession) : LoopHistory :=
  session.whole.2.drop session.lost

end LoopSession

/-- The runs of one execution, one after the other, on its journal. -/
def sharing : System ToolJournal LoopSession where
  start J := J = {}
  step J session := some (J.after session.performed)

def Knows (J : ToolJournal) (call : ValidatedCall) : Prop :=
  ∃ intent ∈ J.intents, intent.callId = call.callId ∧ intent.capability = call.capability ∧
    intent.argumentHash = call.argumentHash

/-- If the journal has an intent for the id of the call, it is one of the same call, and its result is
recorded. -/
def Consistent (J : ToolJournal) (call : ValidatedCall) : Prop :=
  ¬J.Fresh call.callId → Knows J call ∧ (J.resultFor call.callId).isSome

/-- A run against the journal whose authorised calls are all consistent with it. -/
structure ConsistentRun (J : ToolJournal) (session : LoopSession) : Prop where
  law : JournalLaw J session.env ∨ Unopened session.env
  consistent : ∀ call context before,
    ⟨.authorize call context, AuthorizationDecision.authorized⟩ :: before <:+ session.performed →
      Consistent (J.after before) call

/-- What the journal is for, of one run that starts from it. -/
structure KeepsJournal (J : ToolJournal) (session : LoopSession) : Prop where
  intended : ∀ call context answer before,
    ⟨.execute call context, answer⟩ :: before <:+ session.performed → Knows (J.after before) call
  once : ∀ call context answer before,
    ⟨.execute call context, answer⟩ :: before <:+ session.performed →
      ∃ intent rest, before = ⟨.recordIntent intent, ok ()⟩ :: rest ∧
        intent.callId = call.callId ∧ (J.after rest).Fresh call.callId
  resumed : ∀ call result before, JustAuthorized call before →
    ⟨.resultFor call.callId, ok (some result)⟩ :: before <:+ session.performed →
      (∃ hash, result = .succeeded hash) ∨ (call.callId, result) ∈ (J.after before).results →
        Knows (J.after before) call
  /-- Without a fault of the journal, the loop does not panic over a call. -/
  calm : session.lost = 0 → Faultless J session.env → ∀ message,
    session.whole.1 = .error (.panicked message) → message = "attempt to add with overflow"

section

variable {J : ToolJournal} {P : Platform} {env : LoopEnvironment} {stable : StablePrefix}
  {task : String} {config : LoopConfig} {h : LoopHistory} {call : ValidatedCall}
  {session : LoopSession} {before : LoopHistory}

/-- Every result has its intent. -/
def Backed (J : ToolJournal) : Prop :=
  ∀ entry ∈ J.results, ¬J.Fresh entry.1

theorem knows_of_justIntended (hintended : JustIntended call h) : Knows (J.after h) call := by
  obtain ⟨capability, rest, rfl, -⟩ := hintended
  exact ⟨call.intent capability, mem_append_right _ (mem_singleton_self _), rfl, rfl, rfl⟩

theorem Knows.not_fresh (hknows : Knows J call) : ¬J.Fresh call.callId := by
  obtain ⟨intent, hintent, hid, -⟩ := hknows
  exact fun hfresh ↦ hfresh intent hintent hid

theorem backed_record_intent (hJ : Backed J) (intent : JournalIntent) :
    Backed { J with intents := J.intents ++ [intent] } := fun entry hentry hfresh ↦
  hJ entry hentry fun i hi ↦ hfresh i (mem_append_left _ hi)

theorem backed_after (hJ : Backed J) (hgrows : Grows (LoopRule P env stable task config) [] h) :
    Backed (J.after h) := by
  induction hgrows with
  | refl => exact hJ
  | @cons h e _ he ih =>
    obtain ⟨op, answer⟩ := e
    cases op with
    | recordIntent intent =>
      rcases answer with message | ⟨⟩
      · exact ih
      · exact backed_record_intent ih intent
    | recordResult callId result =>
      rcases answer with message | ⟨⟩
      · exact ih
      · obtain ⟨call, context, reply, rest, rfl, rfl, hintended⟩ := he.2
        intro entry hentry
        rcases mem_append.1 hentry with hentry | hentry
        · exact ih entry hentry
        · obtain rfl := mem_singleton.1 hentry
          exact (knows_of_justIntended hintended).not_fresh
    | isCancelled | mintAttemptId | submit | authorize | resultFor | execute | journalLength => exact ih

theorem LoopSession.grows (session : LoopSession) :
    Grows (LoopRule session.platform session.env session.stable session.task session.config) []
      session.performed := by
  have hleft : Left session.platform session.env session.stable session.task session.config session.whole.2 :=
    runLoopIn_left
  exact hleft.grows.of_suffix nil_suffix (drop_suffix _ _)

theorem LoopSession.allowed {e : RunLoopEvent} (hsuffix : e :: before <:+ session.performed) :
    LoopRule session.platform session.env session.stable session.task session.config before e :=
  session.grows.allowed hsuffix nil_suffix

theorem executes_once (hlaw : JournalLaw J session.env ∨ Unopened session.env)
    {context : AuthorityContext} {answer : Except ExecutionError ExecutionOutcome}
    (hsuffix : ⟨.execute call context, answer⟩ :: before <:+ session.performed) :
    ∃ intent rest, before = ⟨.recordIntent intent, ok ()⟩ :: rest ∧
      intent.callId = call.callId ∧ (J.after rest).Fresh call.callId := by
  have hintended : JustIntended call before := (LoopSession.allowed hsuffix).2
  obtain ⟨capability, rest, rfl, -⟩ := hintended
  have hwritten : ok () = session.env rest (.recordIntent (call.intent capability)) :=
    (LoopSession.allowed ((suffix_cons _ _).trans hsuffix)).1
  refine ⟨_, rest, rfl, rfl, ?_⟩
  rcases hlaw with hlaw | hunopened
  · exact hlaw.recordIntent rest _ hwritten.symm
  · obtain ⟨message, hmessage⟩ := hunopened.recordIntent rest (call.intent capability)
    cases hwritten.trans hmessage

theorem resumes_same (hJ : Backed J) (hrun : ConsistentRun J session) {result : JournalResult}
    (hauthorized : JustAuthorized call before)
    (hsuffix : ⟨.resultFor call.callId, ok (some result)⟩ :: before <:+ session.performed)
    (hresult : (∃ hash, result = .succeeded hash) ∨ (call.callId, result) ∈ (J.after before).results)
    :
    Knows (J.after before) call := by
  have hread : ok (some result) = session.env before (.resultFor call.callId) :=
    (LoopSession.allowed hsuffix).1
  have hbefore : before <:+ session.performed := (suffix_cons _ _).trans hsuffix
  have hmem : ∃ entry ∈ (J.after before).results, entry.1 = call.callId := by
    rcases hresult with ⟨hash, rfl⟩ | hmem
    · rcases hrun.law with hlaw | hunopened
      · have hfound := hlaw.resultFor before call.callId _ hread.symm
        obtain ⟨entry, hentry, -⟩ := Option.map_eq_some_iff.1 hfound.symm
        exact ⟨entry, mem_of_find?_eq_some hentry, by simpa using find?_some hentry⟩
      · obtain ⟨detail, hdetail⟩ := hunopened.resultFor before call.callId
        cases hread.trans hdetail
    · exact ⟨_, hmem, rfl⟩
  obtain ⟨entry, hentry, hid⟩ := hmem
  have hbacked : Backed (J.after before) :=
    backed_after hJ (session.grows.of_suffix nil_suffix hbefore)
  obtain ⟨context, rest, rfl⟩ := hauthorized
  exact (hrun.consistent call context rest hbefore (hid ▸ hbacked entry hentry)).1

theorem stays_calm (hrun : ConsistentRun J session) (hlost : session.lost = 0)
    (hfaultless : Faultless J session.env) {message : String}
    (hpanic : session.whole.1 = .error (.panicked message)) :
    message = "attempt to add with overflow" := by
  have hwhole : session.performed = session.whole.2 := by
    rw [LoopSession.performed, hlost, drop_zero]
  rcases runLoopIn_leftFor hpanic with hunanswered | hoverflow | hrefused
  · cases hunanswered
  · exact LoopExit.panicked.inj hoverflow
  · exfalso
    change JournalRefused session.whole.2 at hrefused
    rw [← hwhole] at hrefused
    rcases hrefused with ⟨callId, detail, rest, hlast⟩ | ⟨intent, detail, rest, hlast⟩
    · have hread := (LoopSession.allowed (hlast ▸ suffix_refl _ :
        ⟨.resultFor callId, error detail⟩ :: rest <:+ session.performed)).1
      exact hfaultless.resultFor rest callId detail hread.symm
    · have hsuffix : ⟨.recordIntent intent, error detail⟩ :: rest <:+ session.performed :=
        hlast ▸ suffix_refl _
      have hwritten : error detail = session.env rest (.recordIntent intent) :=
        (LoopSession.allowed hsuffix).1
      obtain ⟨call, capability, rfl, -, -, rest', rfl, context, rest'', rfl⟩ :=
        (LoopSession.allowed hsuffix).2
      have hsuffix' := (suffix_cons _ _).trans hsuffix
      have hread : ok none = session.env _ (.resultFor call.callId) :=
        (LoopSession.allowed hsuffix').1
      rcases hrun.law with hlaw | hunopened
      · -- the journal knows no result of the call, so it has no intent of its id either
        have hnone := hlaw.resultFor _ _ _ hread.symm
        have hfresh : (J.after rest'').Fresh call.callId := by
          by_contra hused
          have hsome := (hrun.consistent call context rest''
            ((suffix_cons _ _).trans hsuffix') hused).2
          rw [show (J.after rest'').resultFor call.callId = none from hnone.symm] at hsome
          cases hsome
        have hok := hfaultless.recordIntent (⟨.resultFor call.callId, ok none⟩ ::
          ⟨.authorize call context, .authorized⟩ :: rest'') (call.intent capability) hfresh
        cases hwritten.trans hok
      · obtain ⟨reason, hreason⟩ := hunopened.resultFor _ call.callId
        cases hread.trans hreason

end

/-- **The journal of an execution.** In every sequence of runs whose calls are consistent with the
journal, each run writes the intent of a call before it executes it, executes nothing that the journal
knows, answers a call from the journal only with a result of the same call, and does not panic over a
call. -/
theorem journal_kept (J : ToolJournal) (hJ : sharing.Reaches ConsistentRun J)
    (session : LoopSession) (hrun : ConsistentRun J session) : KeepsJournal J session := by
  have hbacked : Backed J := by
    refine hJ.invariant ?_ ?_
    · rintro J rfl entry hentry
      cases hentry
    · rintro J session J' hJ - hstep
      obtain rfl := Option.some.inj hstep
      exact backed_after hJ session.grows
  exact
    { intended := fun call context answer before hsuffix ↦
        knows_of_justIntended (LoopSession.allowed hsuffix).2
      once := fun call context answer before hsuffix ↦ executes_once hrun.law hsuffix
      resumed := fun call result before hauthorized hsuffix hresult ↦
        resumes_same hbacked hrun hauthorized hsuffix hresult
      calm := fun hlost hfaultless message hpanic ↦ stays_calm hrun hlost hfaultless hpanic }

/-- A platform where a message stands for the arguments that hold it, and for their hash. -/
def messagePlatform : Platform where
  parseJson text := some (.object [("message", .string text)])
  printJson value := ((value.get? "message").bind JsonValue.asStr?).getD ""
  sha256Hex text := text
  debugStr text := text

/-- Parties on this journal where the first turn makes these calls, each with its message. -/
def workingOn (J : ToolJournal) (calls : List (String × String)) : LoopEnvironment
  | h, .submit _ =>
    if (submissions h).isEmpty then
      ⟨calls.flatMap fun call ↦
        [.toolCallDelta call.1 "report-progress" call.2, .toolCallComplete call.1], some 1,
        .ok ⟨.toolUse, { outputTokens := some 1 }, none⟩⟩
    else ⟨[.textDelta "done"], some 1, .ok ⟨.endTurn, { outputTokens := some 1 }, none⟩⟩
  | h, .isCancelled => answering overloaded h .isCancelled
  | h, .mintAttemptId => answering overloaded h .mintAttemptId
  | _, .authorize .. => .authorized
  | h, .resultFor callId => .ok ((J.after h).resultFor callId)
  | h, .recordIntent intent =>
    if (J.after h).Fresh intent.callId then .ok () else .error "UNIQUE constraint failed"
  | _, .execute call _ => .ok ⟨"noted", call.argumentHash⟩
  | h, .recordResult callId _ =>
    if (J.after h).resultFor callId = none then .ok () else .error "UNIQUE constraint failed"
  | h, .journalLength => (J.after h).intents.length

theorem workingOn_law (J : ToolJournal) (calls : List (String × String)) :
    JournalLaw J (workingOn J calls) where
  resultFor h callId result hread := (ok.inj hread).symm
  recordIntent h intent hwrite := by
    by_contra hused
    rw [workingOn, if_neg hused] at hwrite
    cases hwrite
  recordResult h callId result hwrite := by
    by_contra hused
    rw [workingOn, if_neg hused] at hwrite
    cases hwrite

/-- A run that makes these calls in its first turn and stops this many events before its end. -/
def working (J : ToolJournal) (calls : List (String × String)) (lost : ℕ) : LoopSession :=
  ⟨messagePlatform, ⟨"", "none"⟩, "task",
    { briefLoop with ceilings := ⟨2, none, none⟩, offeredCapabilities := [.reportProgress] },
    workingOn J calls, lost⟩

def JustConsistent (J : ToolJournal) : LoopHistory → Prop
  | ⟨.authorize call _, .authorized⟩ :: before => Consistent (J.after before) call
  | _ => True

instance (J : ToolJournal) (call : ValidatedCall) : Decidable (Consistent J call) :=
  inferInstanceAs (Decidable (¬J.Fresh call.callId →
    (∃ intent ∈ J.intents, intent.callId = call.callId ∧ intent.capability = call.capability ∧
      intent.argumentHash = call.argumentHash) ∧ (J.resultFor call.callId).isSome))

instance (J : ToolJournal) : DecidablePred (JustConsistent J)
  | [] => .isTrue trivial
  | ⟨.authorize call _, .authorized⟩ :: before =>
    inferInstanceAs (Decidable (Consistent (J.after before) call))
  | ⟨.authorize .., .refused ..⟩ :: _ => .isTrue trivial
  | ⟨.isCancelled, _⟩ :: _ | ⟨.mintAttemptId, _⟩ :: _ | ⟨.submit _, _⟩ :: _
  | ⟨.resultFor _, _⟩ :: _ | ⟨.recordIntent _, _⟩ :: _ | ⟨.execute .., _⟩ :: _
  | ⟨.recordResult .., _⟩ :: _ | ⟨.journalLength, _⟩ :: _ => .isTrue trivial

theorem consistentRun_of_tails {J : ToolJournal} {session : LoopSession}
    (hlaw : JournalLaw J session.env)
    (htails : ∀ h ∈ session.performed.tails, JustConsistent J h) : ConsistentRun J session where
  law := .inl hlaw
  consistent call context before hsuffix :=
    htails (⟨.authorize call context, .authorized⟩ :: before) ((mem_tails _ _).2 hsuffix)

/-- The journal after a run that made one call. -/
def journalOfOne : ToolJournal :=
  ToolJournal.after {} (working {} [("a", "half")] 0).performed

theorem consistent_working_one : ConsistentRun {} (working {} [("a", "half")] 0) :=
  consistentRun_of_tails (workingOn_law _ _) (by decide)

theorem consistent_working_again :
    ConsistentRun journalOfOne (working journalOfOne [("a", "half"), ("b", "full")] 0) :=
  consistentRun_of_tails (workingOn_law _ _) (by decide)

/-- The next run repeats the call and makes another. -/
theorem journal_kept_again :
    KeepsJournal journalOfOne (working journalOfOne [("a", "half"), ("b", "full")] 0) :=
  journal_kept journalOfOne (.step (.start rfl) consistent_working_one rfl)
    (working journalOfOne [("a", "half"), ("b", "full")] 0) consistent_working_again

/-- Against the journal, with no condition on the calls. -/
def LawfulRun (J : ToolJournal) (session : LoopSession) : Prop :=
  JournalLaw J session.env ∨ Unopened session.env

/-- Another call under the same id is answered as if it had been executed. -/
theorem journal_not_kept :
    ¬∀ J, sharing.Reaches LawfulRun J → ∀ session, LawfulRun J session → KeepsJournal J session := by
  intro h
  have hkept := h journalOfOne (.step (.start rfl) (.inl (workingOn_law _ _)) rfl)
    (working journalOfOne [("a", "full")] 0) (.inl (workingOn_law _ _))
  have hknows := hkept.resumed
    ⟨"a", .reportProgress, .object [("message", .string "full")], "full"⟩ (.succeeded "half")
    ((working journalOfOne [("a", "full")] 0).performed.drop 5)
    ⟨⟨"project", "execution", "0", "worker"⟩,
      (working journalOfOne [("a", "full")] 0).performed.drop 6, rfl⟩
    (drop_suffix 4 (working journalOfOne [("a", "full")] 0).performed) (.inl ⟨_, rfl⟩)
  revert hknows
  show ¬(∃ intent ∈ journalOfOne.intents, _ ∧ _ ∧ _)
  decide

end FamiliarAi
