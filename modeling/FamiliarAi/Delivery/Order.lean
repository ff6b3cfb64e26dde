import FamiliarAi.Delivery.Deliver

/-!
# The order of delivery

Over any calls on one journal, with any command and any write failing and the process stopping anywhere,
the commands come in the order of delivery: a step is only taken over the success of those that it
builds on.

What is done is told by the phase in the journal. Over calls in which no probe is refused and no manual
policy meets a merged change, the rank of the phase only drops when staging is rolled back, and what the
journal says to be done is not done again.
-/

namespace FamiliarAi

namespace Delivery

open Interaction Program List

abbrev DeliveryEvent := Event DeliveryOp DeliveryAnswer

abbrev DeliveryHistory := History DeliveryOp DeliveryAnswer

/-! ### What a history tells -/

def stepOf : DeliveryEvent → Option DeliveryStep
  | ⟨.command step _ _ _, _⟩ => some step
  | _ => none

def succeeded : DeliveryEvent → Option (DeliveryStep × CommandOutput)
  | ⟨.command step _ _ _, .exited output⟩ => if output.success then some (step, output) else none
  | _ => none

def written : DeliveryEvent → Option DeliveryJournal
  | ⟨.persist journal, .written⟩ => some journal
  | ⟨.persist journal, .stopped true⟩ => some journal
  | _ => none

/-- A call has begun to read the journal. -/
def isLoad : DeliveryEvent → Bool
  | ⟨.load, _⟩ => true
  | _ => false

/-- The journal that the file holds. -/
def journalOf (h : DeliveryHistory) : Option DeliveryJournal :=
  h.findSome? written

/-- The rank of the journaled phase. -/
def rankOf (h : DeliveryHistory) : ℕ :=
  ((journalOf h).map fun journal ↦ rank journal.phase).getD 0

/-- What was performed in the last call. -/
def sinceLoad (h : DeliveryHistory) : DeliveryHistory :=
  h.takeWhile fun e ↦ !isLoad e

/-- The command of the step has succeeded. -/
def Did (step : DeliveryStep) (h : DeliveryHistory) : Prop :=
  ∃ e ∈ h, ∃ output, succeeded e = some (step, output)

/-- The account is the one that the probe asked about. -/
def confirms (account : String) (output : CommandOutput) : Bool :=
  decide (String.ofList (Text.trim output.stdout.toList) = account)

/-- The probe has answered the declared account. -/
def ProbePassed (h : DeliveryHistory) : Prop :=
  ∃ e ∈ h, ∃ account output, succeeded e = some (.accountProbe account, output) ∧
    confirms account output = true

def refuses : DeliveryEvent → Bool
  | ⟨.command (.accountProbe account) _ _ _, .exited output⟩ =>
    !(output.success && confirms account output)
  | ⟨.command (.accountProbe _) _ _ _, .failed _⟩ => true
  | _ => false

/-- The staged change was looked at after everything was added, and a migration in it has passed the
gate. -/
def Inspected (h : DeliveryHistory) : Prop :=
  ∃ e before output, e :: before <:+ h ∧ succeeded e = some (.stagedNames, output) ∧
    Did .addAll before ∧ ((stagedMigration output.stdout).isSome = true → Did .migrationGate h)

def Permitted (h : DeliveryHistory) : DeliveryStep → Prop
  | .commit => rankOf h < 1 ∧ Inspected h
  | .push => rankOf h < 2 ∧ Did .commit h
  | .publish => rankOf h < 3 ∧ Did .push h ∧ ProbePassed (sinceLoad h)
  | .merge required => rankOf h < 4 ∧ Did .waitChecks (sinceLoad h) ∧
      ∀ check ∈ required, Did (.checkNamed check) (sinceLoad h)
  | .deploy => ∃ required, Did (.merge required) h
  | .smoke => Did .deploy h
  | _ => True

/-- Since `h₀`, a probe was refused. -/
def RefusedSince (h₀ h : DeliveryHistory) : Prop :=
  ∃ e before, e :: before <:+ h ∧ h₀ <:+ before ∧ refuses e = true

/-- How a phase may follow in a call that has begun at `h₀`. -/
def MayEnter (policy : DeliveryConfig) (h₀ h : DeliveryHistory) (phase : String) : Prop :=
  rankOf h ≤ rank phase ∨
    phase = "staging_rolled_back" ∧ 4 ≤ rankOf h ∨
    RefusedSince h₀ h ∨
    policy.mode = .reviewedPrManual ∧ 4 ≤ rankOf h₀

/-- What a call that has begun at `h₀` may do. The environment answers it. -/
structure Lawful (env : Environment DeliveryOp DeliveryAnswer) (policy : DeliveryConfig)
    (h₀ h : DeliveryHistory) (e : DeliveryEvent) : Prop where
  answered : e.answer = env h e.op
  permitted : ∀ step, stepOf e = some step → Permitted h step
  enters : ∀ journal, written e = some journal → MayEnter policy h₀ h journal.phase

/-- What a rank stands for. -/
structure Backed (r : ℕ) (h : DeliveryHistory) : Prop where
  committed : 1 ≤ r → Did .commit h
  pushed : 2 ≤ r → Did .push h
  merged : 4 ≤ r → ∃ required, Did (.merge required) h
  deployed : 5 ≤ r → Did .deploy h

/-- A call has kept to the rules, and the journal says no more than what was done. -/
structure Kept (env : Environment DeliveryOp DeliveryAnswer) (policy : DeliveryConfig) (h₀ h : DeliveryHistory) : Prop where
  lawful : Grows (Lawful env policy h₀) h₀ h
  backed : Backed (rankOf h) h

/-- The call goes on, with the phase that the file holds. -/
structure Going (env : Environment DeliveryOp DeliveryAnswer) (policy : DeliveryConfig)
    (h₀ : DeliveryHistory) (journal : DeliveryJournal) (h : DeliveryHistory) : Prop extends
    Kept env policy h₀ h where
  phase : rankOf h = rank journal.phase

section Events

variable {policy : DeliveryConfig} {h h₀ : DeliveryHistory} {e : DeliveryEvent} {step : DeliveryStep}
  {journal : DeliveryJournal} {r : ℕ}

theorem Did.cons (hdid : Did step h) : Did step (e :: h) := by
  obtain ⟨e', he', hsucceeded⟩ := hdid
  exact ⟨e', mem_cons_of_mem _ he', hsucceeded⟩

theorem Did.of_head {output : CommandOutput} (he : succeeded e = some (step, output)) :
    Did step (e :: h) :=
  ⟨e, mem_cons_self, output, he⟩

theorem Backed.cons (hbacked : Backed r h) : Backed r (e :: h) where
  committed hr := (hbacked.committed hr).cons
  pushed hr := (hbacked.pushed hr).cons
  merged hr := by
    obtain ⟨required, hmerged⟩ := hbacked.merged hr
    exact ⟨required, hmerged.cons⟩
  deployed hr := (hbacked.deployed hr).cons

theorem Backed.mono {r' : ℕ} (hbacked : Backed r h) (hr : r' ≤ r) : Backed r' h where
  committed h' := hbacked.committed (by omega)
  pushed h' := hbacked.pushed (by omega)
  merged h' := hbacked.merged (by omega)
  deployed h' := hbacked.deployed (by omega)

theorem rankOf_of_written_none (he : written e = none) : rankOf (e :: h) = rankOf h := by
  rw [rankOf, journalOf, findSome?_cons, he]
  rfl

theorem rankOf_of_written (he : written e = some journal) : rankOf (e :: h) = rank journal.phase := by
  rw [rankOf, journalOf, findSome?_cons, he]
  rfl

theorem mem_sinceLoad_cons (he : isLoad e = false) {e' : DeliveryEvent} (h' : e' ∈ sinceLoad h) :
    e' ∈ sinceLoad (e :: h) := by
  rw [sinceLoad, takeWhile_cons, if_pos (by rw [he]; rfl)]
  exact mem_cons_of_mem _ h'

theorem head_mem_sinceLoad (he : isLoad e = false) : e ∈ sinceLoad (e :: h) := by
  rw [sinceLoad, takeWhile_cons, if_pos (by rw [he]; rfl)]
  exact mem_cons_self

theorem Did.sinceLoad_cons (he : isLoad e = false) (hdid : Did step (sinceLoad h)) :
    Did step (sinceLoad (e :: h)) := by
  obtain ⟨e', he', hsucceeded⟩ := hdid
  exact ⟨e', mem_sinceLoad_cons he he', hsucceeded⟩

end Events

/-! ### Commands and writes -/

/-- What a checked command makes of its answer. -/
inductive Checks : CommandAnswer → Except String CommandOutput → Prop
  | ok {output : CommandOutput} (hsuccess : output.success = true) : Checks (.exited output) (.ok output)
  | refused {output : CommandOutput} {error : String} (hsuccess : output.success = false) :
      Checks (.exited output) (.error error)
  | failed {error : String} : Checks (.failed error) (.error error)

section Parts

variable {env : Environment DeliveryOp DeliveryAnswer} {host : DeliveryHost}
  {policy : DeliveryConfig} {h h₀ : DeliveryHistory} {step : DeliveryStep} {directory : String}
  {argv : List String} {vars : List (String × String)} {journal : DeliveryJournal}
  {change : ChangeRequestId} {identity : DeliveryIdentityConfig} {branch : String} {α : Type}
  {answer : CommandAnswer} {repository : String} {Q : α → DeliveryHistory → Prop}

theorem Kept.command (hkept : Kept env policy h₀ h) (hpermitted : Permitted h step)
    (hanswer : env h (.command step directory argv vars) = answer) :
    Kept env policy h₀ (⟨.command step directory argv vars, answer⟩ :: h) where
  lawful := by
    refine .cons hkept.lawful ⟨hanswer.symm, fun step' hstep ↦ ?_, fun journal hwritten ↦ by cases hwritten⟩
    cases hstep
    exact hpermitted
  backed := hkept.backed.cons

theorem Going.command (hgoing : Going env policy h₀ journal h) (hpermitted : Permitted h step)
    (hanswer : env h (.command step directory argv vars) = answer) :
    Going env policy h₀ journal (⟨.command step directory argv vars, answer⟩ :: h) :=
  ⟨hgoing.toKept.command hpermitted hanswer, hgoing.phase⟩

theorem after_checkedOwnedEnv {Q : Except String CommandOutput → DeliveryHistory → Prop}
    (hkept : Kept env policy h₀ h) (hpermitted : Permitted h step)
    (hQ : ∀ answer result, env h (.command step directory argv vars) = answer → Checks answer result →
      Q result (⟨.command step directory argv vars, answer⟩ :: h)) :
    After env (checkedOwnedEnv host step directory argv vars) h Q
      fun _ h' ↦ Kept env policy h₀ h' := by
  rw [checkedOwnedEnv, after_bind, runCommand, after_perform]
  generalize hanswer : env h (.command step directory argv vars) = answer
  rcases answer with output | e | _
  · by_cases hsuccess : output.success = true
    · show After env (if output.success then _ else _) _ Q _
      rw [if_pos hsuccess]
      exact hQ _ _ hanswer (.ok hsuccess)
    · show After env (if output.success then _ else _) _ Q _
      rw [if_neg hsuccess]
      exact hQ _ _ hanswer (.refused (by simpa using hsuccess))
  · exact hQ _ _ hanswer .failed
  · exact hkept.command hpermitted hanswer

theorem after_checkedOwned {Q : CommandOutput → DeliveryHistory → Prop}
    (hkept : Kept env policy h₀ h) (hpermitted : Permitted h step)
    (hQ : ∀ output, env h (.command step directory argv []) = .exited output →
      output.success = true → Q output (⟨.command step directory argv [], .exited output⟩ :: h)) :
    After env (checkedOwned host step directory argv) h Q fun _ h' ↦ Kept env policy h₀ h' := by
  refine (after_checkedOwnedEnv hkept hpermitted ?_ :
    After env (checkedOwnedEnv host step directory argv []) h (fun result h' ↦
      After env (orFail result) h' Q fun _ h' ↦ Kept env policy h₀ h') _).bind fun _ _ h' ↦ h'
  intro answer result hanswer hchecks
  cases hchecks with
  | ok hsuccess => exact hQ _ hanswer hsuccess
  | refused | failed => exact hkept.command hpermitted hanswer

theorem after_persist (hkept : Kept env policy h₀ h) (henter : MayEnter policy h₀ h journal.phase)
    (hbacked : Backed (rank journal.phase) h) :
    After env (persist journal) h (fun _ h' ↦ Going env policy h₀ journal h')
      fun _ h' ↦ Kept env policy h₀ h' := by
  have hwrite {answer : PersistAnswer} (hanswer : env h (.persist journal) = answer)
      (hwritten : written ⟨.persist journal, answer⟩ = some journal) :
      Going env policy h₀ journal (⟨.persist journal, answer⟩ :: h) := by
    have hrank : rankOf (⟨.persist journal, answer⟩ :: h) = rank journal.phase :=
      rankOf_of_written hwritten
    refine ⟨⟨.cons hkept.lawful ⟨hanswer.symm, fun step hstep ↦ (by cases hstep),
      fun journal' hwritten' ↦ ?_⟩, ?_⟩, hrank⟩
    · cases hwritten.symm.trans hwritten'
      exact henter
    · rw [hrank]
      exact hbacked.cons
  have hskip {answer : PersistAnswer} (hanswer : env h (.persist journal) = answer)
      (hwritten : written ⟨.persist journal, answer⟩ = none) :
      Kept env policy h₀ (⟨.persist journal, answer⟩ :: h) := by
    refine ⟨.cons hkept.lawful ⟨hanswer.symm, fun step hstep ↦ (by cases hstep),
      fun journal' hwritten' ↦ ?_⟩, ?_⟩
    · cases hwritten.symm.trans hwritten'
    · rw [rankOf_of_written_none hwritten]
      exact hkept.backed.cons
  rw [persist, after_bind, writeJournal, after_perform]
  generalize hanswer : env h (.persist journal) = answer
  rcases answer with _ | e | stoppedAfter
  · exact hwrite hanswer rfl
  · exact hskip hanswer rfl
  · cases stoppedAfter with
    | true => exact (hwrite hanswer rfl).toKept
    | false => exact hskip hanswer rfl

theorem after_enter {phase : String} (hkept : Kept env policy h₀ h)
    (henter : MayEnter policy h₀ h phase) (hbacked : Backed (rank phase) h) :
    After env (enter journal phase) h
      (fun journal' h' ↦ Going env policy h₀ journal' h' ∧ journal'.phase = phase)
      fun _ h' ↦ Kept env policy h₀ h' :=
  (after_persist hkept henter hbacked).bind fun _ _ hgoing ↦ ⟨hgoing, rfl⟩

theorem after_failJournal {phase detail : String} (hkept : Kept env policy h₀ h)
    (henter : MayEnter policy h₀ h phase) (hbacked : Backed (rank phase) h) :
    After env (failJournal host journal phase detail) h Q fun _ h' ↦ Kept env policy h₀ h' :=
  (after_persist hkept henter hbacked).bind fun _ _ hgoing ↦ hgoing.toKept

theorem after_stopForDeclinedVerb {forge : Forge} {verb : String} (hkept : Kept env policy h₀ h)
    (hrank : rankOf h = 3) :
    After env (stopForDeclinedVerb journal forge verb) h Q fun _ h' ↦ Kept env policy h₀ h' := by
  refine (after_persist hkept (.inl ?_) ?_).bind fun _ _ hgoing ↦ hgoing.toKept
  · show rankOf h ≤ 3
    omega
  · show Backed 3 h
    rw [← hrank]
    exact hkept.backed

theorem after_commentBlocker {changeId detail : String} (hkept : Kept env policy h₀ h) :
    After env (commentBlocker host policy directory changeId detail) h
      (fun _ h' ↦ Kept env policy h₀ h' ∧ rankOf h' = rankOf h) fun _ h' ↦ Kept env policy h₀ h' := by
  have hfree : Permitted h .comment := trivial
  rw [commentBlocker]
  split
  · cases policy.forge.comment changeId (host.redactSensitive detail) with
    | run values =>
      refine (after_checkedOwnedEnv (Q := fun _ h' ↦ Kept env policy h₀ h' ∧ rankOf h' = rankOf h) hkept
        hfree fun answer _ hanswer _ ↦ ⟨hkept.command hfree hanswer, rfl⟩).bind fun _ _ h' ↦ h'
    | declined => exact ⟨hkept, rfl⟩
  · exact ⟨hkept, rfl⟩

/-! ### The stages -/

theorem phaseBefore_iff {current target : String} :
    phaseBefore current target = true ↔ rank current < rank target :=
  decide_eq_true_iff

theorem after_checkMigration {staged : CommandOutput} (hgoing : Going env policy h₀ journal h)
    (hrank : rank journal.phase = 0) :
    After env (checkMigration host policy journal staged) h
      (fun _ h' ↦ Going env policy h₀ journal h' ∧ h <:+ h' ∧
        ((stagedMigration staged.stdout).isSome = true → Did .migrationGate h'))
      fun _ h' ↦ Kept env policy h₀ h' := by
  have hfree : Permitted h .migrationGate := trivial
  have hzero : rankOf h = 0 := hgoing.phase.trans hrank
  rw [checkMigration]
  split
  · split
    · refine after_failJournal hgoing.toKept (.inl (by omega)) ?_
      show Backed 0 h
      rw [← hzero]
      exact hgoing.backed
    · exact (after_checkedOwned (Q := fun _ h' ↦ Going env policy h₀ journal h' ∧ h <:+ h' ∧
        Did .migrationGate h') hgoing.toKept hfree fun output hanswer hsuccess ↦ ⟨hgoing.command hfree hanswer,
          suffix_cons _ _, Did.of_head (if_pos hsuccess)⟩).bind
            fun _ _ ⟨hgoing, hsuffix, hgate⟩ ↦ ⟨hgoing, hsuffix, fun _ ↦ hgate⟩
  · rename_i hnone
    refine ⟨hgoing, suffix_refl _, fun hsome ↦ ?_⟩
    rw [hnone] at hsome
    cases hsome

theorem after_commitStage (hgoing : Going env policy h₀ journal h) :
    After env (commitStage host policy identity branch journal) h
      (fun journal' h' ↦ Going env policy h₀ journal' h' ∧ rank journal'.phase = max 1 (rank journal.phase))
      fun _ h' ↦ Kept env policy h₀ h' := by
  rw [commitStage]
  split
  · rename_i hbefore
    have hzero : rank journal.phase = 0 := Nat.lt_one_iff.1 (phaseBefore_iff.1 hbefore)
    have hswitch : Permitted h .switchBranch := trivial
    refine (after_checkedOwned (Q := fun _ h' ↦ Going env policy h₀ journal h') hgoing.toKept hswitch
      fun _ hanswer _ ↦ hgoing.command hswitch hanswer).bind fun _ h₁ hgoing ↦ ?_
    have hadd : Permitted h₁ .addAll := trivial
    refine (after_checkedOwned (Q := fun _ h' ↦ Going env policy h₀ journal h' ∧ Did .addAll h')
      hgoing.toKept hadd fun _ hanswer hsuccess ↦ ⟨hgoing.command hadd hanswer, Did.of_head (if_pos hsuccess)⟩).bind
        fun _ h₂ ⟨hgoing, hadded⟩ ↦ ?_
    have hnames : Permitted h₂ .stagedNames := trivial
    refine (after_checkedOwned (Q := fun output h' ↦ Going env policy h₀ journal h' ∧
      ∃ e, h' = e :: h₂ ∧ succeeded e = some (.stagedNames, output)) hgoing.toKept hnames
        fun output hanswer hsuccess ↦ ⟨hgoing.command hnames hanswer, _, rfl, if_pos hsuccess⟩).bind
          fun staged h₃ ⟨hgoing, e, heq, hstaged⟩ ↦ ?_
    refine (after_checkMigration hgoing hzero).bind fun _ h₄ ⟨hgoing, hsuffix, hgate⟩ ↦ ?_
    have hpermitted : Permitted h₄ .commit := by
      refine ⟨?_, e, h₂, staged, by rw [← heq]; exact hsuffix, hstaged, hadded, hgate⟩
      rw [hgoing.phase, hzero]
      exact Nat.zero_lt_one
    refine (after_checkedOwned (Q := fun _ h' ↦ Going env policy h₀ journal h' ∧ Did .commit h')
      hgoing.toKept hpermitted fun output hanswer hsuccess ↦ ⟨hgoing.command hpermitted hanswer, ?_⟩).bind
        fun _ h₅ hcommitted ↦ ?_
    · exact Did.of_head (if_pos hsuccess)
    · refine (after_enter hcommitted.1.toKept (.inl ?_) ?_).imp fun journal' h' hentered ↦ ?_
      · rw [hcommitted.1.phase, hzero]
        exact Nat.zero_le _
      · exact ⟨fun _ ↦ hcommitted.2, fun hr ↦ absurd hr (by decide), fun hr ↦ absurd hr (by decide),
          fun hr ↦ absurd hr (by decide)⟩
      · refine ⟨hentered.1, ?_⟩
        rw [hentered.2, hzero]
        rfl
  · rename_i hbefore
    have hrank : ¬rank journal.phase < 1 := fun hlt ↦ hbefore (phaseBefore_iff.2 hlt)
    exact ⟨hgoing, by omega⟩

theorem after_pushStage (hgoing : Going env policy h₀ journal h) (hrank : 1 ≤ rank journal.phase) :
    After env (pushStage host policy branch journal) h
      (fun journal' h' ↦ Going env policy h₀ journal' h' ∧ rank journal'.phase = max 2 (rank journal.phase))
      fun _ h' ↦ Kept env policy h₀ h' := by
  rw [pushStage]
  split
  · rename_i hbefore
    have hone : rank journal.phase < 2 := phaseBefore_iff.1 hbefore
    have hcommitted : Did .commit h := hgoing.backed.committed (by rw [hgoing.phase]; exact hrank)
    have hpermitted : Permitted h .push := ⟨by rw [hgoing.phase]; exact hone, hcommitted⟩
    refine (after_checkedOwned (Q := fun _ h' ↦ Going env policy h₀ journal h' ∧ Did .commit h' ∧ Did .push h')
      hgoing.toKept hpermitted fun output hanswer hsuccess ↦ ⟨hgoing.command hpermitted hanswer, hcommitted.cons,
        Did.of_head (if_pos hsuccess)⟩).bind fun _ h₁ hpushed ↦ ?_
    refine (after_enter hpushed.1.toKept (.inl ?_) ?_).imp fun journal' h' hentered ↦ ?_
    · rw [hpushed.1.phase]
      exact hone.le
    · exact ⟨fun _ ↦ hpushed.2.1, fun _ ↦ hpushed.2.2, fun hr ↦ absurd hr (by decide),
        fun hr ↦ absurd hr (by decide)⟩
    · refine ⟨hentered.1, ?_⟩
      rw [hentered.2, max_eq_left hone.le]
      rfl
  · rename_i hbefore
    have htwo : ¬rank journal.phase < 2 := fun hlt ↦ hbefore (phaseBefore_iff.2 hlt)
    exact ⟨hgoing, by omega⟩

theorem backed_three (hgoing : Going env policy h₀ journal h) (hrank : 2 ≤ rank journal.phase) :
    Backed 3 h where
  committed _ := hgoing.backed.committed (by rw [hgoing.phase]; omega)
  pushed _ := hgoing.backed.pushed (by rw [hgoing.phase]; omega)
  merged hr := absurd hr (by decide)
  deployed hr := absurd hr (by decide)

theorem after_manualPublication (hgoing : Going env policy h₀ journal h) (hrank : 2 ≤ rank journal.phase) :
    After env (manualPublication policy journal) h (fun _ h' ↦ Going env policy h₀ journal h')
      fun _ h' ↦ Kept env policy h₀ h' := by
  rw [manualPublication]
  split
  · split
    · rename_i hbefore
      have hthree : rank journal.phase < 3 := phaseBefore_iff.1 hbefore
      refine (after_persist hgoing.toKept (.inl ?_) ?_).bind fun _ _ hgoing ↦ hgoing.toKept
      · rw [hgoing.phase]
        exact hthree.le
      · exact backed_three hgoing hrank
    · exact hgoing.toKept
  · exact hgoing

theorem after_verifyForgeAccount (hgoing : Going env policy h₀ journal h) :
    After env (verifyForgeAccount host directory identity repository) h
      (fun result h' ↦ Going env policy h₀ journal h' ∧ match result with
        | .ok _ => ProbePassed (sinceLoad h')
        | .error _ => RefusedSince h₀ h')
      fun _ h' ↦ Kept env policy h₀ h' := by
  have hfree : Permitted h (.accountProbe identity.forgeAccount) := trivial
  rw [verifyForgeAccount]
  refine (after_checkedOwnedEnv (Q := fun result h' ↦ Going env policy h₀ journal h' ∧
    ∃ e, h' = e :: h ∧ isLoad e = false ∧
      (∀ output, result = .ok output →
        succeeded e = some (.accountProbe identity.forgeAccount, output) ∧
          refuses e = !confirms identity.forgeAccount output) ∧
      ∀ error, result = .error error → refuses e = true) hgoing.toKept hfree
      fun answer result hanswer hchecks ↦ ?_).bind fun result h₁ hprobed ↦ ?_
  · refine ⟨hgoing.command hfree hanswer, _, rfl, rfl, ?_⟩
    cases hchecks with
    | @ok output hsuccess =>
      refine ⟨fun output' houtput ↦ ?_, fun error herror ↦ ?_⟩
      · obtain rfl := Except.ok.inj houtput
        refine ⟨if_pos hsuccess, ?_⟩
        show (!(output.success && confirms identity.forgeAccount output)) = _
        rw [hsuccess, Bool.true_and]
      · cases herror
    | @refused output _ hsuccess =>
      refine ⟨fun output' houtput ↦ ?_, fun _ _ ↦ ?_⟩
      · cases houtput
      · show (!(output.success && confirms identity.forgeAccount output)) = true
        rw [hsuccess]
        rfl
    | failed =>
      refine ⟨fun output' houtput ↦ ?_, fun _ _ ↦ rfl⟩
      cases houtput
  · obtain ⟨hgoing', e, rfl, hload, hok, herror⟩ := hprobed
    have hrefused (he : refuses e = true) : RefusedSince h₀ (e :: h) :=
      ⟨e, h, suffix_refl _, hgoing.lawful.suffix, he⟩
    rcases result with error | output
    · exact ⟨hgoing', hrefused (herror error rfl)⟩
    have hresult := hok output rfl
    show After env (if String.ofList (Text.trim output.stdout.toList) = identity.forgeAccount then _
      else _) (e :: h) _ _
    split
    · rename_i hconfirmed
      exact ⟨hgoing', e, head_mem_sinceLoad hload, identity.forgeAccount, output, hresult.1,
        decide_eq_true hconfirmed⟩
    · rename_i hother
      refine ⟨hgoing', hrefused ?_⟩
      rw [hresult.2, confirms, decide_eq_false hother]
      rfl

theorem after_requestPublication (hgoing : Going env policy h₀ journal h)
    (hpermitted : Permitted h .publish) :
    After env (requestPublication host policy identity branch journal) h
      (fun journal' h' ↦ Going env policy h₀ journal' h' ∧ journal'.phase = journal.phase)
      fun _ h' ↦ Kept env policy h₀ h' := by
  rw [requestPublication]
  split
  · refine (after_checkedOwnedEnv (Q := fun _ h' ↦ Going env policy h₀ journal h') hgoing.toKept hpermitted
      fun answer _ hanswer _ ↦ hgoing.command hpermitted hanswer).bind fun result h₁ hgoing ↦ ?_
    cases result with
    | error error => exact ⟨⟨hgoing.toKept, hgoing.phase⟩, rfl⟩
    | ok output => exact ⟨hgoing, rfl⟩
  · exact ⟨hgoing, rfl⟩

theorem after_orFail {result : Except String α} (hkept : Kept env policy h₀ h)
    (hQ : ∀ a, result = .ok a → Q a h) :
    After env (orFail result) h Q fun _ h' ↦ Kept env policy h₀ h' := by
  cases result with
  | error e => exact hkept
  | ok a => exact hQ a rfl

theorem after_locateChange (hgoing : Going env policy h₀ journal h) :
    After env (locateChange host policy identity branch directory) h
      (fun _ h' ↦ Going env policy h₀ journal h') fun _ h' ↦ Kept env policy h₀ h' := by
  have hfree : Permitted h .locate := trivial
  rw [locateChange]
  split
  · refine (after_checkedOwnedEnv (Q := fun _ h' ↦ Going env policy h₀ journal h') hgoing.toKept hfree
      fun answer _ hanswer _ ↦ hgoing.command hfree hanswer).bind fun result h₁ hgoing ↦ ?_
    exact (after_orFail (Q := fun _ h' ↦ Going env policy h₀ journal h') hgoing.toKept fun _ _ ↦ hgoing).bind
      fun _ _ h' ↦ h'
  · exact hgoing

theorem after_publishStage {repository branch : String} (hgoing : Going env policy h₀ journal h)
    (hrank : 2 ≤ rank journal.phase) :
    After env (publishStage host policy identity repository branch journal) h
      (fun journal' h' ↦ Going env policy h₀ journal' h' ∧ rank journal'.phase = max 3 (rank journal.phase))
      fun _ h' ↦ Kept env policy h₀ h' := by
  rw [publishStage]
  split
  · rename_i hbefore
    have hthree : rank journal.phase < 3 := phaseBefore_iff.1 hbefore
    refine (after_verifyForgeAccount hgoing).bind fun result h₁ hprobed ↦ ?_
    obtain ⟨hgoing, hresult⟩ := hprobed
    rcases result with error | _
    · -- the phase of a refusal has no rank of its own, so delivery is back at its beginning
      refine after_failJournal hgoing.toKept (.inr (.inr (.inl hresult))) ?_
      exact ⟨fun hr ↦ absurd hr (by decide), fun hr ↦ absurd hr (by decide),
        fun hr ↦ absurd hr (by decide), fun hr ↦ absurd hr (by decide)⟩
    have hpushed : Did .push h₁ := hgoing.backed.pushed (by rw [hgoing.phase]; exact hrank)
    have hpermitted : Permitted h₁ .publish := ⟨by rw [hgoing.phase]; exact hthree, hpushed, hresult⟩
    refine (after_requestPublication hgoing hpermitted).bind fun journal₁ h₂ hrequested ↦ ?_
    obtain ⟨hgoing, hphase⟩ := hrequested
    rw [← hphase] at hrank hthree ⊢
    refine (after_locateChange hgoing).bind fun changeRequest h₃ hgoing ↦ ?_
    refine (after_enter hgoing.toKept (.inl ?_) ?_).imp fun journal' h' hentered ↦ ?_
    · rw [hgoing.phase]
      exact hthree.le
    · exact backed_three hgoing hrank
    · refine ⟨hentered.1, ?_⟩
      rw [hentered.2, max_eq_left hthree.le]
      rfl
  · rename_i hbefore
    have hthree : ¬rank journal.phase < 3 := fun hlt ↦ hbefore (phaseBefore_iff.2 hlt)
    exact ⟨hgoing, by omega⟩

theorem after_manualMerge (hgoing : Going env policy h₀ journal h)
    (hrank : rank journal.phase = max 3 (rankOf h₀)) :
    After env (manualMerge policy journal) h (fun _ h' ↦ Going env policy h₀ journal h')
      fun _ h' ↦ Kept env policy h₀ h' := by
  rw [manualMerge]
  split
  · rename_i hmode
    refine (after_enter hgoing.toKept ?_ ?_).bind fun _ _ hentered ↦ hentered.1.toKept
    · by_cases hstart : rankOf h₀ ≤ 3
      · refine .inl ?_
        rw [hgoing.phase, hrank, max_eq_left hstart]
        exact le_refl 3
      · exact .inr (.inr (.inr ⟨hmode, by omega⟩))
    · exact backed_three hgoing (by omega)
  · exact hgoing

theorem after_watchChecks (hgoing : Going env policy h₀ journal h) (hrank : rank journal.phase = 3)
    :
    After env (watchChecks host policy change journal) h
      (fun _ h' ↦ Going env policy h₀ journal h' ∧ Did .waitChecks (sinceLoad h'))
      fun _ h' ↦ Kept env policy h₀ h' := by
  have hfree : Permitted h .waitChecks := trivial
  have hthree : rankOf h = 3 := hgoing.phase.trans hrank
  rw [watchChecks]
  split
  · exact after_stopForDeclinedVerb hgoing.toKept hthree
  · refine (after_checkedOwnedEnv (Q := fun result h' ↦ Going env policy h₀ journal h' ∧
      ∀ output, result = .ok output → Did .waitChecks (sinceLoad h')) hgoing.toKept hfree
      fun answer result hanswer hchecks ↦ ⟨hgoing.command hfree hanswer, fun output hok ↦ ?_⟩).bind
        fun result h₁ hwatched ↦ ?_
    · cases hchecks with
      | @ok output hsuccess => exact ⟨_, head_mem_sinceLoad rfl, output, if_pos hsuccess⟩
      | refused | failed => cases hok
    · obtain ⟨hgoing, hdid⟩ := hwatched
      cases result with
      | error error =>
        refine (after_commentBlocker hgoing.toKept).bind fun _ h₂ hcommented ↦ ?_
        have hthree : rankOf h₂ = 3 := hcommented.2.trans (hgoing.phase.trans hrank)
        refine after_failJournal hcommented.1 (.inl ?_) ?_
        · rw [hthree]
          exact le_refl 3
        · show Backed 3 h₂
          rw [← hthree]
          exact hcommented.1.backed
      | ok output => exact ⟨hgoing, hdid output rfl⟩

theorem after_requireCheck {check : String} (hgoing : Going env policy h₀ journal h)
    (hrank : rank journal.phase = 3) :
    After env (requireCheck host policy change journal check) h
      (fun _ h' ↦ Going env policy h₀ journal h' ∧ Did (.checkNamed check) (sinceLoad h') ∧
        ∀ step, Did step (sinceLoad h) → Did step (sinceLoad h'))
      fun _ h' ↦ Kept env policy h₀ h' := by
  have hfree : Permitted h (.checkNamed check) := trivial
  rw [requireCheck]
  split
  · exact after_stopForDeclinedVerb hgoing.toKept (hgoing.phase.trans hrank)
  · exact (after_checkedOwned (Q := fun _ h' ↦ Going env policy h₀ journal h' ∧
      Did (.checkNamed check) (sinceLoad h') ∧ ∀ step, Did step (sinceLoad h) → Did step (sinceLoad h'))
      hgoing.toKept hfree fun output hanswer hsuccess ↦ ⟨hgoing.command hfree hanswer,
        ⟨_, head_mem_sinceLoad rfl, output, if_pos hsuccess⟩, fun _ hdid ↦ hdid.sinceLoad_cons rfl⟩).bind
          fun _ _ h' ↦ h'

def ChecksPassed (policy : DeliveryConfig) (h : DeliveryHistory) : Prop :=
  Did .waitChecks (sinceLoad h) ∧
    ∀ check ∈ policy.requiredChecks, Did (.checkNamed check) (sinceLoad h)

theorem after_checksStage (hgoing : Going env policy h₀ journal h) (hrank : 3 ≤ rank journal.phase)
    :
    After env (checksStage host policy change journal) h
      (fun _ h' ↦ Going env policy h₀ journal h' ∧ (rank journal.phase < 4 → ChecksPassed policy h'))
      fun _ h' ↦ Kept env policy h₀ h' := by
  rw [checksStage]
  split
  · rename_i hbefore
    have hthree : rank journal.phase = 3 := by
      have hlt : rank journal.phase < 4 := phaseBefore_iff.1 hbefore
      omega
    refine (after_watchChecks hgoing hthree).bind fun _ h₁ hwatched ↦ ?_
    have hstart : Going env policy h₀ journal h₁ ∧ Did .waitChecks (sinceLoad h₁) ∧
        ∀ check ∈ ([] : List String), Did (.checkNamed check) (sinceLoad h₁) :=
      ⟨hwatched.1, hwatched.2, forall_mem_nil _⟩
    -- what the loop has asked for so far has passed
    refine (After.forM (I := fun done h' ↦ Going env policy h₀ journal h' ∧ Did .waitChecks (sinceLoad h') ∧
      ∀ check ∈ done, Did (.checkNamed check) (sinceLoad h')) hstart fun done check h' _ hI ↦ ?_).imp
        fun _ h' hI ↦ ⟨hI.1, fun _ ↦ hI.2⟩
    refine (after_requireCheck hI.1 hthree).imp fun _ h'' hrequired ↦ ?_
    obtain ⟨hgoing, hdid, hkeep⟩ := hrequired
    refine ⟨hgoing, hkeep _ hI.2.1, fun check' hcheck' ↦ ?_⟩
    rcases mem_append.1 hcheck' with hdone | hnew
    · exact hkeep _ (hI.2.2 check' hdone)
    · rw [mem_singleton.1 hnew]
      exact hdid
  · rename_i hbefore
    exact ⟨hgoing, fun hlt ↦ absurd (phaseBefore_iff.2 hlt) hbefore⟩

theorem after_mergeStage (hgoing : Going env policy h₀ journal h) (hrank : 3 ≤ rank journal.phase)
    (hchecks : rank journal.phase < 4 → ChecksPassed policy h) :
    After env (mergeStage host policy change journal) h
      (fun journal' h' ↦ Going env policy h₀ journal' h' ∧ rank journal'.phase = max 4 (rank journal.phase))
      fun _ h' ↦ Kept env policy h₀ h' := by
  rw [mergeStage]
  split
  · rename_i hbefore
    have hfour : rank journal.phase < 4 := phaseBefore_iff.1 hbefore
    have hpermitted : Permitted h (.merge policy.requiredChecks) :=
      ⟨by rw [hgoing.phase]; exact hfour, hchecks hfour⟩
    split
    · exact after_stopForDeclinedVerb hgoing.toKept (by rw [hgoing.phase]; omega)
    · refine (after_checkedOwned (Q := fun _ h' ↦ Going env policy h₀ journal h' ∧
        Did (.merge policy.requiredChecks) h') hgoing.toKept hpermitted fun output hanswer hsuccess ↦
          ⟨hgoing.command hpermitted hanswer, Did.of_head (if_pos hsuccess)⟩).bind fun _ h₁ hmerged ↦ ?_
      have hbacked : Backed 3 h₁ := backed_three hmerged.1 (by omega)
      refine (after_enter hmerged.1.toKept (.inl ?_) ?_).imp fun journal' h' hentered ↦ ?_
      · rw [hmerged.1.phase]
        exact hfour.le
      · exact ⟨fun _ ↦ hbacked.committed (by decide), fun _ ↦ hbacked.pushed (by decide),
          fun _ ↦ ⟨_, hmerged.2⟩, fun hr ↦ absurd hr (by decide)⟩
      · refine ⟨hentered.1, ?_⟩
        rw [hentered.2, max_eq_left hfour.le]
        rfl
  · rename_i hbefore
    have hfour : ¬rank journal.phase < 4 := fun hlt ↦ hbefore (phaseBefore_iff.2 hlt)
    exact ⟨hgoing, by omega⟩

theorem after_rollBack {failure : String} (hkept : Kept env policy h₀ h) (hrank : 4 ≤ rankOf h) :
    After env (rollBack host policy change journal failure) h Q fun _ h' ↦ Kept env policy h₀ h' := by
  have hfree : Permitted h .rollback := trivial
  rw [rollBack]
  refine (after_checkedOwnedEnv (Q := fun _ h' ↦ Kept env policy h₀ h' ∧ rankOf h' = rankOf h) hkept hfree
    fun answer _ hanswer _ ↦ ⟨hkept.command hfree hanswer, rfl⟩).bind fun _ h₁ hrolled ↦ ?_
  refine (after_commentBlocker hrolled.1).bind fun _ h₂ hcommented ↦ ?_
  have hfour : 4 ≤ rankOf h₂ := by rw [hcommented.2, hrolled.2]; exact hrank
  exact after_failJournal hcommented.1 (.inr (.inl ⟨rfl, hfour⟩)) (hcommented.1.backed.mono hfour)

theorem after_deployStage (hgoing : Going env policy h₀ journal h) (hrank : 4 ≤ rank journal.phase)
    :
    After env (deployStage host policy change journal) h
      (fun journal' h' ↦ Going env policy h₀ journal' h' ∧ rank journal'.phase = max 5 (rank journal.phase))
      fun _ h' ↦ Kept env policy h₀ h' := by
  rw [deployStage]
  split
  · rename_i hbefore
    have hfive : rank journal.phase < 5 := phaseBefore_iff.1 hbefore
    have hpermitted : Permitted h .deploy := hgoing.backed.merged (by rw [hgoing.phase]; exact hrank)
    refine (after_checkedOwnedEnv (Q := fun result h' ↦ Going env policy h₀ journal h' ∧
      ∀ output, result = .ok output → Did .deploy h') hgoing.toKept hpermitted
      fun answer result hanswer hchecks ↦ ⟨hgoing.command hpermitted hanswer, fun output hok ↦ ?_⟩).bind
        fun result h₁ hdeployed ↦ ?_
    · cases hchecks with
      | @ok output hsuccess => exact Did.of_head (if_pos hsuccess)
      | refused | failed => cases hok
    · obtain ⟨hgoing, hdid⟩ := hdeployed
      have hfour : 4 ≤ rankOf h₁ := by rw [hgoing.phase]; exact hrank
      rcases result with error | output
      · exact after_rollBack hgoing.toKept hfour
      refine (after_enter hgoing.toKept (.inl ?_) ?_).imp fun journal' h' hentered ↦ ?_
      · rw [hgoing.phase]
        exact hfive.le
      · exact ⟨fun _ ↦ hgoing.backed.committed (by omega), fun _ ↦ hgoing.backed.pushed (by omega),
          fun _ ↦ hgoing.backed.merged hfour, fun _ ↦ hdid output rfl⟩
      · refine ⟨hentered.1, ?_⟩
        rw [hentered.2, max_eq_left hfive.le]
        rfl
  · rename_i hbefore
    have hfive : ¬rank journal.phase < 5 := fun hlt ↦ hbefore (phaseBefore_iff.2 hlt)
    exact ⟨hgoing, by omega⟩

theorem after_smokeStage (hgoing : Going env policy h₀ journal h) (hrank : 5 ≤ rank journal.phase) :
    After env (smokeStage host policy change journal) h (fun _ h' ↦ Going env policy h₀ journal h')
      fun _ h' ↦ Kept env policy h₀ h' := by
  rw [smokeStage]
  split
  · have hpermitted : Permitted h .smoke := hgoing.backed.deployed (by rw [hgoing.phase]; exact hrank)
    refine (after_checkedOwnedEnv (Q := fun _ h' ↦ Going env policy h₀ journal h') hgoing.toKept hpermitted
      fun answer _ hanswer _ ↦ hgoing.command hpermitted hanswer).bind fun result h₁ hgoing ↦ ?_
    cases result with
    | error error => exact after_rollBack hgoing.toKept (by rw [hgoing.phase]; omega)
    | ok output => exact hgoing
  · exact hgoing

theorem rank_le_six (phase : String) : rank phase ≤ 6 := by
  unfold rank
  split <;> decide

theorem rank_of_resume {ownership : WorktreeOwnership} {timestamp : String} {fault : Option String}
    (hresume : resume ownership timestamp (journalOf h) fault = .ok journal) :
    rankOf h = rank journal.phase := by
  rw [rankOf]
  rcases hstored : journalOf h with _ | stored
  · rw [hstored] at hresume
    cases hresume
    rfl
  rw [hstored] at hresume
  cases fault with
  | none =>
    cases hresume
    rfl
  | some e => cases hresume

/-- **A call.** However it ends, it has kept to the rules, and the journal says no more than was done. -/
theorem after_deliverWith {call : DeliveryCall} (hbacked : Backed (rankOf h) h) :
    After env (deliverWith host call repository (journalOf h)) h (fun _ h' ↦ Kept env call.policy h h')
      fun _ h' ↦ Kept env call.policy h h' := by
  have hkept : Kept env call.policy h h := ⟨.refl, hbacked⟩
  rw [deliverWith, after_bind]
  refine after_orFail hkept fun identity _ ↦ ?_
  rw [after_bind]
  refine after_orFail hkept fun ownership _ ↦ ?_
  rw [after_bind]
  refine after_orFail hkept fun _ _ ↦ ?_
  rw [after_bind, loadJournal, after_perform]
  have hloaded : Kept env call.policy h (⟨.load, env h .load⟩ :: h) :=
    ⟨.cons .refl ⟨rfl, fun step hstep ↦ (by cases hstep), fun journal hwritten ↦ (by cases hwritten)⟩,
      hbacked.cons⟩
  rw [after_bind]
  refine after_orFail hloaded fun journal hresume ↦ ?_
  have hrank : rankOf h = rank journal.phase := rank_of_resume hresume
  have hbacked' : Backed (rank journal.phase) (⟨.load, env h .load⟩ :: h) := by
    rw [← hrank]
    exact hbacked.cons
  refine (after_persist hloaded (.inl hrank.le) hbacked').bind fun _ h₁ hgoing ↦ ?_
  refine (after_commitStage hgoing).bind fun journal₁ h₂ ⟨hgoing, hrank₁⟩ ↦ ?_
  refine (after_pushStage hgoing (by omega)).bind fun journal₂ h₃ ⟨hgoing, hrank₂⟩ ↦ ?_
  refine (after_manualPublication hgoing (by omega)).bind fun _ h₄ hgoing ↦ ?_
  refine (after_publishStage hgoing (by omega)).bind fun journal₃ h₅ ⟨hgoing, hrank₃⟩ ↦ ?_
  rw [after_bind]
  refine after_orFail hgoing.toKept fun change _ ↦ ?_
  refine (after_manualMerge hgoing (by omega)).bind fun _ h₆ hgoing ↦ ?_
  refine (after_checksStage hgoing (by omega)).bind fun _ h₇ ⟨hgoing, hchecks⟩ ↦ ?_
  refine (after_mergeStage hgoing (by omega) hchecks).bind fun journal₄ h₈ ⟨hgoing, hrank₄⟩ ↦ ?_
  refine (after_deployStage hgoing (by omega)).bind fun journal₅ h₉ ⟨hgoing, hrank₅⟩ ↦ ?_
  refine (after_smokeStage hgoing (by omega)).bind fun _ h' hgoing ↦ ?_
  have hfive : 5 ≤ rankOf h' := by
    rw [hgoing.phase]
    omega
  refine (after_enter hgoing.toKept (.inl ?_) ?_).imp fun _ _ hentered ↦ hentered.1.toKept
  · rw [hgoing.phase]
    exact rank_le_six _
  · exact ⟨fun _ ↦ hgoing.backed.committed (by omega), fun _ ↦ hgoing.backed.pushed (by omega),
      fun _ ↦ hgoing.backed.merged (by omega), fun _ ↦ hgoing.backed.deployed hfive⟩

end Parts

/-! ### Every run of calls -/

def deliver (host : DeliveryHost) (repository : String) (env : Environment DeliveryOp DeliveryAnswer)
    (h : DeliveryHistory) (call : DeliveryCall) : DeliveryHistory :=
  ((deliverWith host call repository (journalOf h)).run env h).2

def deliverAll (host : DeliveryHost) (repository : String)
    (env : Environment DeliveryOp DeliveryAnswer) (h : DeliveryHistory) (calls : List DeliveryCall) :
    DeliveryHistory :=
  calls.foldl (deliver host repository env) h

section Run

variable {host : DeliveryHost} {repository : String} {env : Environment DeliveryOp DeliveryAnswer}
  {h : DeliveryHistory}

theorem deliver_kept (hbacked : Backed (rankOf h) h) (call : DeliveryCall) :
    Kept env call.policy h (deliver host repository env h call) := by
  have hcall : After env (deliverWith host call repository (journalOf h)) h
      (fun _ h' ↦ Kept env call.policy h h') fun _ h' ↦ Kept env call.policy h h' := after_deliverWith hbacked
  rcases hcall.result with ⟨_, _, hkept⟩ | ⟨_, _, hkept⟩
  · exact hkept
  · exact hkept

theorem backed_nil : Backed (rankOf []) [] := by
  refine ⟨fun hr ↦ ?_, fun hr ↦ ?_, fun hr ↦ ?_, fun hr ↦ ?_⟩ <;> exact absurd hr (by decide)

theorem deliverAll_backed (hbacked : Backed (rankOf h) h) (calls : List DeliveryCall) :
    Backed (rankOf (deliverAll host repository env h calls)) (deliverAll host repository env h calls) := by
  induction calls generalizing h with
  | nil => exact hbacked
  | cons call calls ih => exact ih (deliver_kept hbacked call).backed

theorem deliverAll_permitted (hbacked : Backed (rankOf h) h) (calls : List DeliveryCall) :
    Grows (fun h e ↦ e.answer = env h e.op ∧ ∀ step, stepOf e = some step → Permitted h step) h
      (deliverAll host repository env h calls) := by
  induction calls generalizing h with
  | nil => exact .refl
  | cons call calls ih =>
    have hkept : Kept env call.policy h (deliver host repository env h call) := deliver_kept hbacked call
    exact (hkept.lawful.mono fun _ _ hlawful ↦ ⟨hlawful.answered, hlawful.permitted⟩).trans (ih hkept.backed)

variable (host repository env) in
def Calm : DeliveryHistory → List DeliveryCall → Prop
  | _, [] => True
  | h, call :: calls =>
    (call.policy.mode = .reviewedPrManual → rankOf h < 4) ∧
      ¬RefusedSince h (deliver host repository env h call) ∧
      Calm (deliver host repository env h call) calls

/-- The rank drops only when staging is rolled back. -/
def Descends (h : DeliveryHistory) (e : DeliveryEvent) : Prop :=
  ∀ journal, written e = some journal →
    rankOf h ≤ rank journal.phase ∨ journal.phase = "staging_rolled_back" ∧ 4 ≤ rankOf h

theorem RefusedSince.mono {h₀ h h' : DeliveryHistory} (hrefused : RefusedSince h₀ h) (hh : h <:+ h') :
    RefusedSince h₀ h' := by
  obtain ⟨e, before, he, hbefore, hrefuses⟩ := hrefused
  exact ⟨e, before, he.trans hh, hbefore, hrefuses⟩

theorem deliverAll_descends (hbacked : Backed (rankOf h) h) {calls : List DeliveryCall}
    (hcalm : Calm host repository env h calls) :
    Grows (fun h e ↦ (∀ step, stepOf e = some step → Permitted h step) ∧ Descends h e) h
      (deliverAll host repository env h calls) := by
  induction calls generalizing h with
  | nil => exact .refl
  | cons call calls ih =>
    obtain ⟨hmanual, hprobes, hrest⟩ := hcalm
    have hkept : Kept env call.policy h (deliver host repository env h call) := deliver_kept hbacked call
    refine Grows.trans ?_ (ih hkept.backed hrest)
    refine hkept.lawful.mono_of_suffix fun before e hbefore hlawful ↦ ⟨hlawful.permitted, fun journal hw ↦ ?_⟩
    rcases hlawful.enters journal hw with hle | hrolled | hrefused | ⟨hmode, hfour⟩
    · exact .inl hle
    · exact .inr hrolled
    · exact absurd (hrefused.mono ((suffix_cons _ _).trans hbefore)) hprobes
    · exact absurd (hmanual hmode) (by omega)

def doneAt : DeliveryStep → Option ℕ
  | .commit => some 1
  | .push => some 2
  | .publish => some 3
  | .merge _ => some 4
  | _ => none

theorem Permitted.lt_doneAt {h : DeliveryHistory} {step : DeliveryStep} {k : ℕ}
    (hpermitted : Permitted h step) (hstep : doneAt step = some k) : rankOf h < k ∧ k ≤ 4 := by
  cases step with
  | commit | push | publish | merge =>
    cases hstep
    exact ⟨hpermitted.1, by decide⟩
  | _ => cases hstep

theorem Grows.min_rank {h h' : DeliveryHistory} {P : DeliveryHistory → DeliveryEvent → Prop}
    (hgrows : Grows P h h') (hP : ∀ h e, P h e → Descends h e) :
    min 4 (rankOf h) ≤ rankOf h' := by
  refine hgrows.invariant (I := fun h' ↦ min 4 (rankOf h) ≤ rankOf h') (min_le_right _ _)
    fun before e _ he hle ↦ ?_
  rcases hw : written e with _ | journal
  · rw [rankOf_of_written_none hw]
    exact hle
  rw [rankOf_of_written hw]
  rcases hP before e he journal hw with hrank | ⟨hrolled, hfour⟩
  · exact hle.trans hrank
  · rw [hrolled]
    exact min_le_left _ _

/-- **The order of delivery.** In every run of calls, whatever fails and wherever the process stops, the
steps are taken in order. From any point of a run on, as long as no probe is refused and no manual policy
meets a merged change, what the journal says to be committed, pushed, published or merged is not done
again, and the rank of the phase drops only when staging is rolled back. -/
theorem deliverAll_ordered (host : DeliveryHost) (repository : String)
    (env : Environment DeliveryOp DeliveryAnswer) (calls later : List DeliveryCall) :
    let h := deliverAll host repository env [] calls
    let h' := deliverAll host repository env h later
    (∀ e before, e :: before <:+ h' → ∀ step, stepOf e = some step → Permitted before step) ∧
    (Calm host repository env h later → ∀ e before, e :: before <:+ h' → h <:+ before →
      (∀ step k, stepOf e = some step → doneAt step = some k → rankOf h < k) ∧
      ∀ journal, written e = some journal →
        rankOf before ≤ rank journal.phase ∨
          journal.phase = "staging_rolled_back" ∧ 4 ≤ rankOf before) := by
  intro h h'
  have hbacked : Backed (rankOf h) h := deliverAll_backed backed_nil calls
  refine ⟨fun e before he step hstep ↦ ?_, fun hcalm e before he hbefore ↦ ⟨fun step k hstep hk ↦ ?_, ?_⟩⟩
  · exact (((deliverAll_permitted backed_nil calls).trans (deliverAll_permitted hbacked later)).allowed he
      nil_suffix).2 step hstep
  · have hgrows := deliverAll_descends hbacked hcalm
    obtain ⟨hlt, hfour⟩ := ((hgrows.allowed he hbefore).1 step hstep).lt_doneAt hk
    have hmin : min 4 (rankOf h) ≤ rankOf before :=
      Grows.min_rank (hgrows.of_suffix hbefore ((suffix_cons _ _).trans he)) fun _ _ hP ↦ hP.2
    omega
  · exact ((deliverAll_descends hbacked hcalm).allowed he hbefore).2

end Run

def plainDeliveryHost : DeliveryHost :=
  ⟨fun text ↦ text, fun text ↦ text, fun _ ↦ some 0⟩

def stagingPolicy : DeliveryConfig where
  mode := .reviewGatedAutomatic
  maxDeliveriesPerSession := 1
  commandTimeoutMs := 1000
  remote := "origin"
  base := "main"
  providerArgv := ["gh"]
  stagingEnvironment := "staging"
  deployArgv := ["deploy"]
  smokeArgv := ["smoke"]
  rollbackArgv := ["rollback"]
  commentBlockers := true
  requiredChecks := []
  migrationGateArgv := []
  credentialReferences := []
  pocWarrant := none
  reviewGate := some ⟨"impl", "review", "approve"⟩
  targets := []
  identity := some
    ⟨"Familiar", "familiar@example.invalid", "steward-bot", [], ["gh", "api", "user", "--jq", ".login"]⟩
  forge := .github

def stagingCall : DeliveryCall :=
  ⟨stagingPolicy, .ok ⟨"session", "PRD-1", "/worktree", "ready_for_delivery"⟩, 0, "now"⟩

/-- Everything works, except that the smoke test may fail and the adapter has an account of its own. -/
def stagingHost (smokePasses : Bool) (account : String) : Environment DeliveryOp DeliveryAnswer :=
  fun _ op ↦ match op with
    | .load => none
    | .persist _ => .written
    | .command step _ _ _ => .exited
      { success := step != .smoke || smokePasses
        code := some 0
        stdout := match step with
          | .accountProbe _ => account
          | .locate => "42\n"
          | _ => ""
        stderr := "" }

/-- The phases that were journaled, the last first. -/
def phases (h : DeliveryHistory) : List String :=
  (h.filterMap written).map DeliveryJournal.phase

/-- A smoke test that fails takes the journal from `staging_deployed` back to the rank of the merge. An
account that is refused takes it back to the beginning, so the next call commits again. -/
theorem phases_drop :
    (phases (deliverAll plainDeliveryHost "repo" (stagingHost false "steward-bot\n") [] [stagingCall]) =
        ["staging_rolled_back", "staging_deployed", "merged", "published", "pushed", "committed",
          "admitted"] ∧
      rank "staging_rolled_back" < rank "staging_deployed") ∧
    let h := deliverAll plainDeliveryHost "repo" (stagingHost true "another-bot\n") [] [stagingCall]
    phases h = ["identity_mismatch", "pushed", "committed", "admitted"] ∧
      rank "identity_mismatch" < rank "pushed" ∧
      (h.filterMap stepOf).count .commit = 1 ∧
      ((deliver plainDeliveryHost "repo" (stagingHost true "another-bot\n") h stagingCall).filterMap
        stepOf).count .commit = 2 := by
  decide +kernel

end Delivery

end FamiliarAi
