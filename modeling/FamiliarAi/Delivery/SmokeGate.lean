import FamiliarAi.Delivery.Targets

/-!
# Effects and the gate of a smoke

Over any calls for one request and one target, an effect that was recorded as succeeded is not run
again, and after a failure nothing runs in the same call. `EffectsKept` relates the table to what
was performed, and each statement keeps it.

A gate finds a smoke by its role, which is written after its outcome. A call that returns may have
left the smoke out because its outcome was written, so the gate passes over every run in which the
role of no passing smoke is missing (`RolesWritten`).
-/

namespace FamiliarAi

open Interaction Program Delivery List Option

abbrev TargetEvent := Event TargetOp TargetOp.Answer

/-! ### What a history tells -/

/-- The statement took effect. -/
def StatementOutcome.applied : StatementOutcome → Bool
  | done => true
  | refused _ => false
  | stopped applied => applied

def EffectStatement.ended : EffectStatement → Option Bool
  | beginEffect .. => none
  | finishEffect _ succeeded .. | finishEvidence _ succeeded .. => some succeeded

def EffectStatement.succeededKey (statement : EffectStatement) : Option String :=
  if statement.ended = some true then some statement.key else none

def TargetEvent.succeededKey : TargetEvent → Option String
  | ⟨.statement statement, (_, outcome)⟩ =>
    if outcome.applied then statement.succeededKey else none
  | _ => none

def EffectSucceeded (key : String) (h : TargetHistory) : Prop :=
  ∃ e ∈ h, TargetEvent.succeededKey e = some key

/-- Something failed that the call needs. -/
def TargetEvent.Fails : TargetEvent → Prop
  | ⟨.command .., .exited output⟩ => output.success = false
  | ⟨.command .., _⟩ => True
  | ⟨.statement _, (_, .done)⟩ => False
  | ⟨.statement _, _⟩ => True
  | ⟨.read _, .error _⟩ => True
  | _ => False

def TargetEvent.isCalled : TargetEvent → Bool
  | ⟨.called, _⟩ => true
  | _ => false

/-- What was performed in the last call. -/
def sinceCalled (h : TargetHistory) : TargetHistory :=
  h.takeWhile fun e ↦ !TargetEvent.isCalled e

/-- Nothing has failed in the last call. -/
def CallSound (h : TargetHistory) : Prop :=
  ∀ e ∈ sinceCalled h, ¬TargetEvent.Fails e

def recipeKinds : List (List String) :=
  [["cloud_preflight", "deploy", "smoke"], ["ssh_preflight", "sync", "restart", "smoke"]]

def CommandRule (request : TargetRequest) (target : String) (before : TargetHistory) :
    TargetEvent → Prop
  | ⟨.command kind _ _, _⟩ => ¬EffectSucceeded (request.key target kind) before ∧ CallSound before ∧
      ∃ earlier later, earlier ++ kind :: later ∈ recipeKinds ∧
        ∀ other ∈ earlier, EffectSucceeded (request.key target other) before
  | _ => True

def TargetEvent.LeavesRoleOut (smokeKey : String) : TargetEvent → Prop
  | ⟨.statement (.finishEvidence _ true ..), (_, .stopped true)⟩ => True
  | ⟨.statement (.finishEffect key true ..), (_, outcome)⟩ =>
    key = smokeKey ∧ outcome.applied = false
  | _ => False

def RolesWritten (smokeKey : String) (h : TargetHistory) : Prop :=
  ∀ e ∈ h, ¬TargetEvent.LeavesRoleOut smokeKey e

/-- The table agrees with what was performed, which has grown since the start. -/
structure EffectsKept (request : TargetRequest) (target : String) (start : TargetHistory)
    (effects : DeliveryEffects) (h : TargetHistory) : Prop where
  grows : start <:+ h
  rule : Grows (CommandRule request target) [] h
  succeeded : ∀ key, EffectSucceeded key h ↔
    ∃ row, effects.lookup key = some row ∧ row.status = .succeeded
  named : ∀ key row, effects.lookup key = some row →
    row.repositoryKey = request.repositoryKey ∧ key = request.key target row.effectKind

/-- A smoke that has passed has its role. -/
def SmokeNamed (request : TargetRequest) (target : String) (effects : DeliveryEffects)
    (h : TargetHistory) : Prop :=
  RolesWritten (request.key target "smoke") h →
    ∀ row, effects.lookup (request.key target "smoke") = some row → row.status = .succeeded →
      row.externalReference = some request.role

section

variable {request : TargetRequest} {target : String} {effects : DeliveryEffects} {h : TargetHistory}
  {e : TargetEvent} {key kind kind' now : String} {statement : EffectStatement}
  {outcome : StatementOutcome} {row : DeliveryEffectRow} {start : TargetHistory} {succeeded : Bool}
  {detail : Option String} {row' : DeliveryEffectRow} {h₀ : TargetHistory} {h' : TargetHistory}
  {run : TargetRun}

theorem key_inj : request.key target kind = request.key target kind' ↔ kind = kind' := by
  simp [TargetRequest.key]

theorem effectSucceeded_cons :
    EffectSucceeded key (e :: h) ↔ e.succeededKey = some key ∨ EffectSucceeded key h := by
  unfold EffectSucceeded
  rw [exists_mem_cons_iff]

theorem callSound_cons (he : e.isCalled = false) :
    CallSound (e :: h) ↔ ¬e.Fails ∧ CallSound h := by
  have hsince : sinceCalled (e :: h) = e :: sinceCalled h :=
    takeWhile_cons_of_pos (by rw [he]; rfl)
  unfold CallSound
  rw [hsince, forall_mem_cons]

theorem callSound_of_isCalled (he : e.isCalled = true) : CallSound (e :: h) := by
  have hsince : sinceCalled (e :: h) = [] := takeWhile_cons_of_neg (by rw [he]; decide)
  unfold CallSound
  rw [hsince]
  exact forall_mem_nil _

theorem rolesWritten_cons {smokeKey : String} :
    RolesWritten smokeKey (e :: h) ↔ ¬e.LeavesRoleOut smokeKey ∧ RolesWritten smokeKey h :=
  forall_mem_cons

/-- An event that writes nothing. -/
theorem EffectsKept.skip (hkept : EffectsKept request target start effects h)
    (he : e.succeededKey = none) (hrule : CommandRule request target h e) :
    EffectsKept request target start effects (e :: h) := by
  refine ⟨hkept.grows.trans (suffix_cons _ _), hkept.rule.cons hrule, fun key ↦ ?_, hkept.named⟩
  rw [effectSucceeded_cons, he, hkept.succeeded key]
  exact or_iff_right nofun

theorem SmokeNamed.skip (hnamed : SmokeNamed request target effects h) :
    SmokeNamed request target effects (e :: h) :=
  fun hroles ↦ hnamed (rolesWritten_cons.1 hroles).2

/-! ### Statements -/

theorem lookup_apply_self :
    (statement.apply now effects).lookup statement.key =
      statement.write now (effects.lookup statement.key) := by
  unfold EffectStatement.apply
  cases hwrite : statement.write now (effects.lookup statement.key) with
  | some row => exact AList.lookup_insert effects
  | none =>
    generalize effects.lookup statement.key = found at hwrite ⊢
    cases statement with
    | beginEffect => cases found <;> cases hwrite
    | finishEffect | finishEvidence =>
      cases found with
      | none => rfl
      | some row => cases hwrite

theorem lookup_apply_ne (hkey : key ≠ statement.key) :
    (statement.apply now effects).lookup key = effects.lookup key := by
  unfold EffectStatement.apply
  split
  · exact AList.lookup_insert_ne hkey
  · rfl

def Writable (request : TargetRequest) (target : String) (effects : DeliveryEffects) :
    EffectStatement → Prop
  | .beginEffect key repositoryKey kind =>
    repositoryKey = request.repositoryKey ∧ key = request.key target kind
  | .finishEffect key succeeded .. | .finishEvidence key succeeded .. =>
    ∃ row, effects.lookup key = some row ∧ (succeeded = false → row.status ≠ .succeeded)

theorem write_ended (hended : statement.ended = some succeeded)
    (hwrite : statement.write now (some row) = some row') :
    row'.repositoryKey = row.repositoryKey ∧ row'.effectKind = row.effectKind ∧
      row'.status = .ofSuccess succeeded := by
  cases statement with
  | beginEffect => cases hended
  | finishEffect | finishEvidence =>
    cases hended
    cases hwrite
    exact ⟨rfl, rfl, rfl⟩

theorem exists_write (hwritable : Writable request target effects statement) :
    ∃ row, statement.write now (effects.lookup statement.key) = some row := by
  cases statement with
  | beginEffect key repositoryKey kind =>
    cases hlookup : effects.lookup key with
    | none => exact ⟨_, by rw [EffectStatement.key, hlookup]; rfl⟩
    | some row => exact ⟨row, by rw [EffectStatement.key, hlookup]; rfl⟩
  | finishEffect | finishEvidence =>
    obtain ⟨row, hlookup, -⟩ := hwritable
    exact ⟨_, by rw [EffectStatement.key, hlookup]; rfl⟩

theorem written_row (hkept : EffectsKept request target start effects h)
    (hwritable : Writable request target effects statement)
    (hwrite : statement.write now (effects.lookup statement.key) = some row') :
    (row'.repositoryKey = request.repositoryKey ∧
        statement.key = request.key target row'.effectKind) ∧
      (row'.status = .succeeded ↔ statement.ended = some true ∨
        EffectSucceeded statement.key h) := by
  rw [hkept.succeeded]
  cases hended : statement.ended with
  | none =>
    cases statement with
    | finishEffect | finishEvidence => cases hended
    | beginEffect key repositoryKey kind =>
      rw [or_iff_right nofun]
      rcases hlookup : effects.lookup key with _ | row
      · rw [EffectStatement.key, hlookup] at hwrite
        cases hwrite
        refine ⟨hwritable, iff_of_false nofun ?_⟩
        rintro ⟨row, hrow, -⟩
        cases hlookup.symm.trans hrow
      rw [EffectStatement.key, hlookup] at hwrite
      cases hwrite
      refine ⟨hkept.named key row' hlookup, fun hstatus ↦ ⟨row', hlookup, hstatus⟩, ?_⟩
      rintro ⟨row, hrow, hstatus⟩
      exact some.inj (hlookup.symm.trans hrow) ▸ hstatus
  | some succeeded =>
    obtain ⟨row, hlookup, hstatus⟩ : ∃ row, effects.lookup statement.key = some row ∧
        (succeeded = false → row.status ≠ .succeeded) := by
      cases statement with
      | beginEffect => cases hended
      | finishEffect | finishEvidence =>
        cases hended
        exact hwritable
    rw [hlookup] at hwrite
    obtain ⟨hrepository, hkind, hstatus'⟩ := write_ended hended hwrite
    rw [hrepository, hkind, hstatus']
    refine ⟨hkept.named _ row hlookup, ?_⟩
    cases succeeded with
    | true => exact iff_of_true rfl (.inl rfl)
    | false =>
      refine iff_of_false nofun ?_
      rintro (htrue | ⟨row', hrow, hsucceeded⟩)
      · cases htrue
      · exact hstatus rfl (some.inj (hlookup.symm.trans hrow) ▸ hsucceeded)

theorem EffectsKept.write (hkept : EffectsKept request target start effects h)
    (hwritable : Writable request target effects statement) (happlied : outcome.applied = true) :
    EffectsKept request target start (statement.apply now effects)
      (⟨.statement statement, (now, outcome)⟩ :: h) := by
  have hkey : TargetEvent.succeededKey ⟨.statement statement, (now, outcome)⟩ =
    statement.succeededKey := if_pos happlied
  obtain ⟨row', hwrite⟩ : ∃ row, statement.write now (effects.lookup statement.key) = some row :=
    exists_write hwritable
  obtain ⟨hnamed, hstatus⟩ := written_row hkept hwritable hwrite
  have hself : (statement.apply now effects).lookup statement.key = some row' :=
    lookup_apply_self.trans hwrite
  refine ⟨hkept.grows.trans (suffix_cons _ _), hkept.rule.cons trivial, fun key ↦ ?_,
    fun key row hlookup ↦ ?_⟩
  · rw [effectSucceeded_cons, hkey, EffectStatement.succeededKey]
    by_cases hother : key = statement.key
    · subst hother
      simp [hself, hstatus]
    · rw [lookup_apply_ne hother, hkept.succeeded]
      refine or_iff_right fun hsome ↦ ?_
      split_ifs at hsome
      exact hother (some.inj hsome).symm
  · by_cases hother : key = statement.key
    · subst hother
      exact some.inj (hself.symm.trans hlookup) ▸ hnamed
    · exact hkept.named key row ((lookup_apply_ne hother).symm.trans hlookup)

theorem EffectsKept.refuse (hkept : EffectsKept request target start effects h)
    (happlied : outcome.applied = false) :
    EffectsKept request target start effects (⟨.statement statement, (now, outcome)⟩ :: h) := by
  have hkey : TargetEvent.succeededKey ⟨.statement statement, (now, outcome)⟩ = none :=
    if_neg (by rw [happlied]; decide)
  exact hkept.skip hkey trivial

theorem SmokeNamed.write_of_ne (hnamed : SmokeNamed request target effects h)
    (hkey : request.key target "smoke" ≠ statement.key) :
    SmokeNamed request target (statement.apply now effects) (e :: h) := by
  intro hroles row hlookup
  exact hnamed (rolesWritten_cons.1 hroles).2 row ((lookup_apply_ne hkey).symm.trans hlookup)

theorem SmokeNamed.begin (hnamed : SmokeNamed request target effects h) {repositoryKey : String} :
    SmokeNamed request target
      ((EffectStatement.beginEffect key repositoryKey kind).apply now effects) (e :: h) := by
  by_cases hkey : request.key target "smoke" = key
  · intro hroles row hlookup hstatus
    have hwrite : EffectStatement.write now (.beginEffect key repositoryKey kind)
        (effects.lookup key) = some row := by
      rw [hkey] at hlookup
      exact lookup_apply_self.symm.trans hlookup
    rcases hbefore : effects.lookup key with _ | row'
    · rw [hbefore] at hwrite
      cases hwrite
      cases hstatus
    rw [hbefore] at hwrite
    cases hwrite
    exact hnamed (rolesWritten_cons.1 hroles).2 row (hkey ▸ hbefore) hstatus
  · exact hnamed.write_of_ne hkey

theorem SmokeNamed.finish
    (hnamed : key ≠ request.key target "smoke" → SmokeNamed request target effects h) :
    SmokeNamed request target
      ((EffectStatement.finishEffect key succeeded (some request.role) detail).apply now effects)
      (e :: h) := by
  by_cases hkey : request.key target "smoke" = key
  · intro hroles row hlookup hstatus
    have hwrite : (EffectStatement.finishEffect key succeeded (some request.role) detail).write now
        (effects.lookup key) = some row := by
      rw [hkey] at hlookup
      exact lookup_apply_self.symm.trans hlookup
    rcases hbefore : effects.lookup key with _ | row'
    · rw [hbefore] at hwrite
      cases hwrite
    rw [hbefore] at hwrite
    cases hwrite
    rfl
  · exact (hnamed (Ne.symm hkey)).write_of_ne hkey

theorem SmokeNamed.fail (hnamed : SmokeNamed request target effects h)
    (hended : statement.ended = some false) :
    SmokeNamed request target (statement.apply now effects) (e :: h) := by
  by_cases hkey : request.key target "smoke" = statement.key
  · intro _ row hlookup hstatus
    rw [hkey, lookup_apply_self] at hlookup
    rcases hbefore : effects.lookup statement.key with _ | row'
    · rw [hbefore] at hlookup
      cases statement with
      | beginEffect => cases hended
      | finishEffect | finishEvidence => cases hlookup
    rw [hbefore] at hlookup
    cases (write_ended hended hlookup).2.2.symm.trans hstatus
  · exact hnamed.write_of_ne hkey

/-! ### Steps -/

variable {env : TargetEnvironment} {host : DeliveryHost} {directory : String} {step : RecipeStep}

theorem after_statement {Q : TargetProgram.Step Unit → TargetHistory → Prop}
    {E : DeliveryEffects → TargetHistory → Prop}
    (hdone : ∀ now, Q (.ok (), statement.apply now effects)
      (⟨.statement statement, (now, .done)⟩ :: h))
    (hrefused : ∀ now error, Q (.error error, effects)
      (⟨.statement statement, (now, .refused error)⟩ :: h))
    (happlied : ∀ now, E (statement.apply now effects)
      (⟨.statement statement, (now, .stopped true)⟩ :: h))
    (hstopped : ∀ now, E effects (⟨.statement statement, (now, .stopped false)⟩ :: h)) :
    After env (TargetProgram.execute statement effects) h Q E := by
  rw [TargetProgram.execute, after_bind, after_perform]
  generalize env h (.statement statement) = answer
  obtain ⟨now, outcome⟩ := answer
  rcases outcome with _ | error | _ | _
  · exact hdone now
  · exact hrefused now error
  · exact hstopped now
  · exact happlied now

/-- The table agrees with what was performed, and a smoke that has passed has its role. -/
structure Accounted (request : TargetRequest) (target : String) (start : TargetHistory)
    (effects : DeliveryEffects) (h : TargetHistory) : Prop where
  kept : EffectsKept request target start effects h
  named : SmokeNamed request target effects h

/-- How a step may leave the table. When the call goes on, nothing has failed and the effect has
succeeded. -/
structure StepEnds (request : TargetRequest) (target kind : String) (start h₀ : TargetHistory)
    (step : TargetProgram.Step Unit) (h : TargetHistory) : Prop where
  accounted : Accounted request target start step.2 h
  grows : h₀ <:+ h
  ok : step.1 = .ok () → CallSound h ∧ EffectSucceeded (request.key target kind) h

theorem Accounted.skip (haccounted : Accounted request target start effects h)
    (he : e.succeededKey = none) (hrule : CommandRule request target h e) :
    Accounted request target start effects (e :: h) :=
  ⟨haccounted.kept.skip he hrule, haccounted.named.skip⟩

theorem named_of_unwritten
    (hnamed : request.key target kind ≠ request.key target "smoke" ∨ succeeded = false → SmokeNamed request target effects h)
    (houtcome : outcome.applied = false) :
    SmokeNamed request target effects (⟨.statement (.finishEffect (request.key target kind)
      succeeded (some request.role) detail), (now, outcome)⟩ :: h) := by
  by_cases hkey : request.key target kind = request.key target "smoke"
  · cases succeeded with
    | true => exact fun hroles ↦ ((rolesWritten_cons.1 hroles).1 ⟨hkey, houtcome⟩).elim
    | false => exact (hnamed (.inr rfl)).skip
  · exact (hnamed (.inl hkey)).skip

theorem after_finishEffect {answer : Except String Unit}
    (hkept : EffectsKept request target start effects h)
    (hnamed : request.key target kind ≠ request.key target "smoke" ∨ succeeded = false → SmokeNamed request target effects h)
    (hgrows : h₀ <:+ h) (hsound : succeeded = true → CallSound h)
    (hwritable : Writable request target effects (.finishEffect (request.key target kind) succeeded (some request.role) detail))
    (hanswer : answer = .ok () → succeeded = true) :
    After env (do
      match ← TargetProgram.execute (.finishEffect (request.key target kind) succeeded
        (some request.role) detail) effects with
      | (.error error, effects) => return (.error error, effects)
      | (.ok (), effects) => return (answer, effects)) h
      (StepEnds request target kind start h₀) (Accounted request target start) := by
  rw [after_bind]
  refine after_statement (fun now ↦ ?_) (fun now error ↦ ?_) (fun now ↦ ?_) (fun now ↦ ?_)
  · refine ⟨⟨hkept.write hwritable rfl, .finish fun hne ↦ hnamed (.inl hne)⟩,
      hgrows.trans (suffix_cons _ _), fun hok ↦ ?_⟩
    obtain rfl := hanswer hok
    exact ⟨(callSound_cons rfl).2 ⟨not_false, hsound rfl⟩, effectSucceeded_cons.2 (.inl rfl)⟩
  · exact ⟨⟨hkept.refuse rfl, named_of_unwritten hnamed rfl⟩, hgrows.trans (suffix_cons _ _),
      nofun⟩
  · exact ⟨hkept.write hwritable rfl, .finish fun hne ↦ hnamed (.inl hne)⟩
  · exact ⟨hkept.refuse rfl, named_of_unwritten hnamed rfl⟩

theorem after_recordOutput {output : CommandOutput}
    (haccounted : Accounted request target start effects h) (hgrows : h₀ <:+ h)
    (hsound : output.success = true → CallSound h)
    (hrow : effects.lookup (request.key target step.kind) = some row)
    (hstatus : row.status ≠ .succeeded) :
    After env (TargetProgram.recordOutput host request target step output effects) h
      (StepEnds request target step.kind start h₀) (Accounted request target start) := by
  have hanswer : ∀ message : String,
      (if output.success then Except.ok () else .error message) = .ok () →
        output.success = true := by
    intro message hok
    split_ifs at hok with hsuccess
    exact hsuccess
  rw [TargetProgram.recordOutput]
  rcases hretain : step.retainOutput with _ | _
  · exact after_finishEffect haccounted.kept (fun _ ↦ haccounted.named) hgrows hsound
      ⟨row, hrow, fun _ ↦ hstatus⟩ (hanswer _)
  let message := host.redactSensitive (step.kind ++ " failed; " ++ step.remedy ++ ": " ++
    String.ofList (Text.trim output.stderr.toList))
  let detail := if output.success then none else some message
  let evidence := EffectStatement.finishEvidence (request.key target step.kind) output.success
    target request.revision (output.stdout ++ output.stderr) detail
  show After env (TargetProgram.execute evidence effects >>= _) h _ _
  rw [after_bind]
  have hwritable : Writable request target effects evidence := ⟨row, hrow, fun _ ↦ hstatus⟩
  have hlookup : ∀ now, ∃ row', (evidence.apply now effects).lookup
      (request.key target step.kind) = some row' ∧ row'.status = .ofSuccess output.success := by
    intro now
    obtain ⟨row', hwrite⟩ : ∃ row', evidence.write now (some row) = some row' := ⟨_, rfl⟩
    have hself : (evidence.apply now effects).lookup evidence.key = some row' := by
      rw [lookup_apply_self]
      exact (congrArg (evidence.write now) hrow).trans hwrite
    exact ⟨row', hself, (write_ended rfl hwrite).2.2⟩
  have hfail : ∀ now e, output.success = false →
      SmokeNamed request target (evidence.apply now effects) (e :: h) :=
    fun now e hsuccess ↦ haccounted.named.fail (congrArg some hsuccess)
  refine after_statement (fun now ↦ ?_) (fun now error ↦ ?_) (fun now ↦ ?_) (fun now ↦ ?_)
  · refine after_finishEffect (haccounted.kept.write hwritable rfl) (fun hor ↦ ?_)
      (hgrows.trans (suffix_cons _ _))
      (fun hsuccess ↦ (callSound_cons rfl).2 ⟨not_false, hsound hsuccess⟩) ?_ (hanswer _)
    · rcases hor with hne | hsuccess
      · exact haccounted.named.write_of_ne (Ne.symm hne)
      · exact hfail now _ hsuccess
    · obtain ⟨row', hself, hended⟩ := hlookup now
      refine ⟨row', hself, fun hsuccess ↦ ?_⟩
      rw [hended, hsuccess]
      decide
  · exact ⟨⟨haccounted.kept.refuse rfl, haccounted.named.skip⟩,
      hgrows.trans (suffix_cons _ _), nofun⟩
  · refine ⟨haccounted.kept.write hwritable rfl, ?_⟩
    rcases hsuccess : output.success with _ | _
    · exact hfail now _ hsuccess
    intro hroles
    refine ((rolesWritten_cons.1 hroles).1 ?_).elim
    show TargetEvent.LeavesRoleOut _ ⟨.statement (.finishEvidence _ output.success ..), _⟩
    rw [hsuccess]
    trivial
  · exact ⟨haccounted.kept.refuse rfl, haccounted.named.skip⟩

/-- The kinds of the steps that come earlier in the recipe have succeeded. -/
def StepsBefore (request : TargetRequest) (target kind : String) (h : TargetHistory) : Prop :=
  ∃ earlier later, earlier ++ kind :: later ∈ recipeKinds ∧
    ∀ other ∈ earlier, EffectSucceeded (request.key target other) h

theorem after_beginEffect (haccounted : Accounted request target start effects h)
    (hsound : CallSound h) :
    After env
      (TargetProgram.beginEffect (request.key target kind) request.repositoryKey kind effects) h
      (fun step h' ↦ Accounted request target start step.2 h' ∧ h <:+ h' ∧ ∀ row, step.1 = .ok row →
        CallSound h' ∧ step.2.lookup (request.key target kind) = some row)
      (Accounted request target start) := by
  have herror : ∀ (error : String) (row : DeliveryEffectRow), Except.error error ≠ Except.ok row :=
    nofun
  rw [TargetProgram.beginEffect, after_bind]
  have hwritable : Writable request target effects
    (.beginEffect (request.key target kind) request.repositoryKey kind) := ⟨rfl, rfl⟩
  refine after_statement (fun now ↦ ?_) (fun now error ↦ ?_) (fun now ↦ ?_) (fun now ↦ ?_)
  · have hwritten : EffectsKept request target start _ (⟨.statement (.beginEffect
        (request.key target kind) request.repositoryKey kind), (now, .done)⟩ :: h) :=
      haccounted.kept.write hwritable rfl
    have hbegun := Accounted.mk hwritten haccounted.named.begin
    show After env (perform (TargetOp.read _) >>= _) _ _ _
    rw [after_bind, after_perform]
    generalize env _ (.read _) = answer
    rcases answer with error | ⟨⟩
    · exact ⟨hbegun.skip rfl trivial, (suffix_cons _ _).trans (suffix_cons _ _),
        fun row hrow ↦ (herror _ row hrow).elim⟩
    · have hread := hbegun.skip (e := ⟨.read (request.key target kind), .ok ()⟩) rfl trivial
      have hgrows : h <:+ ⟨.read (request.key target kind), .ok ()⟩ :: ⟨.statement (.beginEffect
          (request.key target kind) request.repositoryKey kind), (now, .done)⟩ :: h :=
        (suffix_cons _ _).trans (suffix_cons _ _)
      dsimp only
      split
      · exact ⟨hread, hgrows, fun row hrow ↦ (herror _ row hrow).elim⟩
      · next row hlookup =>
        refine ⟨hread, hgrows, fun row' hrow ↦ ⟨?_, ?_⟩⟩
        · exact (callSound_cons rfl).2 ⟨not_false, (callSound_cons rfl).2 ⟨not_false, hsound⟩⟩
        · exact Except.ok.inj hrow ▸ hlookup
  · exact ⟨⟨haccounted.kept.refuse rfl, haccounted.named.skip⟩, suffix_cons _ _,
      fun row hrow ↦ (herror _ row hrow).elim⟩
  · exact ⟨haccounted.kept.write hwritable rfl, haccounted.named.begin⟩
  · exact ⟨haccounted.kept.refuse rfl, haccounted.named.skip⟩

theorem EffectSucceeded.of_suffix (hsucceeded : EffectSucceeded key h) (hgrows : h <:+ h') :
    EffectSucceeded key h' := by
  obtain ⟨e, he, hkey⟩ := hsucceeded
  exact ⟨e, hgrows.mem he, hkey⟩

theorem StepsBefore.of_suffix (hbefore : StepsBefore request target kind h) (hgrows : h <:+ h') :
    StepsBefore request target kind h' := by
  obtain ⟨earlier, later, hkinds, hearlier⟩ := hbefore
  exact ⟨earlier, later, hkinds, fun other hother ↦ (hearlier other hother).of_suffix hgrows⟩

theorem after_runEffect (haccounted : Accounted request target start effects h)
    (hsound : CallSound h) (hbefore : StepsBefore request target step.kind h) :
    After env (TargetProgram.runEffect host request target directory step effects) h
      (StepEnds request target step.kind start h) (Accounted request target start) := by
  rw [TargetProgram.runEffect, after_bind]
  refine (after_beginEffect haccounted hsound).imp fun begun h' hbegun ↦ ?_
  obtain ⟨answer, effects'⟩ := begun
  obtain ⟨haccounted', hgrows, hok⟩ := hbegun
  rcases answer with error | row
  · exact ⟨haccounted', hgrows, nofun⟩
  obtain ⟨hsound', hlookup⟩ := hok row rfl
  dsimp only
  split
  · next hstatus =>
    exact ⟨haccounted', hgrows, fun _ ↦
      ⟨hsound', (haccounted'.kept.succeeded _).2 ⟨row, hlookup, hstatus⟩⟩⟩
  · exact ⟨haccounted', hgrows, nofun⟩
  · next hstatus =>
    have hpending : row.status ≠ .succeeded := by
      rw [hstatus]
      decide
    have hrule : ∀ answer, CommandRule request target h'
        ⟨.command step.kind directory step.argv, answer⟩ := by
      refine fun answer ↦ ⟨fun hsucceeded ↦ ?_, hsound', hbefore.of_suffix hgrows⟩
      obtain ⟨row', hlookup', hsucceeded'⟩ := (haccounted'.kept.succeeded _).1 hsucceeded
      exact hpending (some.inj (hlookup.symm.trans hlookup') ▸ hsucceeded')
    rw [after_bind, after_perform]
    have hran := fun answer ↦ haccounted'.skip
      (e := ⟨.command step.kind directory step.argv, answer⟩) rfl (hrule answer)
    generalize env h' (.command _ _ _) = answer
    have hgrows' : h <:+ ⟨.command step.kind directory step.argv, answer⟩ :: h' :=
      hgrows.trans (suffix_cons _ _)
    rcases answer with output | error | _
    · refine after_recordOutput (hran _) hgrows' (fun hsuccess ↦ ?_) hlookup hpending
      refine (callSound_cons rfl).2 ⟨fun hfails ↦ ?_, hsound'⟩
      cases hsuccess.symm.trans hfails
    · exact after_finishEffect (hran _).kept (fun _ ↦ (hran _).named) hgrows' nofun
        ⟨row, hlookup, fun _ ↦ hpending⟩ nofun
    · exact hran _

theorem after_runEffects {steps : List RecipeStep} {ran : List String}
    (haccounted : Accounted request target start effects h) (hsound : CallSound h)
    (hkinds : ran ++ steps.map (·.kind) ∈ recipeKinds)
    (hran : ∀ kind ∈ ran, EffectSucceeded (request.key target kind) h) :
    After env (TargetProgram.runEffects host request target directory steps effects) h
      (fun answer h' ↦ Accounted request target start answer.2 h' ∧ (answer.1 = .ok () →
        ∀ kind ∈ ran ++ steps.map (·.kind), EffectSucceeded (request.key target kind) h'))
      (Accounted request target start) := by
  induction steps generalizing effects h ran with
  | nil =>
    refine ⟨haccounted, fun _ kind hkind ↦ hran kind ?_⟩
    rwa [map_nil, append_nil] at hkind
  | cons step steps ih =>
    rw [TargetProgram.runEffects, after_bind]
    have hbefore : StepsBefore request target step.kind h := ⟨ran, _, hkinds, hran⟩
    refine (after_runEffect haccounted hsound hbefore).imp fun answer h' hstep ↦ ?_
    obtain ⟨answer, effects'⟩ := answer
    obtain ⟨haccounted', hgrows, hok⟩ := hstep
    rcases answer with error | ⟨⟩
    · exact ⟨haccounted', nofun⟩
    · obtain ⟨hsound', hsucceeded⟩ := hok rfl
      have hkinds' : (ran ++ [step.kind]) ++ steps.map (·.kind) ∈ recipeKinds := by
        rw [append_assoc]
        exact hkinds
      have hran' : ∀ kind ∈ ran ++ [step.kind], EffectSucceeded (request.key target kind) h' := by
        intro kind hkind
        rcases mem_append.1 hkind with hmem | hmem
        · exact (hran kind hmem).of_suffix hgrows
        · exact mem_singleton.1 hmem ▸ hsucceeded
      refine (ih haccounted' hsound' hkinds' hran').imp fun answer h'' hend ↦ ⟨hend.1, ?_⟩
      rw [append_assoc] at hend
      exact hend.2

/-! ### Calls -/

variable {call : TargetCall} {provider : ProviderConfig}

theorem recipeSteps_kinds (provider : ProviderConfig) (recipe : DeployRecipeConfig) :
    (recipeSteps provider recipe).map (·.kind) ∈ recipeKinds := by
  unfold recipeSteps
  cases provider.via with
  | none => exact .tail _ (.head _)
  | some via => exact .head _

theorem smoke_mem_recipeKinds {kinds : List String} (hkinds : kinds ∈ recipeKinds) :
    "smoke" ∈ kinds := by
  rw [recipeKinds, mem_pair] at hkinds
  rcases hkinds with rfl | rfl <;> decide

/-- A call has not failed yet. -/
structure Underway (request : TargetRequest) (target : String) (start : TargetHistory)
    (effects : DeliveryEffects) (h : TargetHistory) : Prop where
  accounted : Accounted request target start effects h
  sound : CallSound h

theorem Underway.skip (hcall : Underway request target start effects h)
    (hkey : e.succeededKey = none) (hrule : CommandRule request target h e)
    (hcalled : e.isCalled = false) (hfails : ¬e.Fails) :
    Underway request target start effects (e :: h) :=
  ⟨hcall.accounted.skip hkey hrule, (callSound_cons hcalled).2 ⟨hfails, hcall.sound⟩⟩

theorem after_gateEvidence {gate : String} (hcall : Underway request target start effects h) :
    After env (TargetProgram.gateEvidence request.repositoryKey gate effects) h
      (fun _ ↦ Underway request target start effects) (Accounted request target start) := by
  rw [TargetProgram.gateEvidence]
  split
  · rw [after_bind, after_perform]
    generalize env h .otherEffects = answer
    rcases answer with error | others <;> exact hcall.skip rfl trivial rfl not_false
  · split
    · rw [after_perform]
      generalize env h (.verificationEvidence _ _) = answer
      exact hcall.skip rfl trivial rfl not_false
    · exact hcall

theorem after_checkGates {gates : List String}
    (hcall : Underway request target start effects h) :
    After env (TargetProgram.checkGates request.repositoryKey effects gates) h
      (fun _ ↦ Underway request target start effects) (Accounted request target start) := by
  induction gates generalizing h with
  | nil => exact hcall
  | cons gate gates ih =>
    rw [TargetProgram.checkGates]
    show After env (TargetProgram.gateEvidence _ _ _ >>= _) h _ _
    rw [after_bind]
    refine (after_gateEvidence hcall).imp fun answer h' hcall' ↦ ?_
    rcases answer with error | evidence
    · exact hcall'
    · dsimp only
      split_ifs
      · exact ih hcall'
      · exact hcall'

theorem after_checkWarrant (hcall : Underway request target start effects h) :
    After env (TargetProgram.checkWarrant host call) h
      (fun _ ↦ Underway request target start effects) (Accounted request target start) := by
  rw [TargetProgram.checkWarrant]
  split_ifs
  · exact hcall
  · split
    · exact hcall
    · split
      · exact hcall
      · show After env (perform TargetOp.now >>= _) h _ _
        rw [after_bind, after_perform]
        exact hcall.skip rfl trivial rfl not_false

/-- What is known after a call: when it returns a result, the smoke has succeeded. -/
structure CallEnds (request : TargetRequest) (target : String) (start : TargetHistory)
    (answer : TargetProgram.Step TargetDeliveryResult) (h : TargetHistory) : Prop where
  accounted : Accounted request target start answer.2 h
  ok : ∀ result, answer.1 = .ok result → EffectSucceeded (request.key target "smoke") h

theorem boundTarget_eq {name : String}
    (hbound : call.policy.targets.lookup request.role = some target)
    (hok : TargetProgram.boundTarget call request.role = .ok (name, provider)) : name = target := by
  rw [TargetProgram.boundTarget, hbound] at hok
  dsimp only at hok
  split at hok
  · cases hok
  · split_ifs at hok <;> cases hok <;> rfl

/-- **One call.** -/
theorem after_deliverToWith (haccounted : Accounted request target start effects h)
    (hbound : call.policy.targets.lookup request.role = some target) :
    After env (TargetProgram.deliverToWith host request call effects) h
      (CallEnds request target start) (Accounted request target start) := by
  rw [TargetProgram.deliverToWith, after_bind, after_perform]
  have hcall : Underway request target start effects (⟨.called, env h .called⟩ :: h) :=
    ⟨haccounted.skip rfl trivial, callSound_of_isCalled rfl⟩
  rcases htarget : TargetProgram.boundTarget call request.role with error | bound
  · exact ⟨hcall.accounted, nofun⟩
  obtain ⟨name, provider⟩ := bound
  obtain rfl := boundTarget_eq hbound htarget
  show After env (TargetProgram.checkWarrant _ _ >>= _) _ _ _
  rw [after_bind]
  refine (after_checkWarrant hcall).imp fun answer h' hwarrant ↦ ?_
  rcases answer with error | ⟨⟩
  · exact ⟨hwarrant.accounted, nofun⟩
  show After env (TargetProgram.checkGates _ _ _ >>= _) _ _ _
  rw [after_bind]
  refine (after_checkGates hwarrant).imp fun answer h'' hgates ↦ ?_
  rcases answer with error | ⟨⟩
  · exact ⟨hgates.accounted, nofun⟩
  show After env (TargetProgram.deliverRecipe _ _ _ _ _ _) _ _ _
  rw [TargetProgram.deliverRecipe]
  split
  · exact ⟨hgates.accounted, nofun⟩
  · next recipe _ =>
    have hkinds : [] ++ (recipeSteps provider recipe).map (·.kind) ∈ recipeKinds :=
      recipeSteps_kinds provider recipe
    rw [after_bind]
    refine (after_runEffects hgates.accounted hgates.sound hkinds nofun).imp
      fun answer hlast hran ↦ ?_
    obtain ⟨answer, effects'⟩ := answer
    rcases answer with error | ⟨⟩
    · exact ⟨hran.1, nofun⟩
    · exact ⟨hran.1, fun _ _ ↦ hran.2 rfl "smoke" (smoke_mem_recipeKinds hkinds)⟩

/-- What is known of a run: the smoke of a call that returned a result has succeeded. -/
structure RunKept (request : TargetRequest) (target : String) (run : TargetRun) : Prop where
  kept : EffectsKept request target [] run.effects run.history
  named : SmokeNamed request target run.effects run.history
  ok : ∀ result, .ok result ∈ run.returned →
    EffectSucceeded (request.key target "smoke") run.history

theorem runKept_nil : RunKept request target {} where
  kept :=
    { grows := suffix_refl _
      rule := .refl
      succeeded := fun key ↦ by simp [EffectSucceeded]
      named := fun key row hlookup ↦ by simp at hlookup }
  named := fun _ row hlookup ↦ by simp at hlookup
  ok := fun result hmem ↦ (not_mem_nil hmem).elim

theorem RunKept.next (hrun : RunKept request target run)
    (hbound : call.policy.targets.lookup request.role = some target) :
    RunKept request target (run.call host request env call) := by
  have haccounted : Accounted request target run.history run.effects run.history :=
    ⟨⟨suffix_refl _, hrun.kept.rule, hrun.kept.succeeded, hrun.kept.named⟩, hrun.named⟩
  have hcall : After env (TargetProgram.deliverToWith host request call run.effects) run.history
      (CallEnds request target run.history) (Accounted request target run.history) :=
    after_deliverToWith haccounted hbound
  unfold After at hcall
  rw [TargetRun.call]
  rcases hresult : (TargetProgram.deliverToWith host request call run.effects).run env run.history
    with ⟨effects | ⟨answer, effects⟩, history⟩
  · rw [hresult] at hcall
    obtain ⟨hkept, hnamed⟩ := hcall
    exact
      { kept := ⟨nil_suffix, hkept.rule, hkept.succeeded, hkept.named⟩
        named := hnamed
        ok := fun result hmem ↦ (hrun.ok result hmem).of_suffix hkept.grows }
  · rw [hresult] at hcall
    obtain ⟨⟨hkept, hnamed⟩, hok⟩ := hcall
    refine ⟨⟨nil_suffix, hkept.rule, hkept.succeeded, hkept.named⟩, hnamed, ?_⟩
    intro result hmem
    rcases mem_cons.1 hmem with hanswer | hmem
    · exact hok result hanswer.symm
    · exact (hrun.ok result hmem).of_suffix hkept.grows

/-- A call whose policy binds the role to the target. -/
structure BoundCall (request : TargetRequest) (target : String) extends TargetCall where
  bound : policy.targets.lookup request.role = some target

theorem runKept_targetRun (host : DeliveryHost) (request : TargetRequest) (target : String)
    (env : TargetEnvironment) (calls : List (BoundCall request target)) :
    RunKept request target (targetRun host request env (calls.map (·.toTargetCall))) := by
  have hrun : ∀ run, RunKept request target run → RunKept request target
      ((calls.map (·.toTargetCall)).foldl (TargetRun.call host request env) run) := by
    induction calls with
    | nil => exact fun run hrun ↦ hrun
    | cons call calls ih => exact fun run hrun ↦ ih _ (hrun.next call.bound)
  exact hrun _ runKept_nil

/-! ### The gate -/

def TargetRequest.smokeGate (request : TargetRequest) : String :=
  "deploy:" ++ request.role ++ "-smoke-passing"

theorem smokeRole_smokeGate : smokeRole request.smokeGate = some request.role := by
  unfold smokeRole TargetRequest.smokeGate
  rw [String.append_assoc, String.toList_append, Text.stripPrefix?_append, bind_some,
    String.toList_append, Text.stripSuffix?_append, map_some, String.ofList_toList]

/-- The gate passes on the rows of the table and any others, as long as none of those is a smoke of
the role at the time of the delivered one or later. -/
def GatePasses (request : TargetRequest) (target : String) (effects : DeliveryEffects) : Prop :=
  ∃ row, effects.lookup (request.key target "smoke") = some row ∧
    ∀ verification others, (∀ other ∈ others,
        other.IsSmokeOf request.repositoryKey request.role → other.updatedAt < row.updatedAt) →
      ∃ evidence, resolveInternalGate verification (effects.entries.map (·.2) ++ others)
        request.repositoryKey request.smokeGate = .ok (some evidence) ∧ evidence.passed = true

theorem not_gatePasses_of_isNone
    (hnone : (smokeEvidence request.repositoryKey request.role
      (effects.entries.map (·.2))).isNone = true) : ¬GatePasses request target effects := by
  rintro ⟨row, -, hpasses⟩
  obtain ⟨evidence, hevidence, -⟩ := hpasses (fun _ ↦ .ok none) [] (forall_mem_nil _)
  rw [resolveInternalGate, smokeRole_smokeGate, append_nil] at hevidence
  rw [Except.ok.inj hevidence] at hnone
  cases hnone

/-- What delivery to a target keeps to. -/
structure TargetKept (request : TargetRequest) (target : String) (run : TargetRun) : Prop where
  /-- An effect that was recorded as succeeded is not run again, none runs after a failure in its
  call, and each runs after the earlier steps of its recipe have succeeded. -/
  commands : ∀ e before, e :: before <:+ run.history → CommandRule request target before e
  gate : RolesWritten (request.key target "smoke") run.history →
    (∃ result, .ok result ∈ run.returned) → GatePasses request target run.effects

theorem RunKept.gate (hrun : RunKept request target run)
    (hroles : RolesWritten (request.key target "smoke") run.history)
    (hok : ∃ result, .ok result ∈ run.returned) : GatePasses request target run.effects := by
  obtain ⟨result, hmem⟩ := hok
  obtain ⟨row, hlookup, hstatus⟩ := (hrun.kept.succeeded _).1 (hrun.ok result hmem)
  obtain ⟨hrepository, hkind⟩ := hrun.kept.named _ row hlookup
  have hsmoke : row.IsSmokeOf request.repositoryKey request.role :=
    ⟨hrepository, (key_inj.1 hkind).symm, hrun.named hroles row hlookup hstatus⟩
  refine ⟨row, hlookup, fun verification others hothers ↦ ?_⟩
  let rows := run.effects.entries.map (·.2) ++ others
  let smokes := rows.filter fun row ↦ row.IsSmokeOf request.repositoryKey request.role
  have hrow : row ∈ smokes := by
    have hentry : (⟨_, row⟩ : Sigma fun _ : String ↦ DeliveryEffectRow) ∈ run.effects.entries :=
      AList.mem_lookup_iff.1 hlookup
    exact mem_filter.2 ⟨mem_append_left _ (List.mem_map.2 ⟨_, hentry, rfl⟩), by simpa using hsmoke⟩
  have hlast : ∀ last, smokes.argmax (·.updatedAt) = some last → last = row := by
    intro last hlast
    obtain ⟨hlastrows, hlastsmoke⟩ := mem_filter.1 (argmax_mem hlast)
    have hlastsmoke' : last.IsSmokeOf request.repositoryKey request.role := by
      simpa using hlastsmoke
    rcases mem_append.1 hlastrows with hown | hother
    · -- the table has one row under the key of the smoke
      obtain ⟨⟨key, last'⟩, hentry, rfl⟩ := List.mem_map.1 hown
      have hlookup' := AList.mem_lookup_iff.2 hentry
      have hkey := (hrun.kept.named key _ hlookup').2
      rw [hlastsmoke'.2.1] at hkey
      rw [hkey] at hlookup'
      exact some.inj (hlookup'.symm.trans hlookup)
    · have hless := hothers last hother hlastsmoke'
      exact (not_le_of_gt hless (le_of_mem_argmax hrow hlast)).elim
  have hgate : resolveInternalGate verification rows request.repositoryKey request.smokeGate =
      .ok (smokeEvidence request.repositoryKey request.role rows) := by
    rw [resolveInternalGate, smokeRole_smokeGate]
  rcases hargmax : smokes.argmax (·.updatedAt) with _ | last
  · have hempty : smokes = [] := argmax_eq_none.1 hargmax
    rw [hempty] at hrow
    cases hrow
  obtain rfl := hlast last hargmax
  refine ⟨_, hgate.trans (congrArg Except.ok (congrArg (Option.map _) hargmax)), ?_⟩
  exact decide_eq_true hstatus

/-- **Delivery to a target.** Over any calls for one request and one target. -/
theorem target_kept (host : DeliveryHost) (request : TargetRequest) (target : String)
    (env : TargetEnvironment) (calls : List (BoundCall request target)) :
    TargetKept request target (targetRun host request env (calls.map (·.toTargetCall))) := by
  have hrun := runKept_targetRun host request target env calls
  exact ⟨fun e before hsuffix ↦ hrun.kept.rule.allowed hsuffix nil_suffix, hrun.gate⟩

end

def stagingRequest : TargetRequest :=
  ⟨"staging", "repo", "session", "PRD-48", "abc123"⟩

def stagingCall : BoundCall stagingRequest "box" where
  providers :=
    [("box", ⟨.deployTarget, "box.example", none, some ⟨["sync"], ["restart"], ["smoke"]⟩⟩)]
  policy :=
    { mode := .reviewGatedAutomatic
      maxDeliveriesPerSession := 1
      commandTimeoutMs := 1000
      remote := "origin"
      base := "main"
      providerArgv := []
      stagingEnvironment := "staging"
      deployArgv := []
      smokeArgv := []
      rollbackArgv := []
      commentBlockers := false
      requiredChecks := []
      migrationGateArgv := []
      credentialReferences := []
      pocWarrant := none
      reviewGate := none
      targets := [("staging", "box")]
      identity := none
      forge := .none }
  externalGates := []
  directory := "."
  bound := rfl

def plainHost : DeliveryHost :=
  ⟨id, id, fun _ ↦ none⟩

/-- Every command succeeds. The process stops when the outcome of a smoke has been written. -/
def stoppingAtEvidence : TargetEnvironment
  | _, .called => ()
  | _, .now => 0
  | _, .otherEffects => .ok []
  | _, .verificationEvidence .. => .ok none
  | _, .statement (.finishEvidence ..) => ("2026-01-01T00:00:00+00:00", .stopped true)
  | _, .statement _ => ("2026-01-01T00:00:00+00:00", .done)
  | _, .read _ => .ok ()
  | _, .command .. => .exited ⟨true, some 0, "", ""⟩

theorem not_gatePasses :
    ¬∀ (host : DeliveryHost) (request : TargetRequest) (target : String) (env : TargetEnvironment)
      (calls : List (BoundCall request target)) (run : TargetRun),
      run = targetRun host request env (calls.map (·.toTargetCall)) →
        (∃ result, .ok result ∈ run.returned) → GatePasses request target run.effects := by
  intro h
  have hgate := h plainHost stagingRequest "box" stoppingAtEvidence [stagingCall, stagingCall] _ rfl
    ⟨⟨"staging", "box", "abc123", true⟩, mem_singleton_self _⟩
  revert hgate
  exact not_gatePasses_of_isNone (by decide +kernel)

end FamiliarAi
