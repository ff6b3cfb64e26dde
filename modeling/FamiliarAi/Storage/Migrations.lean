import FamiliarAi.Storage.Integration

/-!
# Migration versions

A PRD that adds a migration to the repository is given a version for it before it is worked on, so that
no two PRDs write the same one. We show over any sequence of calls that **a version is granted to one
PRD of one session only**, that a consumed version is never granted again, that a PRD that asks again in
its session is given the version that it has, and that each grant is resolved once at most.

The reservation is of the session: a PRD that is taken up again by another session, with the checkpoint
that it has, is given another version. One that has been released may be reserved, and then resolved,
again.
-/

namespace FamiliarAi

open Relational List Option

variable {grant : MigrationReservation} {row : MigrationReservation}
  {c c' : Connection Database FamiliarError} {db : Database} {session prd : String}
  {steps : List SessionStep} {firstAvailable : ℕ} {o : Orchestration}

theorem respects_of_frame {R : Database → Database → Prop} [Std.Refl R] [IsTrans Database R]
    (hsessions : ∀ db sessions,
      R db { db with orchestration := { db.orchestration with sessions } })
    (hattempts : ∀ db attempts,
      R db { db with orchestration := { db.orchestration with attempts } })
    {call : SessionCall}
    (hreserve : ∀ repository session prd firstAvailable,
      call ≠ .reserveMigration repository session prd firstAvailable)
    (hresolve : ∀ session prd consume, call ≠ .resolveMigration session prd consume) :
    call.query.Respects R := by
  have hpure {α : Type} (a : α) : (pure a : SessionQuery α).Respects R :=
    .of_readOnly .pure
  have hensure (p : Prop) [Decidable p] (e : FamiliarError) :
      (Query.ensure p e : SessionQuery Unit).Respects R := .of_readOnly .ensure
  have honSessions {α : Type}
      (f : Table driverSessionSchema → Option (α × Table driverSessionSchema)) :
      (onSessions f).Respects R := .changePart fun db t ↦ hsessions db t
  have honAttempts {α : Type}
      (f : Table driverAttemptSchema → Option (α × Table driverAttemptSchema)) :
      (onAttempts f).Respects R := .changePart fun db t ↦ hattempts db t
  cases call with
  | openSession session repository => exact (honSessions _).bind fun _ ↦ hpure _
  | heartbeat session worker =>
    exact ((honSessions _).bind fun _ ↦ hensure _ _).bind fun _ ↦ hpure _
  | finishSession session reason =>
    exact ((honSessions _).bind fun _ ↦ hensure _ _).bind fun _ ↦ hpure _
  | recoverIncomplete =>
    exact ((honAttempts _).bind fun _ ↦ (honSessions _).bind fun _ ↦ hpure _).bind fun _ ↦ hpure _
  | recordAttemptStarted session prdId startedAt =>
    refine .bind ?_ fun _ ↦ hpure _
    refine .bind (.of_readOnly .read) fun _ ↦
      Query.Respects.bind (Query.Respects.write fun db db' h ↦ ?_) fun _ ↦ hpure _
    split_ifs at h
    obtain ⟨attempts, -, rfl⟩ := map_eq_some_iff.1 h
    exact hattempts db attempts
  | recordAttemptFinished key outcome retainedReason =>
    exact ((honAttempts _).bind fun _ ↦ hensure _ _).bind fun _ ↦ hpure _
  | initializeIntegration session revision =>
    exact ((honSessions _).bind fun _ ↦ hensure _ _).bind fun _ ↦ hpure _
  | advanceIntegration session expected candidate sequence =>
    refine Query.Respects.bind (Query.Carries.transaction (Query.Respects.carries ?_)) fun _ ↦ hpure _
    exact (honSessions _).bind fun _ ↦ (hensure _ _).bind fun _ ↦
      (honAttempts _).bind fun _ ↦ hensure _ _
  | reserveMigration repository session prd firstAvailable => exact absurd rfl (hreserve _ _ _ _)
  | resolveMigration session prd consume => exact absurd rfl (hresolve _ _ _)

/-! ### Grants and resolutions -/

def MigrationReservation.granted (row : MigrationReservation) : MigrationReservation :=
  { row with state := .reserved }

theorem MigrationReservation.granted_of_reserved (h : row.state = .reserved) :
    row.granted = row := by
  rw [granted, ← h]

/-- Rows stay what was granted, and consumed ones stay consumed. -/
def Orchestration.Keeps (o o' : Orchestration) : Prop :=
  ∀ row ∈ o.migrations.rows, ∃ row' ∈ o'.migrations.rows, row'.granted = row.granted ∧
    (row.state = .consumed → row'.state = .consumed)

theorem Orchestration.Keeps.trans {o o' o'' : Orchestration} (h : o.Keeps o') (h' : o'.Keeps o'') :
    o.Keeps o'' := by
  intro row hrow
  obtain ⟨row', hrow', hsame, hconsumed⟩ := h row hrow
  obtain ⟨row'', hrow'', hsame', hconsumed'⟩ := h' row' hrow'
  exact ⟨row'', hrow'', hsame'.trans hsame, fun hstate ↦ hconsumed' (hconsumed hstate)⟩

/-- What the answer of a reservation has found, and what it leaves. -/
structure Grants (session prd : String) (grant : MigrationReservation) (o o' : Orchestration) :
    Prop where
  of : grant.sessionId = session ∧ grant.prdId = prd ∧ grant.state = .reserved
  held : ∀ row ∈ o.reservation session prd, row.state ≠ .consumed ∧ row.granted = grant
  mem : grant ∈ o'.migrations.rows
  keeps : o.Keeps o'
  only : ∀ row ∈ o'.migrations.rows, row ∈ o.migrations.rows ∨ row = grant

/-- What a resolution has found, and what it leaves. -/
structure Resolves (session prd : String) (next : MigrationState) (o o' : Orchestration) :
    Prop where
  held : ∃ row ∈ o.migrations.rows, row.sessionId = session ∧ row.prdId = prd ∧
    row.state = .reserved
  resolved : ∀ row ∈ o'.migrations.rows, row.sessionId = session → row.prdId = prd →
    row.state = next
  keeps : o.Keeps o'
  only : ∀ row ∈ o'.migrations.rows, row ∈ o.migrations.rows ∨ row.state = next

theorem reservation_eq_some :
    o.reservation session prd = some row ↔
      row ∈ o.migrations.rows ∧ row.sessionId = session ∧ row.prdId = prd := by
  constructor
  · intro h
    obtain ⟨hmem, hrow⟩ := Table.find_some h
    exact ⟨hmem, of_decide_eq_true hrow⟩
  · rintro ⟨hmem, rfl, rfl⟩
    refine Table.find_eq_of_key hmem (decide_eq_true ⟨rfl, rfl⟩) fun row' _ hrow' ↦ ?_
    show (decide _ || decide _) = true
    rw [decide_eq_true (of_decide_eq_true hrow'), Bool.or_true]

theorem setMigrationState_runs {state next : MigrationState} {n : ℕ}
    (h : (setMigrationState session prd state next).Runs c n c') (hn : n ≠ 0) :
    (∃ row, c.store.orchestration.reservation session prd = some row ∧ row.state = state ∧
        { row with state := next } ∈ c'.store.orchestration.migrations.rows) ∧
      (∀ row ∈ c.store.orchestration.migrations.rows,
        row ∈ c'.store.orchestration.migrations.rows ∨
          row.state = state ∧ { row with state := next } ∈ c'.store.orchestration.migrations.rows) ∧
      ∀ row ∈ c'.store.orchestration.migrations.rows,
        row ∈ c.store.orchestration.migrations.rows ∧
            ¬(row.sessionId = session ∧ row.prdId = prd ∧ row.state = state) ∨
          ∃ old, c.store.orchestration.reservation session prd = some old ∧ old.state = state ∧
            row = { old with state := next } := by
  rw [setMigrationState, onMigrations] at h
  obtain ⟨migrations, hmodify, hstore⟩ := onOrchestration_runs h
  obtain ⟨hupdate, -⟩ := Table.modify_eq_some hmodify
  obtain ⟨row, hrow, hp⟩ := exists_of_modify hmodify hn
  obtain ⟨hsession, hprd, hstate⟩ := of_decide_eq_true hp
  rw [hstore]
  refine ⟨⟨row, reservation_eq_some.2 ⟨hrow, hsession, hprd⟩, hstate,
    Table.mem_update_of_pos hupdate hrow hp⟩, fun other hother ↦ ?_, fun other hother ↦ ?_⟩
  · rcases hq : decide (other.sessionId = session ∧ other.prdId = prd ∧ other.state = state) with _ | _
    · exact .inl (Table.mem_update_of_not hupdate hother hq)
    · exact .inr ⟨(of_decide_eq_true hq).2.2, Table.mem_update_of_pos hupdate hother hq⟩
  · obtain ⟨old, hold, rfl⟩ := (Table.mem_update hupdate).1 hother
    split_ifs with hq
    · obtain ⟨hsession, hprd, hstate⟩ := of_decide_eq_true hq
      exact .inr ⟨old, reservation_eq_some.2 ⟨hold, hsession, hprd⟩, hstate, rfl⟩
    · exact .inl ⟨hold, fun hsame ↦ hq (decide_eq_true hsame)⟩

/-- **What a reservation does.** -/
theorem reserveMigration_runs {repository session prd : String}
    (h : (OrchestrationRepository.reserveMigration repository session prd firstAvailable).Runs c grant c') :
    Grants session prd grant c.store.orchestration c'.store.orchestration := by
  obtain ⟨c₁, c₂, hbegin, hbody, hend⟩ := h.of_transaction
  obtain ⟨found, c₃, hread, hbody⟩ := hbody.of_bind
  obtain ⟨hfound, hstore₃⟩ := hread.of_read
  rw [hend, ← hbegin]
  rcases found with _ | existing
  · -- the PRD has no version yet, and a row is added
    obtain ⟨reserved, c₄, hread, hbody⟩ := hbody.of_bind
    obtain ⟨-, hstore₄⟩ := hread.of_read
    obtain ⟨_, rfl, hwrite⟩ := hbody.of_bind_pure
    have hwrite := hwrite.of_write
    rw [hstore₄, hstore₃] at hwrite
    split_ifs at hwrite
    obtain ⟨migrations, hinsert, hstore⟩ := map_eq_some_iff.1 hwrite
    rw [← hstore]
    exact {
      of := ⟨rfl, rfl, rfl⟩
      held := by
        rw [← hfound]
        exact fun _ hnone ↦ absurd hnone (not_mem_none _)
      mem := (Table.mem_insert hinsert).2 (.inr rfl)
      keeps := fun row hrow ↦ ⟨row, (Table.mem_insert hinsert).2 (.inl hrow), rfl, id⟩
      only := fun row hrow ↦ (Table.mem_insert hinsert).1 hrow }
  · obtain ⟨hmem, hsession, hprd⟩ := reservation_eq_some.1 hfound.symm
    rcases hstate : existing.state with _ | _ | _ <;> simp only [hstate] at hbody
    · -- it has one
      obtain ⟨rfl, rfl⟩ := hbody.of_pure
      rw [hstore₃]
      exact {
        of := ⟨hsession, hprd, hstate⟩
        held := by
          rw [← hfound]
          intro row hrow
          obtain rfl := some.inj hrow
          rw [hstate]
          exact ⟨nofun, MigrationReservation.granted_of_reserved hstate⟩
        mem := hmem
        keeps := fun row hrow ↦ ⟨row, hrow, rfl, id⟩
        only := fun row hrow ↦ .inl hrow }
    · exact absurd hbody Query.not_runs_fail
    · -- it has had one before, and has it again
      obtain ⟨changed, c₄, hset, hbody⟩ := hbody.of_bind
      obtain ⟨rfl, hpure⟩ := hbody.of_ensure_bind
      obtain ⟨rfl, rfl⟩ := hpure.of_pure
      obtain ⟨⟨row, hrow, -, hnew⟩, hkept, honly⟩ := setMigrationState_runs hset one_ne_zero
      rw [hstore₃] at hrow hkept honly
      obtain rfl := some.inj (hfound.trans hrow)
      exact {
        of := ⟨hsession, hprd, rfl⟩
        held := by
          rw [← hfound]
          intro row hrow
          obtain rfl := some.inj hrow
          rw [hstate]
          exact ⟨nofun, rfl⟩
        mem := hnew
        keeps := fun row hrow ↦ (hkept row hrow).elim (fun hrow ↦ ⟨row, hrow, rfl, id⟩)
          fun ⟨hreleased, hrow⟩ ↦ ⟨_, hrow, rfl, fun hconsumed ↦ by
            rw [hreleased] at hconsumed
            cases hconsumed⟩
        only := fun row hrow ↦ (honly row hrow).elim (fun hold ↦ .inl hold.1)
          fun ⟨old, hold, _, hrow⟩ ↦ by
            obtain rfl := some.inj (hfound.trans hold)
            exact .inr hrow }

/-- **What a resolution does.** -/
theorem resolveMigration_runs {consume : Bool} {u : Unit}
    (h : (OrchestrationRepository.resolveMigration session prd consume).Runs c u c') :
    Resolves session prd (if consume then .consumed else .released) c.store.orchestration
      c'.store.orchestration := by
  obtain ⟨changed, c₁, hset, hensure⟩ := h.of_bind
  obtain ⟨rfl, rfl⟩ := hensure.of_ensure
  obtain ⟨⟨row, hrow, hstate, hnew⟩, hkept, honly⟩ := setMigrationState_runs hset one_ne_zero
  obtain ⟨hmem, hsession, hprd⟩ := reservation_eq_some.1 hrow
  exact {
    held := ⟨row, hmem, hsession, hprd, hstate⟩
    resolved := fun other hother hsession' hprd' ↦ by
      rcases honly other hother with ⟨hold, hnot⟩ | ⟨old, -, -, rfl⟩
      · -- a row of the PRD is the one that was updated
        have hother := reservation_eq_some.2 ⟨hold, hsession', hprd'⟩
        obtain rfl := some.inj (hrow.symm.trans hother)
        exact absurd ⟨hsession', hprd', hstate⟩ hnot
      · rfl
    keeps := fun other hother ↦ (hkept other hother).elim (fun hother ↦ ⟨other, hother, rfl, id⟩)
      fun ⟨hreserved, hother⟩ ↦ ⟨_, hother, rfl, fun hconsumed ↦ by
        rw [hreserved] at hconsumed
        cases hconsumed⟩
    only := fun other hother ↦ (honly other hother).elim (fun hold ↦ .inl hold.1)
      fun ⟨old, _, _, hother⟩ ↦ .inr (by rw [hother]) }

theorem reserveMigration_atomic (repository session prd : String) (firstAvailable : ℕ) :
    (OrchestrationRepository.reserveMigration repository session prd firstAvailable).Atomic :=
  .transaction

theorem resolveMigration_atomic (session prd : String) (consume : Bool) :
    (OrchestrationRepository.resolveMigration session prd consume).Atomic := by
  intro c e c' h
  rcases Query.fails_bind h with h | ⟨changed, c₁, hset, hensure⟩
  · rw [setMigrationState, onMigrations, onOrchestration] at h
    exact Query.Atomic.changePart c e c' h
  · have hstore := Query.ReadOnly.ensure.atomic c₁ e c' hensure
    by_cases hchanged : changed = 1
    · rw [Query.ensure, if_pos hchanged] at hensure
      cases hensure
    rw [setMigrationState, onMigrations] at hset
    obtain ⟨migrations, hmodify, hwritten⟩ := onOrchestration_runs hset
    obtain ⟨hupdate, rfl⟩ := Table.modify_eq_some hmodify
    have hnone := Nat.lt_one_iff.1 ((Table.count_le_one fun row _ row' _ hrow hrow' ↦ by
      obtain ⟨hsession, hprd, -⟩ := of_decide_eq_true hrow
      obtain ⟨hsession', hprd', -⟩ := of_decide_eq_true hrow'
      show (decide _ || decide _) = true
      rw [decide_eq_true (p := row.sessionId = row'.sessionId ∧ row.prdId = row'.prdId)
        ⟨hsession.trans hsession'.symm, hprd.trans hprd'.symm⟩, Bool.or_true]).lt_of_ne hchanged)
    have hsame := Table.update_none hupdate (Table.count_eq_zero_iff.1 hnone)
    rw [hstore, hwritten, hsame]

/-! ### The reservations of a run -/

def SessionStep.grant? (db : Database) (step : SessionStep) : Option MigrationReservation :=
  match step.call, (db.sessionCall step).1 with
  | .reserveMigration _ _ _ _, .ok (.reservation grant) => some grant
  | _, _ => none

/-- The grants of a sequence of calls, in the order in which they were made. -/
def Database.grants : Database → List SessionStep → List MigrationReservation
  | _, [] => []
  | db, step :: steps => (step.grant? db).toList ++ (db.sessionStep step).grants steps

theorem sessionStep_migrations (db : Database) (step : SessionStep) :
    (∃ grant, step.grant? db = some grant ∧ Grants grant.sessionId grant.prdId grant db.orchestration
        (db.sessionStep step).orchestration) ∨
      step.grant? db = none ∧ ((∃ session prd next, next ≠ .reserved ∧
          Resolves session prd next db.orchestration (db.sessionStep step).orchestration) ∨
        (db.sessionStep step).orchestration.migrations = db.orchestration.migrations) := by
  obtain ⟨call, faults⟩ := step
  by_cases hreserve : ∃ repository session prd firstAvailable,
      call = .reserveMigration repository session prd firstAvailable
  · obtain ⟨repository, session, prd, firstAvailable, rfl⟩ := hreserve
    rcases hrun : db.sessionCall ⟨.reserveMigration repository session prd firstAvailable, faults⟩ with
      ⟨error | answer, c'⟩
    · have hstore : c'.store = db := Query.Atomic.bind_pure
        (reserveMigration_atomic repository session prd firstAvailable) ⟨db, faults⟩ error c' hrun
      rw [SessionStep.grant?, hrun, Database.sessionStep, hrun, hstore]
      exact .inr ⟨rfl, .inr rfl⟩
    · have hruns : (SessionCall.reserveMigration repository session prd firstAvailable).query.Runs
        ⟨db, faults⟩ answer c' := hrun
      obtain ⟨grant, rfl, hgrant⟩ := hruns.of_bind_pure
      have hgrants := reserveMigration_runs hgrant
      rw [SessionStep.grant?, hrun, Database.sessionStep, hrun]
      refine .inl ⟨grant, rfl, ?_⟩
      rw [hgrants.of.1, hgrants.of.2.1]
      exact hgrants
  · have hnone : (SessionStep.mk call faults).grant? db = none := by
      rw [SessionStep.grant?]
      split
      · rename_i hcall _
        exact absurd ⟨_, _, _, _, hcall⟩ hreserve
      · rfl
    refine .inr ⟨hnone, ?_⟩
    by_cases hresolve : ∃ session prd consume, call = .resolveMigration session prd consume
    · obtain ⟨session, prd, consume, rfl⟩ := hresolve
      rcases hrun : db.sessionCall ⟨.resolveMigration session prd consume, faults⟩ with
        ⟨error | answer, c'⟩
      · have hstore : c'.store = db := Query.Atomic.bind_pure
          (resolveMigration_atomic session prd consume) ⟨db, faults⟩ error c' hrun
        rw [Database.sessionStep, hrun, hstore]
        exact .inr rfl
      · have hruns : (SessionCall.resolveMigration session prd consume).query.Runs ⟨db, faults⟩
          answer c' := hrun
        obtain ⟨u, -, hresolve⟩ := hruns.of_bind_pure
        rw [Database.sessionStep, hrun]
        refine .inl ⟨session, prd, _, ?_, resolveMigration_runs hresolve⟩
        cases consume <;> exact fun h ↦ by cases h
    · refine .inr ?_
      have hframe : call.query.Respects (Query.Agree fun db : Database ↦ db.orchestration.migrations) :=
        respects_of_frame (fun _ _ ↦ rfl) (fun _ _ ↦ rfl)
          (fun _ _ _ _ h ↦ hreserve ⟨_, _, _, _, h⟩) fun _ _ _ h ↦ hresolve ⟨_, _, _, h⟩
      exact hframe ⟨db, faults⟩

theorem keeps_step (db : Database) (step : SessionStep) :
    db.orchestration.Keeps (db.sessionStep step).orchestration := by
  rcases sessionStep_migrations db step with ⟨_, -, hgrants⟩ | ⟨-, ⟨_, _, _, -, hresolves⟩ | hsame⟩
  · exact hgrants.keeps
  · exact hresolves.keeps
  · intro row hrow
    exact ⟨row, by rw [hsame]; exact hrow, rfl, id⟩

theorem keeps_run (db : Database) (steps : List SessionStep) :
    db.orchestration.Keeps (db.sessionRun steps).orchestration := by
  induction steps generalizing db with
  | nil => exact fun row hrow ↦ ⟨row, hrow, rfl, id⟩
  | cons step steps ih => exact (keeps_step db step).trans (ih _)

theorem grants_of_mem {step : SessionStep} (h : grant ∈ (step.grant? db).toList) :
    Grants grant.sessionId grant.prdId grant
      db.orchestration (db.sessionStep step).orchestration := by
  rcases sessionStep_migrations db step with ⟨other, hother, hgrants⟩ | ⟨hnone, -⟩
  · rw [hother, toList_some, mem_singleton] at h
    rw [h]
    exact hgrants
  · rw [hnone, toList_none] at h
    exact absurd h not_mem_nil

theorem exists_row_of_grant (h : grant ∈ db.grants steps) :
    ∃ row ∈ (db.sessionRun steps).orchestration.migrations.rows, row.granted = grant := by
  induction steps generalizing db with
  | nil => exact absurd h not_mem_nil
  | cons step steps ih =>
    rw [Database.grants, mem_append] at h
    rcases h with h | h
    · have hgrants := grants_of_mem h
      obtain ⟨row, hrow, hsame, -⟩ := keeps_run (db.sessionStep step) steps grant hgrants.mem
      exact ⟨row, hrow, hsame.trans (MigrationReservation.granted_of_reserved hgrants.of.2.2)⟩
    · exact ih h

theorem row_eq_of_version {row row' : MigrationReservation} (hrow : row ∈ o.migrations.rows)
    (hrow' : row' ∈ o.migrations.rows) (hrepository : row.repositoryKey = row'.repositoryKey)
    (hversion : row.version = row'.version) :
    row = row' := by
  refine Table.eq_of_clash hrow hrow' ?_
  show (decide _ || decide _) = true
  rw [decide_eq_true (⟨hrepository, hversion⟩ : _ ∧ _), Bool.true_or]

theorem version_ne_of_consumed (hrow : row ∈ db.orchestration.migrations.rows)
    (hconsumed : row.state = .consumed) {later : List SessionStep} (h : grant ∈ db.grants later)
    (hrepository : grant.repositoryKey = row.repositoryKey) : grant.version ≠ row.version := by
  induction later generalizing db row with
  | nil => exact absurd h not_mem_nil
  | cons step steps ih =>
    obtain ⟨row', hrow', hsame, hconsumed'⟩ := keeps_step db step row hrow
    obtain ⟨hkey, hnumber, -⟩ := MigrationReservation.mk.inj hsame
    rw [Database.grants, mem_append] at h
    rcases h with h | h
    · intro hversion
      have hgrants := grants_of_mem h
      obtain rfl := row_eq_of_version hgrants.mem hrow' (hrepository.trans hkey.symm)
        (hversion.trans hnumber.symm)
      have hreserved := hgrants.of.2.2
      rw [hconsumed' hconsumed] at hreserved
      cases hreserved
    · rw [← hnumber]
      exact ih hrow' (hconsumed' hconsumed) h (hrepository.trans hkey.symm)

def Orchestration.Unheld (o : Orchestration) (session prd : String) : Prop :=
  ∀ row ∈ o.migrations.rows, row.sessionId = session → row.prdId = prd → row.state ≠ .reserved

theorem Orchestration.Unheld.run (h : db.orchestration.Unheld session prd)
    (hnone : ∀ grant ∈ db.grants steps, ¬(grant.sessionId = session ∧ grant.prdId = prd)) :
    (db.sessionRun steps).orchestration.Unheld session prd := by
  induction steps generalizing db with
  | nil => exact h
  | cons step steps ih =>
    refine ih ?_ fun grant hgrant ↦ hnone grant (mem_append_right _ hgrant)
    intro row hrow hsession hprd
    rcases sessionStep_migrations db step with
      ⟨grant, hgrant, hgrants⟩ | ⟨-, ⟨_, _, _, hnext, hresolves⟩ | hsame⟩
    · rcases hgrants.only row hrow with hold | rfl
      · exact h row hold hsession hprd
      · have hmem : row ∈ db.grants (step :: steps) := by
          rw [Database.grants, hgrant]
          exact mem_append_left _ (mem_singleton_self _)
        exact absurd ⟨hsession, hprd⟩ (hnone row hmem)
    · rcases hresolves.only row hrow with hold | hstate
      · exact h row hold hsession hprd
      · rw [hstate]
        exact hnext
    · rw [hsame] at hrow
      exact h row hrow hsession hprd

theorem not_granted_of_consumed (hrow : row ∈ db.orchestration.migrations.rows)
    (hconsumed : row.state = .consumed) (h : grant ∈ db.grants steps) :
    ¬(grant.sessionId = row.sessionId ∧ grant.prdId = row.prdId) := by
  induction steps generalizing db row with
  | nil => exact absurd h not_mem_nil
  | cons step steps ih =>
    rw [Database.grants, mem_append] at h
    rcases h with h | h
    · rintro ⟨hsession, hprd⟩
      have hfound := reservation_eq_some.2 ⟨hrow, hsession.symm, hprd.symm⟩
      exact ((grants_of_mem h).held row hfound).1 hconsumed
    · obtain ⟨row', hrow', hsame, hconsumed'⟩ := keeps_step db step row hrow
      obtain ⟨-, -, hsession, hprd, -⟩ := MigrationReservation.mk.inj hsame
      rw [← hsession, ← hprd]
      exact ih hrow' (hconsumed' hconsumed) h

/-! ### Asking again -/

theorem reserveMigration_returns {repository session prd : String}
    (hrow : db.orchestration.reservation session prd = some row) (hstate : row.state ≠ .consumed) :
    ∃ db', (OrchestrationRepository.reserveMigration repository session prd firstAvailable).Returns db
      row.granted db' := by
  obtain ⟨hmem, hsession, hprd⟩ := reservation_eq_some.1 hrow
  rcases hrowState : row.state with _ | _ | _
  · refine ⟨db, .transaction (Query.returns_read_bind.2 ?_)⟩
    rw [hrow]
    simp only [hrowState]
    rw [MigrationReservation.granted_of_reserved hrowState]
    exact .pure
  · exact absurd hrowState hstate
  · have hkey (r : MigrationReservation) (next : MigrationState) (r' : MigrationReservation) :
        migrationSchema.clash { r with state := next } r' = migrationSchema.clash r r' := rfl
    obtain ⟨migrations, hupdate⟩ := Table.exists_update (T := db.orchestration.migrations)
      (p := fun r ↦ r.sessionId = session ∧ r.prdId = prd ∧ r.state = .released)
      (f := fun r ↦ { r with state := .reserved })
      (fun r hr _ ↦ Table.check_of_mem (r := r) hr) fun r _ _ r' ↦ hkey r .reserved r'
    have hcount : db.orchestration.migrations.count (fun r ↦
        r.sessionId = session ∧ r.prdId = prd ∧ r.state = .released) = 1 := by
      refine Table.count_eq_one hmem (decide_eq_true ⟨hsession, hprd, hrowState⟩) ?_
      intro r hr r' hr' hp hp'
      obtain ⟨hs, hpr, -⟩ := of_decide_eq_true hp
      obtain ⟨hs', hpr', -⟩ := of_decide_eq_true hp'
      have hsame := (reservation_eq_some.2 ⟨hr, hs, hpr⟩).symm.trans
        (reservation_eq_some.2 ⟨hr', hs', hpr'⟩)
      obtain rfl := some.inj hsame
      exact migrationSchema.clash_self r
    have hset : (setMigrationState session prd .released .reserved).Returns db 1
        { db with orchestration := { db.orchestration with migrations } } := by
      rw [setMigrationState, onMigrations, onOrchestration]
      refine .changePart ?_
      rw [Table.modify, hupdate, hcount]
      rfl
    refine ⟨{ db with orchestration := { db.orchestration with migrations } },
      .transaction (Query.returns_read_bind.2 ?_)⟩
    rw [hrow]
    simp only [hrowState]
    exact hset.bind (Query.returns_ensure_bind.2 ⟨rfl, .pure⟩)

/-- **Versions are granted once.** Over any sequence of calls, with engine faults at any statement: a
version of a repository is granted to one PRD of one session only, and no more once it is consumed. A
PRD that has a version in its session is given it again when it asks, unless it is consumed. After a
resolution no other one succeeds before the PRD has been granted its version again, and after a
consumption none ever does. -/
theorem migrations_granted_once (steps : List SessionStep) :
    (∀ grant ∈ Database.grants .empty steps, ∀ grant' ∈ Database.grants .empty steps,
        grant.repositoryKey = grant'.repositoryKey → grant.version = grant'.version →
        grant.sessionId = grant'.sessionId ∧ grant.prdId = grant'.prdId) ∧
      (∀ row ∈ (Database.sessionRun .empty steps).orchestration.migrations.rows,
        row.state = .consumed →
        ∀ later, ∀ grant ∈ (Database.sessionRun .empty steps).grants later,
          grant.repositoryKey = row.repositoryKey → grant.version ≠ row.version) ∧
      (∀ session prd row,
        (Database.sessionRun .empty steps).orchestration.reservation session prd = some row →
        row.state ≠ .consumed →
        ∀ repository firstAvailable,
          (∃ db', (OrchestrationRepository.reserveMigration repository session prd
            firstAvailable).Returns (Database.sessionRun .empty steps) row.granted db') ∧
          ∀ faults grant c', (OrchestrationRepository.reserveMigration repository session prd
            firstAvailable).Runs ⟨Database.sessionRun .empty steps, faults⟩ grant c' →
              grant = row.granted) ∧
      ∀ session prd consume faults c',
        (OrchestrationRepository.resolveMigration session prd consume).Runs
          ⟨Database.sessionRun .empty steps, faults⟩ () c' →
        ∀ later, consume = true ∨ (∀ grant ∈ c'.store.grants later,
            ¬(grant.sessionId = session ∧ grant.prdId = prd)) →
          ∀ consume' faults' c'',
            ¬(OrchestrationRepository.resolveMigration session prd consume').Runs
              ⟨c'.store.sessionRun later, faults'⟩ () c'' := by
  refine ⟨?_, ?_, ?_, ?_⟩
  · intro grant hgrant grant' hgrant' hrepository hversion
    obtain ⟨row, hrow, rfl⟩ := exists_row_of_grant hgrant
    obtain ⟨row', hrow', rfl⟩ := exists_row_of_grant hgrant'
    obtain rfl := row_eq_of_version hrow hrow' hrepository hversion
    exact ⟨rfl, rfl⟩
  · intro row hrow hconsumed later grant hgrant hrepository
    exact version_ne_of_consumed hrow hconsumed hgrant hrepository
  · intro session prd row hrow hstate repository firstAvailable
    refine ⟨reserveMigration_returns hrow hstate, fun faults grant c' h ↦ ?_⟩
    exact ((reserveMigration_runs h).held row hrow).2.symm
  · intro session prd consume faults c' h later hlater consume' faults' c'' h'
    have hresolves := resolveMigration_runs h
    have hunheld : c'.store.orchestration.Unheld session prd := by
      intro row hrow hsession hprd
      rw [hresolves.resolved row hrow hsession hprd]
      split_ifs
      · exact nofun
      · exact nofun
    have hnone : ∀ grant ∈ c'.store.grants later,
        ¬(grant.sessionId = session ∧ grant.prdId = prd) := by
      rcases hlater with rfl | hnone
      · -- the row of the PRD is consumed now
        obtain ⟨row, hrow, rfl, rfl, -⟩ := hresolves.held
        obtain ⟨row', hrow', hsame, -⟩ := hresolves.keeps row hrow
        obtain ⟨-, -, hsession, hprd, -⟩ := MigrationReservation.mk.inj hsame
        intro grant hgrant
        rw [← hsession, ← hprd]
        exact not_granted_of_consumed hrow' (hresolves.resolved row' hrow' hsession hprd) hgrant
      · exact hnone
    obtain ⟨row, hrow, hsession, hprd, hstate⟩ := (resolveMigration_runs h').held
    exact hunheld.run hnone row hrow hsession hprd hstate

def checkpointed : Database :=
  { Database.empty with
    checkpoints :=
      { rows := ⟨[⟨"checkpoint", "repo", "PRD-1", .implemented, "hash", none, none, none⟩],
          by simp [checkpointSchema], pairwise_singleton _ _⟩
        events := .empty } }

def takenUpAgain : List SessionStep :=
  [⟨.openSession "first" "repo", []⟩, ⟨.reserveMigration "repo" "first" "PRD-1" 32, []⟩,
    ⟨.openSession "second" "repo", []⟩, ⟨.reserveMigration "repo" "second" "PRD-1" 32, []⟩]

/-- A version that is released, reserved again and consumed. -/
def resolvedTwice : List SessionStep :=
  [⟨.openSession "first" "repo", []⟩, ⟨.reserveMigration "repo" "first" "PRD-1" 32, []⟩,
    ⟨.resolveMigration "first" "PRD-1" false, []⟩,
    ⟨.reserveMigration "repo" "first" "PRD-1" 32, []⟩]

theorem migrations_reserved_again :
    checkpointed.grants takenUpAgain = [⟨"repo", 32, "first", "PRD-1", .reserved⟩,
        ⟨"repo", 33, "second", "PRD-1", .reserved⟩] ∧
      (checkpointed.sessionRun takenUpAgain).checkpoints = checkpointed.checkpoints ∧
      (checkpointed.sessionRun resolvedTwice).orchestration.migrations.rows.length = 1 ∧
      ((OrchestrationRepository.resolveMigration "first" "PRD-1" true).run
        ⟨checkpointed.sessionRun resolvedTwice, []⟩).1.toOption = some () := by
  decide +kernel

end FamiliarAi
