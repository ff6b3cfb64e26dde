import FamiliarAi.Relational.Trail
import FamiliarAi.Storage.Sessions

/-!
# Landings

A landing moves the integration revision of a session from the revision that the merger has used to the
one it has made, and marks the attempt that it is of. Any number of attempts compete for it. We show
that **the landings of a session form one chain that begins at its base**, that an attempt lands at most
once, and that what has landed stays recorded; an advance that fails leaves everything as it was.

Two sessions of a repository have two chains: the revision is one of the session, and the base of the
later one is what the repository was at when it began.
-/

namespace FamiliarAi

open Relational List

/-! ### What calls do to sessions and attempts -/

def DriverSessionRow.revisions (row : DriverSessionRow) : Option String × Option String :=
  (row.baseRevision, row.integrationRevision)

def Orchestration.revisions (o : Orchestration) (session : String) : Option String × Option String :=
  ((o.session session).map (·.revisions)).getD (none, none)

/-- Set both revisions, unless they are set. -/
def initialized (revision : String) (revisions : Option String × Option String) :
    Option String × Option String :=
  (revisions.1.or (some revision), revisions.2.or (some revision))

theorem initialized_initialized (revision first : String) (revisions : Option String × Option String) :
    initialized revision (initialized first revisions) = initialized first revisions := by
  rw [initialized, initialized, Option.or_assoc, Option.or_assoc]
  rfl

/-- Between two states, a session may have been given its base, and what was integrated still is. -/
structure Orchestration.Proceeds (o o' : Orchestration) : Prop where
  revisions : ∀ session, o'.revisions session = o.revisions session ∨
    ∃ revision, o'.revisions session = initialized revision (o.revisions session)
  integrated : ∀ key row, o.attempt key = some row → row.integrated = true →
    ∃ row', o'.attempt key = some row' ∧ row'.integrated = true ∧
      row'.candidateRevision = row.candidateRevision

/-- The tables of the sessions proceed. -/
def Database.Proceeds (db db' : Database) : Prop :=
  db.orchestration.Proceeds db'.orchestration

instance : Std.Refl Database.Proceeds :=
  ⟨fun _ ↦ ⟨fun _ ↦ .inl rfl, fun _ row hrow hintegrated ↦ ⟨row, hrow, hintegrated, rfl⟩⟩⟩

instance : IsTrans Database Database.Proceeds := by
  refine ⟨fun db db' db'' h h' ↦ ⟨fun session ↦ ?_, fun key row hrow hintegrated ↦ ?_⟩⟩
  · rcases h'.revisions session with heq | ⟨revision, hset⟩
    · rw [heq]
      exact h.revisions session
    · rcases h.revisions session with heq | ⟨first, hfirst⟩
      · exact .inr ⟨revision, by rw [hset, heq]⟩
      · -- what was set first stays
        refine .inr ⟨first, ?_⟩
        rw [hset, hfirst, initialized_initialized]
  · obtain ⟨row', hrow', hintegrated', hcandidate'⟩ := h.integrated key row hrow hintegrated
    obtain ⟨row'', hrow'', hintegrated'', hcandidate''⟩ :=
      h'.integrated key row' hrow' hintegrated'
    exact ⟨row'', hrow'', hintegrated'', hcandidate''.trans hcandidate'⟩

section Statements

variable {p : DriverSessionRow → Bool} {f : DriverSessionRow → DriverSessionRow}
  {q : DriverAttemptRow → Bool} {g : DriverAttemptRow → DriverAttemptRow}

theorem onOrchestration_runs {α τ : Type} {get : Orchestration → τ}
    {set : Orchestration → τ → Orchestration} {f : τ → Option (α × τ)} {a : α}
    {c c' : Connection Database FamiliarError} (h : (onOrchestration get set f).Runs c a c') :
    ∃ t, f (get c.store.orchestration) = some (a, t) ∧
      c'.store = { c.store with orchestration := set c.store.orchestration t } :=
  Query.Runs.of_changePart h

/-- A statement on one table keeps what any write of that table keeps. -/
theorem respects_onOrchestration {α τ : Type} {get : Orchestration → τ}
    {set : Orchestration → τ → Orchestration} {f : τ → Option (α × τ)}
    (h : ∀ o a t, f (get o) = some (a, t) → o.Proceeds (set o t)) :
    (onOrchestration get set f).Respects Database.Proceeds := by
  refine .change fun db a db' hf ↦ ?_
  obtain ⟨⟨_, t⟩, ht, hr⟩ := Option.map_eq_some_iff.1 hf
  obtain ⟨rfl, rfl⟩ := Prod.mk.inj hr
  exact h _ _ _ ht

theorem session_update {o : Orchestration} {sessions : Table driverSessionSchema}
    (h : o.sessions.update p f = some sessions) (hf : ∀ row, (f row).sessionId = row.sessionId)
    (session : String) :
    Orchestration.session { o with sessions } session =
      (o.session session).map fun row ↦ if p row then f row else row := by
  refine Table.find_update h fun row ↦ ?_
  rw [hf]

theorem attempt_update {o : Orchestration} {attempts : Table driverAttemptSchema}
    (h : o.attempts.update q g = some attempts) (hg : ∀ row, (g row).key = row.key)
    (key : AttemptKey) :
    Orchestration.attempt { o with attempts } key =
      (o.attempt key).map fun row ↦ if q row then g row else row := by
  refine Table.find_update h fun row ↦ ?_
  rw [hg]

theorem respects_updateSessions (hf : ∀ row, (f row).sessionId = row.sessionId)
    (hrevisions : ∀ row, (f row).revisions = row.revisions ∨
      ∃ revision, (f row).revisions = initialized revision row.revisions) :
    (onSessions fun sessions ↦ sessions.modify p f).Respects Database.Proceeds := by
  refine respects_onOrchestration fun o n sessions h ↦ ?_
  have hsession := session_update (Table.modify_eq_some h).1 hf
  refine ⟨fun session ↦ ?_, fun key row hrow hintegrated ↦ ⟨row, hrow, hintegrated, rfl⟩⟩
  rw [Orchestration.revisions, Orchestration.revisions, hsession session]
  rcases o.session session with _ | row
  · exact .inl rfl
  · rw [Option.map_some, Option.map_some, Option.getD_some, Option.map_some, Option.getD_some]
    split_ifs
    · exact hrevisions row
    · exact .inl rfl

theorem respects_updateAttempts (hg : ∀ row, (g row).key = row.key)
    (hintegrated : ∀ row, q row = true → row.integrated = true →
      (g row).integrated = true ∧ (g row).candidateRevision = row.candidateRevision) :
    (onAttempts fun attempts ↦ attempts.modify q g).Respects Database.Proceeds := by
  refine respects_onOrchestration fun o n attempts h ↦ ?_
  have hattempt := attempt_update (Table.modify_eq_some h).1 hg
  refine ⟨fun session ↦ .inl rfl, fun key row hrow hrowIntegrated ↦ ?_⟩
  refine ⟨if q row then g row else row, by rw [hattempt, hrow, Option.map_some], ?_⟩
  split_ifs with hq
  · exact hintegrated row hq hrowIntegrated
  · exact ⟨hrowIntegrated, rfl⟩

theorem respects_onMigrations {α : Type}
    {f : Table migrationSchema → Option (α × Table migrationSchema)} :
    (onMigrations f).Respects Database.Proceeds :=
  respects_onOrchestration fun _ _ _ _ ↦
    ⟨fun _ ↦ .inl rfl, fun _ row hrow hintegrated ↦ ⟨row, hrow, hintegrated, rfl⟩⟩

theorem respects_ensure {p : Prop} [Decidable p] {e : FamiliarError} :
    (Query.ensure p e : SessionQuery Unit).Respects Database.Proceeds :=
  .of_readOnly .ensure

theorem respects_pure {α : Type} {a : α} : (pure a : SessionQuery α).Respects Database.Proceeds :=
  .of_readOnly .pure

end Statements

theorem respects_openSession (session repository : String) :
    (DriverRepository.openSession session repository).Respects Database.Proceeds := by
  refine respects_onOrchestration fun o _ sessions h ↦ ?_
  obtain ⟨inserted, hinsert, hr⟩ := Option.map_eq_some_iff.1 h
  obtain ⟨-, rfl⟩ := Prod.mk.inj hr
  refine ⟨fun other ↦ .inl ?_, fun key row hrow hintegrated ↦ ⟨row, hrow, hintegrated, rfl⟩⟩
  have hfind : Orchestration.session { o with sessions := inserted } other =
      (o.session other).or (if decide (session = other) then
        some ⟨session, repository, false, none, none, none, none⟩ else none) :=
    Table.find_insert hinsert
  rw [Orchestration.revisions, Orchestration.revisions, hfind]
  rcases o.session other with _ | row
  · rw [Option.none_or]
    split_ifs
    · rfl
    · rfl
  · rfl

theorem respects_heartbeat (session worker : String) :
    (DriverRepository.heartbeat session worker).Respects Database.Proceeds := by
  refine .bind ?_ fun _ ↦ respects_ensure
  exact respects_updateSessions (fun _ ↦ rfl) fun _ ↦ .inl rfl

theorem respects_finishSession (session reason : String) :
    (DriverRepository.finishSession session reason).Respects Database.Proceeds := by
  refine .bind ?_ fun _ ↦ respects_ensure
  exact respects_updateSessions (fun _ ↦ rfl) fun _ ↦ .inl rfl

theorem respects_recoverIncomplete :
    DriverRepository.recoverIncomplete.Respects Database.Proceeds := by
  refine .bind ?_ fun _ ↦ .bind ?_ fun _ ↦ respects_pure
  · exact respects_updateAttempts (fun _ ↦ rfl) fun _ _ hintegrated ↦ ⟨hintegrated, rfl⟩
  · exact respects_updateSessions (fun _ ↦ rfl) fun _ ↦ .inl rfl

theorem respects_recordAttemptStarted (session prdId startedAt : String) :
    (DriverRepository.recordAttemptStarted session prdId startedAt).Respects Database.Proceeds := by
  refine .bind (.of_readOnly .read) fun sequence ↦
    .bind (.write fun db db' h ↦ ?_) fun _ ↦ respects_pure
  split_ifs at h
  obtain ⟨attempts, hinsert, rfl⟩ := Option.map_eq_some_iff.1 h
  refine ⟨fun _ ↦ .inl rfl, fun key row hrow hintegrated ↦ ⟨row, ?_, hintegrated, rfl⟩⟩
  have hfind := Table.find_insert (q := fun row ↦ decide (row.key = key)) hinsert
  have hrow : db.orchestration.attempts.find (fun row ↦ decide (row.key = key)) = some row := hrow
  rw [hrow] at hfind
  exact hfind

theorem respects_recordAttemptFinished (key : AttemptKey) (outcome : AttemptOutcome)
    (retainedReason : Option String) :
    (DriverRepository.recordAttemptFinished key outcome retainedReason).Respects
      Database.Proceeds := by
  refine .bind ?_ fun _ ↦ respects_ensure
  exact respects_updateAttempts (fun _ ↦ rfl) fun _ _ hintegrated ↦ ⟨hintegrated, rfl⟩

theorem respects_initializeIntegration (session revision : String) :
    (OrchestrationRepository.initializeIntegration session revision).Respects
      Database.Proceeds := by
  refine .bind ?_ fun _ ↦ respects_ensure
  exact respects_updateSessions (fun _ ↦ rfl) fun _ ↦ .inr ⟨revision, rfl⟩

theorem respects_setMigrationState (session prd : String) (state next : MigrationState) :
    (setMigrationState session prd state next).Respects Database.Proceeds :=
  respects_onMigrations

theorem respects_reserveMigration (repository session prd : String) (firstAvailable : ℕ) :
    (OrchestrationRepository.reserveMigration repository session prd firstAvailable).Respects
      Database.Proceeds := by
  refine Query.Carries.transaction (Query.Respects.carries ?_)
  refine Query.Respects.bind (.of_readOnly Query.ReadOnly.read) fun existing ↦ ?_
  rcases existing with _ | existing
  · refine .bind (.of_readOnly .read) fun reserved ↦
      .bind (.write fun db db' h ↦ ?_) fun _ ↦ respects_pure
    split_ifs at h
    obtain ⟨migrations, -, rfl⟩ := Option.map_eq_some_iff.1 h
    exact ⟨fun _ ↦ .inl rfl, fun _ row hrow hintegrated ↦ ⟨row, hrow, hintegrated, rfl⟩⟩
  · dsimp only
    split
    · exact respects_pure
    · exact (respects_setMigrationState _ _ _ _).bind fun _ ↦
        respects_ensure.bind fun _ ↦ respects_pure
    · exact .of_readOnly .fail

theorem respects_resolveMigration (session prd : String) (consume : Bool) :
    (OrchestrationRepository.resolveMigration session prd consume).Respects Database.Proceeds :=
  (respects_setMigrationState _ _ _ _).bind fun _ ↦ respects_ensure

theorem respects_sessionCall {call : SessionCall}
    (h : ∀ session expected candidate sequence,
      call ≠ .advanceIntegration session expected candidate sequence) :
    call.query.Respects Database.Proceeds := by
  cases call with
  | openSession session repository =>
    exact (respects_openSession session repository).bind fun _ ↦ respects_pure
  | heartbeat session worker => exact (respects_heartbeat session worker).bind fun _ ↦ respects_pure
  | finishSession session reason =>
    exact (respects_finishSession session reason).bind fun _ ↦ respects_pure
  | recoverIncomplete => exact respects_recoverIncomplete.bind fun _ ↦ respects_pure
  | recordAttemptStarted session prdId startedAt =>
    exact (respects_recordAttemptStarted session prdId startedAt).bind fun _ ↦ respects_pure
  | recordAttemptFinished key outcome retainedReason =>
    exact (respects_recordAttemptFinished key outcome retainedReason).bind fun _ ↦ respects_pure
  | initializeIntegration session revision =>
    exact (respects_initializeIntegration session revision).bind fun _ ↦ respects_pure
  | advanceIntegration session expected candidate sequence => exact absurd rfl (h _ _ _ _)
  | reserveMigration repository session prd firstAvailable =>
    exact (respects_reserveMigration repository session prd firstAvailable).bind fun _ ↦
      respects_pure
  | resolveMigration session prd consume =>
    exact (respects_resolveMigration session prd consume).bind fun _ ↦ respects_pure

/-! ### Landings -/

/-- What a landing was asked for. -/
structure Landing where
  session : String
  expected : String
  candidate : String
  sequence : ℕ
  deriving DecidableEq

def Landing.key (landing : Landing) : AttemptKey :=
  ⟨landing.session, landing.sequence⟩

/-- What a landing does to the revision of its session. -/
def Landing.transition (landing : Landing) : Transition String :=
  ⟨landing.expected, landing.candidate⟩

/-- What a landing has found, and what it leaves. -/
structure Landing.Lands (landing : Landing) (o o' : Orchestration) : Prop where
  revisions : ∃ base, o.revisions landing.session = (base, some landing.expected) ∧
    o'.revisions landing.session = (base, some landing.candidate)
  others : ∀ session, session ≠ landing.session → o'.revisions session = o.revisions session
  fresh : ∃ row, o.attempt landing.key = some row ∧ row.integrated = false
  integrated : ∃ row, o'.attempt landing.key = some row ∧ row.integrated = true ∧
    row.candidateRevision = some landing.candidate
  attempts : ∀ key, key ≠ landing.key → o'.attempt key = o.attempt key

theorem exists_of_modify {ρ : Type} {S : Schema ρ} {T T' : Table S} {p : ρ → Bool} {f : ρ → ρ} {n : ℕ}
    (h : T.modify p f = some (n, T')) (hn : n ≠ 0) : ∃ row ∈ T.rows, p row = true := by
  obtain ⟨-, rfl⟩ := Table.modify_eq_some h
  exact Table.count_pos_iff.1 (Nat.pos_of_ne_zero hn)

theorem session_of_mem {o : Orchestration} {row : DriverSessionRow} (h : row ∈ o.sessions.rows) :
    o.session row.sessionId = some row :=
  Table.find_eq_of_key h (decide_eq_true rfl) fun _ _ hrow ↦ decide_eq_true (of_decide_eq_true hrow)

theorem attempt_of_mem {o : Orchestration} {row : DriverAttemptRow} (h : row ∈ o.attempts.rows) :
    o.attempt row.key = some row :=
  Table.find_eq_of_key h (decide_eq_true rfl) fun _ _ hrow ↦ decide_eq_true (of_decide_eq_true hrow)

/-- The first part of a landing. -/
theorem advanceRevision_runs {session expected candidate : String} {n : ℕ}
    {c c' : Connection Database FamiliarError}
    (h : (onSessions fun sessions ↦ sessions.modify
      (fun row ↦ row.sessionId = session ∧ row.integrationRevision = some expected ∧
        row.ended = false)
      fun row ↦ { row with integrationRevision := some candidate }).Runs c n c') (hn : n ≠ 0) :
    (∃ base, c.store.orchestration.revisions session = (base, some expected) ∧
        c'.store.orchestration.revisions session = (base, some candidate)) ∧
      (∀ other, other ≠ session → c'.store.orchestration.revisions other =
        c.store.orchestration.revisions other) ∧
      c'.store.orchestration.attempts = c.store.orchestration.attempts := by
  obtain ⟨sessions, hmodify, hstore⟩ := onOrchestration_runs h
  have hsession := session_update (o := c.store.orchestration) (Table.modify_eq_some hmodify).1
    fun _ ↦ rfl
  obtain ⟨row, hrow, hp⟩ := exists_of_modify hmodify hn
  obtain ⟨rfl, hexpected, -⟩ := of_decide_eq_true hp
  have hfound := session_of_mem (o := c.store.orchestration) hrow
  rw [hstore]
  refine ⟨⟨row.baseRevision, ?_, ?_⟩, fun other hother ↦ ?_, rfl⟩
  · rw [Orchestration.revisions, hfound, ← hexpected]
    rfl
  · rw [Orchestration.revisions, hsession, hfound, Option.map_some, if_pos hp]
    rfl
  · rw [Orchestration.revisions, Orchestration.revisions, hsession]
    rcases hrow : c.store.orchestration.session other with _ | row'
    · rfl
    · have hid := Table.find_some hrow
      rw [Option.map_some, if_neg]
      intro hp'
      exact hother ((of_decide_eq_true hid.2).symm.trans (of_decide_eq_true hp').1)

/-- The second part of a landing. -/
theorem integrateAttempt_runs {key : AttemptKey} {candidate : String} {n : ℕ}
    {c c' : Connection Database FamiliarError} (h : (integrateAttempt key candidate).Runs c n c')
    (hn : n ≠ 0) :
    (∃ row, c.store.orchestration.attempt key = some row ∧ row.integrated = false) ∧
      (∃ row, c'.store.orchestration.attempt key = some row ∧ row.integrated = true ∧
        row.candidateRevision = some candidate) ∧
      (∀ other, other ≠ key → c'.store.orchestration.attempt other =
        c.store.orchestration.attempt other) ∧
      c'.store.orchestration.sessions = c.store.orchestration.sessions := by
  rw [integrateAttempt, onAttempts] at h
  obtain ⟨attempts, hmodify, hstore⟩ := onOrchestration_runs h
  have hattempt := attempt_update (o := c.store.orchestration) (Table.modify_eq_some hmodify).1
    fun _ ↦ rfl
  obtain ⟨row, hrow, hp⟩ := exists_of_modify hmodify hn
  obtain ⟨rfl, hfresh⟩ := of_decide_eq_true hp
  have hfound := attempt_of_mem (o := c.store.orchestration) hrow
  rw [hstore]
  refine ⟨⟨row, hfound, hfresh⟩, ⟨{ row with
    candidateRevision := some candidate
    integrated := true
    lastDurablePhase := some "integrated" }, ?_, rfl, rfl⟩, fun other hother ↦ ?_, rfl⟩
  · rw [hattempt, hfound, Option.map_some, if_pos hp]
  · rw [hattempt]
    rcases hrow : c.store.orchestration.attempt other with _ | row'
    · rfl
    · have hid := Table.find_some hrow
      rw [Option.map_some, if_neg]
      intro hp'
      exact hother ((of_decide_eq_true hid.2).symm.trans (of_decide_eq_true hp').1)

/-- **What a landing does.** -/
theorem advanceIntegration_runs {landing : Landing} {u : Unit}
    {c c' : Connection Database FamiliarError}
    (h : (OrchestrationRepository.advanceIntegration landing.session landing.expected
      landing.candidate landing.sequence).Runs c u c') :
    landing.Lands c.store.orchestration c'.store.orchestration := by
  obtain ⟨c₁, c₂, hbegin, hbody, hend⟩ := h.of_transaction
  obtain ⟨changed, c₃, hadvance, hbody⟩ := hbody.of_bind
  obtain ⟨rfl, hrest⟩ := hbody.of_ensure_bind
  obtain ⟨changed, c₅, hintegrate, hensure⟩ := hrest.of_bind
  obtain ⟨rfl, rfl⟩ := hensure.of_ensure
  obtain ⟨hrevisions, hothers, hattempts⟩ := advanceRevision_runs hadvance one_ne_zero
  obtain ⟨hfresh, hintegrated, hkeys, hsessions⟩ := integrateAttempt_runs hintegrate one_ne_zero
  have hattempt (key : AttemptKey) :
      c₃.store.orchestration.attempt key = c₁.store.orchestration.attempt key :=
    congrArg (·.find fun row ↦ decide (row.key = key)) hattempts
  have hsession (session : String) :
      c₅.store.orchestration.revisions session = c₃.store.orchestration.revisions session :=
    congrArg (fun T : Table driverSessionSchema ↦
      ((T.find fun row ↦ decide (row.sessionId = session)).map
        DriverSessionRow.revisions).getD (none, none)) hsessions
  rw [hend, ← hbegin]
  exact {
    revisions := by
      rw [hsession]
      exact hrevisions
    others := fun session hne ↦ (hsession session).trans (hothers session hne)
    fresh := by
      rw [← hattempt]
      exact hfresh
    integrated := hintegrated
    attempts := fun key hne ↦ (hkeys key hne).trans (hattempt key) }

/-- A landing that fails leaves everything as it was. -/
theorem advanceIntegration_atomic (session expected candidate : String) (sequence : ℕ) :
    (OrchestrationRepository.advanceIntegration session expected candidate sequence).Atomic :=
  .transaction

/-! ### The landings of a run -/

/-- The landing that a call makes, if it is one and succeeds. -/
def SessionStep.landing? (db : Database) (step : SessionStep) : Option Landing :=
  match step.call, (db.sessionCall step).1 with
  | .advanceIntegration session expected candidate sequence, .ok _ =>
    some ⟨session, expected, candidate, sequence⟩
  | _, _ => none

/-- The landings of a sequence of calls, in the order in which they were made. -/
def Database.landings : Database → List SessionStep → List Landing
  | _, [] => []
  | db, step :: steps => (step.landing? db).toList ++ (db.sessionStep step).landings steps

theorem sessionStep_cases (db : Database) (step : SessionStep) :
    (∃ landing, step.landing? db = some landing ∧
        landing.Lands db.orchestration (db.sessionStep step).orchestration) ∨
      step.landing? db = none ∧ db.Proceeds (db.sessionStep step) := by
  by_cases hadvance : ∃ session expected candidate sequence,
      step.call = .advanceIntegration session expected candidate sequence
  · obtain ⟨session, expected, candidate, sequence, hcall⟩ := hadvance
    rw [SessionStep.landing?, hcall]
    rcases hrun : db.sessionCall step with ⟨error | answer, c'⟩
    · -- a landing that fails changes nothing
      have hatomic : step.call.query.Atomic := by
        rw [hcall]
        exact .bind_pure (advanceIntegration_atomic _ _ _ _)
      have hstore : c'.store = db := hatomic ⟨db, step.faults⟩ error c' hrun
      refine .inr ⟨rfl, ?_⟩
      rw [Database.sessionStep, hrun, hstore]
      exact Std.Refl.refl db
    · refine .inl ⟨_, rfl, ?_⟩
      have hruns : step.call.query.Runs ⟨db, step.faults⟩ answer c' := hrun
      rw [hcall] at hruns
      obtain ⟨u, -, hadvance⟩ := hruns.of_bind_pure
      rw [Database.sessionStep, hrun]
      exact @advanceIntegration_runs ⟨session, expected, candidate, sequence⟩ u _ _ hadvance
  · refine .inr ⟨?_, respects_sessionCall (fun session expected candidate sequence hcall ↦
      hadvance ⟨session, expected, candidate, sequence, hcall⟩) ⟨db, step.faults⟩⟩
    rw [SessionStep.landing?]
    split
    · rename_i hcall _
      exact absurd ⟨_, _, _, _, hcall⟩ hadvance
    · rfl

def Chained : Option String × Option String → List Landing → Prop
  | (some base, some revision), landings =>
    Leads (fun _ _ ↦ True) base (landings.map (·.transition)) revision
  | (none, none), landings => landings = []
  | _, _ => False

theorem Chained.exists_base {revisions : Option String × Option String} {landings : List Landing}
    {landing : Landing} (h : Chained revisions landings) (hlanding : landing ∈ landings) :
    ∃ base revision, revisions = (some base, some revision) := by
  rcases revisions with ⟨_ | base, _ | revision⟩
  · have hnone : landings = [] := h
    rw [hnone] at hlanding
    exact absurd hlanding not_mem_nil
  · exact h.elim
  · exact h.elim
  · exact ⟨base, revision, rfl⟩

/-- The landings so far are accounted for by the sessions and the attempts. -/
structure Landed (o : Orchestration) (landings : List Landing) : Prop where
  chained : ∀ session, Chained (o.revisions session) (landings.filter (·.session = session))
  nodup : (landings.map (·.key)).Nodup
  recorded : ∀ landing ∈ landings, ∃ row, o.attempt landing.key = some row ∧
    row.integrated = true ∧ row.candidateRevision = some landing.candidate

theorem Landed.empty : Landed .empty [] where
  chained _ := rfl
  nodup := nodup_nil
  recorded _ h := absurd h not_mem_nil

theorem Landed.proceeds {o o' : Orchestration} {landings : List Landing} (h : Landed o landings)
    (h' : o.Proceeds o') : Landed o' landings where
  chained session := by
    have hchained := h.chained session
    rcases h'.revisions session with heq | ⟨revision, hset⟩
    · rw [heq]
      exact hchained
    · rw [hset]
      rcases hrevisions : o.revisions session with ⟨_ | base, _ | integrated⟩ <;>
        rw [hrevisions] at hchained
      · -- the base is set now, and nothing has landed yet
        have hnone : landings.filter (·.session = session) = [] := hchained
        rw [hnone]
        rfl
      · exact hchained.elim
      · exact hchained.elim
      · exact hchained
  nodup := h.nodup
  recorded landing hlanding := by
    obtain ⟨row, hrow, hintegrated, hcandidate⟩ := h.recorded landing hlanding
    obtain ⟨row', hrow', hintegrated', hcandidate'⟩ := h'.integrated _ row hrow hintegrated
    exact ⟨row', hrow', hintegrated', hcandidate'.trans hcandidate⟩

theorem Landed.lands {o o' : Orchestration} {landings : List Landing} {landing : Landing}
    (h : Landed o landings) (h' : landing.Lands o o') : Landed o' (landings ++ [landing]) where
  chained session := by
    have hchained := h.chained session
    rw [filter_append]
    by_cases hsession : landing.session = session
    · subst hsession
      obtain ⟨base, hbefore, hafter⟩ := h'.revisions
      rw [hbefore] at hchained
      rw [hafter, filter_cons_of_pos (by simp), filter_nil]
      rcases base with _ | base
      · exact hchained.elim
      show Leads _ base (List.map _ (_ ++ _)) landing.candidate
      rw [map_append]
      exact Leads.append hchained (Leads.single trivial)
    · rw [h'.others session (Ne.symm hsession), filter_cons_of_neg (by simpa using hsession),
        filter_nil, append_nil]
      exact hchained
  nodup := by
    rw [map_append, nodup_append]
    refine ⟨h.nodup, nodup_singleton _, fun key hkey key' hkey' ↦ ?_⟩
    -- what has landed before is not fresh
    obtain ⟨landed, hlanded, rfl⟩ := List.mem_map.1 hkey
    rw [mem_singleton.1 hkey']
    intro hsame
    obtain ⟨row, hrow, hintegrated, -⟩ := h.recorded landed hlanded
    obtain ⟨row', hrow', hfresh⟩ := h'.fresh
    rw [hsame, hrow'] at hrow
    obtain rfl := Option.some.inj hrow
    rw [hfresh] at hintegrated
    cases hintegrated
  recorded landed hlanded := by
    rcases mem_append.1 hlanded with hlanded | hlanded
    · obtain ⟨row, hrow, hintegrated, hcandidate⟩ := h.recorded landed hlanded
      by_cases hsame : landed.key = landing.key
      · obtain ⟨row', hrow', hfresh⟩ := h'.fresh
        rw [hsame, hrow'] at hrow
        obtain rfl := Option.some.inj hrow
        rw [hfresh] at hintegrated
        cases hintegrated
      · exact ⟨row, (h'.attempts _ hsame).trans hrow, hintegrated, hcandidate⟩
    · rw [mem_singleton.1 hlanded]
      exact h'.integrated

theorem Landed.run {db : Database} {landings : List Landing} (h : Landed db.orchestration landings)
    (steps : List SessionStep) :
    Landed (db.sessionRun steps).orchestration (landings ++ db.landings steps) := by
  induction steps generalizing db landings with
  | nil =>
    rw [Database.landings, append_nil]
    exact h
  | cons step steps ih =>
    rw [Database.landings, ← append_assoc]
    refine ih ?_
    rcases sessionStep_cases db step with ⟨landing, hlanding, hlands⟩ | ⟨hnone, hproceeds⟩
    · rw [hlanding]
      exact h.lands hlands
    · rw [hnone, Option.toList_none, append_nil]
      exact h.proceeds hproceeds

/-- **The landings of a session form one chain.** Over any sequence of calls, with engine faults at any
statement: the landings of each session lead from its base, each from where the one before it has
arrived, to the revision that it has integrated, and none is missing; no attempt lands twice, and each
one that has landed is recorded with what it has made. An advance that fails changes nothing. -/
theorem landings_chain (steps : List SessionStep) :
    (∀ session base revision,
      (Database.sessionRun .empty steps).orchestration.revisions session =
          (some base, some revision) →
        Leads (fun _ _ ↦ True) base
          (((Database.landings .empty steps).filter (·.session = session)).map (·.transition))
          revision) ∧
      (∀ landing ∈ Database.landings .empty steps, ∃ base revision,
        (Database.sessionRun .empty steps).orchestration.revisions landing.session =
          (some base, some revision)) ∧
      ((Database.landings .empty steps).map (·.key)).Nodup ∧
      (∀ landing ∈ Database.landings .empty steps, ∃ row,
        (Database.sessionRun .empty steps).orchestration.attempt landing.key = some row ∧
          row.integrated = true ∧ row.candidateRevision = some landing.candidate) ∧
      ∀ db session expected candidate sequence faults e c',
        (OrchestrationRepository.advanceIntegration session expected candidate sequence).Fails
          ⟨db, faults⟩ e c' → c'.store = db := by
  have hempty : Landed Database.empty.orchestration [] := Landed.empty
  have hlanded := hempty.run steps
  rw [nil_append] at hlanded
  refine ⟨fun session base revision hrevisions ↦ ?_, fun landing hlanding ↦ ?_, hlanded.nodup,
    hlanded.recorded, ?_⟩
  · have hchained := hlanded.chained session
    rw [hrevisions] at hchained
    exact hchained
  · exact (hlanded.chained landing.session).exists_base
      (mem_filter.2 ⟨hlanding, decide_eq_true rfl⟩)
  · intro db session expected candidate sequence faults e c' h
    exact advanceIntegration_atomic session expected candidate sequence ⟨db, faults⟩ e c' h

def twoSessions : List SessionStep :=
  [⟨.openSession "first" "repo", []⟩, ⟨.initializeIntegration "first" "A", []⟩,
    ⟨.recordAttemptStarted "first" "PRD-1" "t1", []⟩, ⟨.advanceIntegration "first" "A" "B" 1, []⟩,
    ⟨.finishSession "first" "complete", []⟩, ⟨.openSession "second" "repo", []⟩,
    ⟨.initializeIntegration "second" "C", []⟩, ⟨.recordAttemptStarted "second" "PRD-2" "t2", []⟩,
    ⟨.advanceIntegration "second" "C" "D" 1, []⟩]

theorem landings_twoSessions :
    Database.landings .empty twoSessions = [⟨"first", "A", "B", 1⟩, ⟨"second", "C", "D", 1⟩] ∧
      (Database.sessionRun .empty twoSessions).orchestration.sessions.rows.map (·.repositoryKey) =
        ["repo", "repo"] ∧
      ¬∃ base revision, Leads (fun _ _ ↦ True) base
        ((Database.landings .empty twoSessions).map (·.transition)) revision := by
  have hlandings : Database.landings .empty twoSessions =
      [⟨"first", "A", "B", 1⟩, ⟨"second", "C", "D", 1⟩] := by
    decide +kernel
  refine ⟨hlandings, by decide +kernel, ?_⟩
  rw [hlandings]
  rintro ⟨base, revision, -, -, hold, -⟩
  exact absurd hold (by decide)

end FamiliarAi
