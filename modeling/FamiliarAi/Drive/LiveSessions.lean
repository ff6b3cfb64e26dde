import FamiliarAi.Drive.SharedStore

/-!
# Live sessions keep their rows

A recovery closes whatever is open in the store, so a live session keeps its rows only where none is
open when another one starts. The worker lock sees to that where it can: two processes with one runtime
directory never hold the lock of one kind together, as long as no delegate takes it over a file that it
has not seen. It says nothing about two hosts, two runtime directories, or an owner and a delegate.
-/

namespace FamiliarAi

open List

open Relational

/-! ### Open rows -/

def Database.SessionOpen (db : Database) (session : String) : Prop :=
  ∃ row ∈ db.orchestration.sessions.rows, row.sessionId = session ∧ row.ended = false

instance (db : Database) (session : String) : Decidable (db.SessionOpen session) :=
  inferInstanceAs (Decidable (∃ row ∈ _, _))

def Database.AttemptOpen (db : Database) (key : AttemptKey) : Prop :=
  ∃ row ∈ db.orchestration.attempts.rows, row.key = key ∧ row.ended = false

instance (db : Database) (key : AttemptKey) : Decidable (db.AttemptOpen key) :=
  inferInstanceAs (Decidable (∃ row ∈ _, _))

/-- The sessions and attempts of the given kinds that are open stay open. -/
structure Database.KeepsOpen (sessions : String → Prop) (attempts : AttemptKey → Prop)
    (db db' : Database) : Prop where
  sessions : ∀ session, sessions session → db.SessionOpen session → db'.SessionOpen session
  attempts : ∀ key, attempts key → db.AttemptOpen key → db'.AttemptOpen key

section KeepsOpen

variable {sessions : String → Prop} {attempts : AttemptKey → Prop} {p : DriverSessionRow → Bool}
  {f : DriverSessionRow → DriverSessionRow} {q : DriverAttemptRow → Bool}
  {g : DriverAttemptRow → DriverAttemptRow} {session : String} {α : Type}

instance : Std.Refl (Database.KeepsOpen sessions attempts) :=
  ⟨fun _ ↦ ⟨fun _ _ h ↦ h, fun _ _ h ↦ h⟩⟩

instance : IsTrans Database (Database.KeepsOpen sessions attempts) :=
  ⟨fun _ _ _ h h' ↦ ⟨fun session hsession hopen ↦
      h'.sessions session hsession (h.sessions session hsession hopen),
    fun key hkey hopen ↦ h'.attempts key hkey (h.attempts key hkey hopen)⟩⟩

theorem keepsOpen_modifySessions (hf : ∀ row, (f row).sessionId = row.sessionId)
    (hopen : ∀ row, p row = true → sessions row.sessionId → row.ended = false →
      (f row).ended = false) :
    (onSessions fun table ↦ table.modify p f).Respects (Database.KeepsOpen sessions attempts) := by
  refine .change fun db n db' h ↦ ?_
  obtain ⟨⟨_, table⟩, hmodify, hr⟩ := Option.map_eq_some_iff.1 h
  obtain ⟨-, rfl⟩ := Prod.mk.inj hr
  have hupdate := (Table.modify_eq_some hmodify).1
  refine ⟨fun session hsession ⟨row, hrow, hid, hended⟩ ↦ ?_, fun key _ hattempt ↦ hattempt⟩
  subst hid
  refine ⟨_, (Table.mem_update hupdate).2 ⟨row, hrow, rfl⟩, ?_, ?_⟩
  · split
    · exact hf row
    · rfl
  · split
    · rename_i hp
      exact hopen row hp hsession hended
    · exact hended

theorem keepsOpen_modifyAttempts (hg : ∀ row, (g row).key = row.key)
    (hopen : ∀ row, q row = true → attempts row.key → row.ended = false → (g row).ended = false) :
    (onAttempts fun table ↦ table.modify q g).Respects (Database.KeepsOpen sessions attempts) := by
  refine .change fun db n db' h ↦ ?_
  obtain ⟨⟨_, table⟩, hmodify, hr⟩ := Option.map_eq_some_iff.1 h
  obtain ⟨-, rfl⟩ := Prod.mk.inj hr
  have hupdate := (Table.modify_eq_some hmodify).1
  refine ⟨fun session _ hsession ↦ hsession, fun key hkey ⟨row, hrow, hid, hended⟩ ↦ ?_⟩
  subst hid
  refine ⟨_, (Table.mem_update hupdate).2 ⟨row, hrow, rfl⟩, ?_, ?_⟩
  · split
    · exact hg row
    · rfl
  · split
    · rename_i hq
      exact hopen row hq hkey hended
    · exact hended

theorem keepsOpen_onMigrations {f : Table migrationSchema → Option (α × Table migrationSchema)} :
    (onMigrations f).Respects (Database.KeepsOpen sessions attempts) :=
  .changePart fun _ _ ↦ ⟨fun _ _ h ↦ h, fun _ _ h ↦ h⟩

theorem keepsOpen_pure {a : α} :
    (pure a : SessionQuery α).Respects (Database.KeepsOpen sessions attempts) :=
  .of_readOnly .pure

theorem keepsOpen_ensure {p : Prop} [Decidable p] {e : FamiliarError} :
    (Query.ensure p e : SessionQuery Unit).Respects (Database.KeepsOpen sessions attempts) :=
  .of_readOnly .ensure

theorem keepsOpen_openSession (session repository : String) :
    (DriverRepository.openSession session repository).Respects
      (Database.KeepsOpen sessions attempts) := by
  refine .change fun db _ db' h ↦ ?_
  obtain ⟨⟨_, table⟩, hmap, hr⟩ := Option.map_eq_some_iff.1 h
  obtain ⟨-, rfl⟩ := Prod.mk.inj hr
  obtain ⟨inserted, hinsert, heq⟩ := Option.map_eq_some_iff.1 hmap
  obtain rfl : inserted = table := (Prod.mk.inj heq).2
  refine ⟨fun other _ ⟨row, hrow, hid⟩ ↦ ⟨row, ?_, hid⟩, fun key _ hattempt ↦ hattempt⟩
  exact (Table.mem_insert hinsert).2 (.inl hrow)

theorem keepsOpen_recordAttemptStarted (session prdId startedAt : String) :
    (DriverRepository.recordAttemptStarted session prdId startedAt).Respects
      (Database.KeepsOpen sessions attempts) := by
  refine .bind (.of_readOnly .read) fun sequence ↦
    .bind (.write fun db db' h ↦ ?_) fun _ ↦ keepsOpen_pure
  split_ifs at h
  obtain ⟨table, hinsert, rfl⟩ := Option.map_eq_some_iff.1 h
  refine ⟨fun _ _ hsession ↦ hsession, fun key _ ⟨row, hrow, hid⟩ ↦ ⟨row, ?_, hid⟩⟩
  exact (Table.mem_insert hinsert).2 (.inl hrow)

theorem keepsOpen_integrateAttempt (key : AttemptKey) (candidate : String) :
    (integrateAttempt key candidate).Respects (Database.KeepsOpen sessions attempts) :=
  keepsOpen_modifyAttempts (fun _ ↦ rfl) fun _ _ _ h ↦ h

theorem keepsOpen_reserveMigration (repository session prd : String) (firstAvailable : ℕ) :
    (OrchestrationRepository.reserveMigration repository session prd firstAvailable).Respects
      (Database.KeepsOpen sessions attempts) := by
  refine Query.Carries.transaction (Query.Respects.carries ?_)
  refine Query.Respects.bind (.of_readOnly Query.ReadOnly.read) fun existing ↦ ?_
  rcases existing with _ | existing
  · refine .bind (.of_readOnly .read) fun reserved ↦
      .bind (.write fun db db' h ↦ ?_) fun _ ↦ keepsOpen_pure
    split_ifs at h
    obtain ⟨migrations, -, rfl⟩ := Option.map_eq_some_iff.1 h
    exact ⟨fun _ _ h ↦ h, fun _ _ h ↦ h⟩
  · dsimp only
    split
    · exact keepsOpen_pure
    · exact keepsOpen_onMigrations.bind fun _ ↦ keepsOpen_ensure.bind fun _ ↦ keepsOpen_pure
    · exact .of_readOnly .fail

theorem keepsOpen_call {call : SessionCall} (h : call.ofSession session = true)
    (hattempts : ∀ key outcome reason, call = .recordAttemptFinished key outcome reason → ¬attempts key)
    :
    call.query.Respects (Database.KeepsOpen sessions attempts) := by
  cases call with
  | openSession | finishSession | recoverIncomplete => cases h
  | heartbeat s worker =>
    refine .bind (.bind ?_ fun _ ↦ keepsOpen_ensure) fun _ ↦ keepsOpen_pure
    exact keepsOpen_modifySessions (fun _ ↦ rfl) fun _ _ _ h ↦ h
  | recordAttemptStarted s prdId startedAt =>
    exact (keepsOpen_recordAttemptStarted s prdId startedAt).bind fun _ ↦ keepsOpen_pure
  | recordAttemptFinished key outcome reason =>
    refine .bind (.bind ?_ fun _ ↦ keepsOpen_ensure) fun _ ↦ keepsOpen_pure
    refine keepsOpen_modifyAttempts (fun _ ↦ rfl) fun row hrow hkey _ ↦ ?_
    rw [of_decide_eq_true hrow] at hkey
    exact absurd hkey (hattempts key outcome reason rfl)
  | initializeIntegration s revision =>
    refine .bind (.bind ?_ fun _ ↦ keepsOpen_ensure) fun _ ↦ keepsOpen_pure
    exact keepsOpen_modifySessions (fun _ ↦ rfl) fun _ _ _ h ↦ h
  | advanceIntegration s expected candidate sequence =>
    refine Query.Respects.bind (Query.Carries.transaction (Query.Respects.carries ?_)) fun _ ↦
      keepsOpen_pure
    refine Query.Respects.bind ?_ fun _ ↦ Query.Respects.bind keepsOpen_ensure fun _ ↦
      (keepsOpen_integrateAttempt _ _).bind fun _ ↦ keepsOpen_ensure
    exact keepsOpen_modifySessions (fun _ ↦ rfl) fun _ _ _ h ↦ h
  | reserveMigration repository s prd firstAvailable =>
    exact (keepsOpen_reserveMigration repository s prd firstAvailable).bind fun _ ↦ keepsOpen_pure
  | resolveMigration s prd consume =>
    refine .bind (.bind ?_ fun _ ↦ keepsOpen_ensure) fun _ ↦ keepsOpen_pure
    exact keepsOpen_onMigrations

theorem keepsOpen_finishSession (reason : String) (h : ¬sessions session) :
    (DriverRepository.finishSession session reason).Respects
      (Database.KeepsOpen sessions attempts) := by
  refine .bind ?_ fun _ ↦ keepsOpen_ensure
  refine keepsOpen_modifySessions (fun _ ↦ rfl) fun row hrow hsession _ ↦ ?_
  rw [of_decide_eq_true hrow] at hsession
  exact absurd hsession h

end KeepsOpen

/-! ### The rows of a session -/

def Database.HasRows (db : Database) (session : String) (running : List ℕ) : Prop :=
  db.SessionOpen session ∧ ∀ n ∈ running, db.AttemptOpen ⟨session, n⟩

section HasRows

variable {sessions : String → Prop} {attempts : AttemptKey → Prop} {db db' : Database}
  {session repository : String} {running : List ℕ} {c c' : Connection Database FamiliarError}

theorem Database.KeepsOpen.hasRows (h : db.KeepsOpen sessions attempts db')
    (hsession : sessions session) (hrunning : ∀ n ∈ running, attempts ⟨session, n⟩)
    (hrows : db.HasRows session running) : db'.HasRows session running :=
  ⟨h.sessions session hsession hrows.1,
    fun n hn ↦ h.attempts ⟨session, n⟩ (hrunning n hn) (hrows.2 n hn)⟩

theorem openSession_runs {u : Unit}
    (h : (DriverRepository.openSession session repository).Runs c u c') :
    c'.store.SessionOpen session ∧ ¬c.store.SessionOpen session := by
  unfold DriverRepository.openSession onSessions at h
  obtain ⟨table, hmap, hstore⟩ := onOrchestration_runs h
  obtain ⟨inserted, hinsert, heq⟩ := Option.map_eq_some_iff.1 hmap
  obtain rfl : inserted = table := (Prod.mk.inj heq).2
  constructor
  · rw [hstore]
    exact ⟨_, (Table.mem_insert hinsert).2 (.inr rfl), rfl, rfl⟩
  · rintro ⟨row, hrow, hid, -⟩
    have hfree := Table.not_clash_of_insert hinsert hrow
    exact of_decide_eq_false hfree hid

theorem recordAttemptStarted_runs {prdId startedAt : String} {n : ℕ}
    (h : (DriverRepository.recordAttemptStarted session prdId startedAt).Runs c n c') :
    c'.store.AttemptOpen ⟨session, n⟩ := by
  obtain ⟨sequence, c₁, -, h⟩ := h.of_bind
  obtain ⟨_, rfl, hwrite⟩ := h.of_bind_pure
  have hwrite := hwrite.of_write
  split_ifs at hwrite
  obtain ⟨table, hinsert, hstore⟩ := Option.map_eq_some_iff.1 hwrite
  rw [← hstore]
  exact ⟨_, (Table.mem_insert hinsert).2 (.inr rfl), rfl, rfl⟩

theorem hasRows_call {call : SessionCall} (hof : call.ofSession session = true)
    (h : c.store.HasRows session running) :
    (call.query.run c).2.store.HasRows session (call.running running (call.query.run c).1) := by
  have hkeeps := fun attempts hattempts ↦
    @keepsOpen_call (fun _ ↦ True) attempts session call hof hattempts c
  cases call with
  | openSession | finishSession | recoverIncomplete => cases hof
  | heartbeat | initializeIntegration | advanceIntegration | reserveMigration | resolveMigration =>
    exact (hkeeps (fun _ ↦ True) nofun).hasRows trivial (fun _ _ ↦ trivial) h
  | recordAttemptStarted s prdId startedAt =>
    have hkept := (hkeeps (fun _ ↦ True) nofun).hasRows trivial (fun _ _ ↦ trivial) h
    obtain rfl : s = session := of_decide_eq_true hof
    cases hrun : (SessionCall.recordAttemptStarted s prdId startedAt).query.run c with
    | mk outcome c' =>
      rw [hrun] at hkept
      rcases outcome with e | answer
      · exact hkept
      obtain ⟨n, c₁, hstarted, hpure⟩ := Query.runs_bind.1 (hrun : Query.Runs _ _ _ _)
      obtain ⟨rfl, rfl⟩ := hpure.of_pure
      exact ⟨hkept.1, forall_mem_cons.2 ⟨recordAttemptStarted_runs hstarted, hkept.2⟩⟩
  | recordAttemptFinished key outcome reason =>
    refine (hkeeps (fun key' ↦ key' ≠ key) ?_).hasRows trivial (fun n hn hkey ↦ ?_)
      ⟨h.1, fun n hn ↦ h.2 n (mem_of_mem_filter hn)⟩
    · intro key' outcome' reason' hcall hkey
      cases hcall
      exact hkey rfl
    · have hne := (mem_filter.1 hn).2
      simp [← hkey] at hne

end HasRows

namespace SharedStore

/-- A lock of the same kind, in the same runtime directory, keeps out every other process that drives a
session. -/
def LocksOut (w : SharedStore) (p : Process) : Prop :=
  ∀ m ∈ w.drivers, m.process = p → ∀ lock ∈ m.stage.lock?,
    ∀ m' ∈ w.drivers, m'.process ≠ p → m'.stage.session?.isSome → ∀ lock' ∈ m'.stage.lock?,
      m'.SharesDir m ∧ lock'.kind = lock.kind ∧ m.process.startIdentity.isSome = true ∧
        m'.process.startIdentity.isSome = true

/-- A lock is taken with a new claim, and a delegate takes it over no file that it has not seen. -/
def TakesNew (w : SharedStore) (p : Process) (nonce : String) : Prop :=
  ∀ m ∈ w.drivers, m.process = p → ∀ plan ∈ m.stage.plan?,
    (∀ m' ∈ w.drivers, ∀ plan' ∈ m'.stage.plan?, plan'.seen ≠ some (.claim (plan.claim nonce p))) ∧
      (plan.kind = .delegate → (w.dir m).file .delegate = plan.seen)

instance (w : SharedStore) (p : Process) : Decidable (w.LocksOut p) :=
  inferInstanceAs (Decidable (∀ m ∈ w.drivers, _))

instance (w : SharedStore) (p : Process) (nonce : String) : Decidable (w.TakesNew p nonce) :=
  inferInstanceAs (Decidable (∀ m ∈ w.drivers, _))

/-- The lock does what it is for: it is taken by one process at a time, and whoever recovers the store
has it against all others. -/
def CleanStep (w : SharedStore) : DriverStep → Prop
  | .take p nonce => w.TakesNew p nonce
  | .recoverAttempts p _ | .recoverSessions p _ => w.LocksOut p
  | _ => True

instance (w : SharedStore) (step : DriverStep) : Decidable (w.CleanStep step) := by
  cases step <;> unfold CleanStep <;> infer_instance

def Clean (w : SharedStore) : List DriverStep → Prop
  | [] => True
  | step :: steps => w.CleanStep step ∧ (w.step step).Clean steps

instance decidableClean (w : SharedStore) (steps : List DriverStep) : Decidable (w.Clean steps) :=
  match steps with
  | [] => inferInstanceAs (Decidable True)
  | step :: steps =>
    have := decidableClean (w.step step) steps
    inferInstanceAs (Decidable (_ ∧ _))

/-! ### Locks -/

variable {w w' : SharedStore} {m m' : Driver} {stage : DriveStage} {p : Process} {lock : WorkerLock}
  {plan : LockPlan}

theorem mem_advance : m' ∈ (w.advance m stage).drivers ↔
    m' = { m with stage } ∨ m' ∈ w.drivers ∧ m'.process ≠ m.process := by
  unfold advance
  simp

theorem mem_remove : m' ∈ (w.remove p).drivers ↔ m' ∈ w.drivers ∧ m'.process ≠ p := by
  unfold remove
  simp

theorem mem_of_driver (h : w.driver p = some m) : m ∈ w.drivers ∧ m.process = p := by
  unfold driver at h
  exact ⟨mem_of_find?_eq_some h, by simpa using find?_some h⟩

theorem dir_eq (h : m.SharesDir m') : w.dir m = w.dir m' := by
  unfold dir
  rw [h.1, h.2]

/-- **The invariant of the locks.** A process that holds a lock is named in its claim; where its start
identity can be read, its file is in place, and no process is about to take the lock over that file. -/
structure Guarded (w : SharedStore) : Prop where
  pids : ∀ m ∈ w.drivers, 0 < m.process.pid ∧ m.process.pid ≤ maxPid
  apart : ∀ m ∈ w.drivers, ∀ m' ∈ w.drivers, m.process.host = m'.process.host →
    m.process.pid = m'.process.pid → m = m'
  named : ∀ m ∈ w.drivers, ∀ lock, m.stage.lock? = some lock →
    lock.claim.ownerPid = m.process.pid ∧
      ∀ start, m.process.startIdentity = some start → lock.claim.processStartIdentity = start
  inPlace : ∀ m ∈ w.drivers, ∀ lock, m.stage.lock? = some lock →
    m.process.startIdentity.isSome = true → (w.dir m).file lock.kind = some (.claim lock.claim)
  unseen : ∀ m ∈ w.drivers, ∀ plan, m.stage.plan? = some plan →
    ∀ m' ∈ w.drivers, m.SharesDir m' → ∀ lock, m'.stage.lock? = some lock →
      m'.process.startIdentity.isSome = true → lock.kind = plan.kind →
        plan.seen ≠ some (.claim lock.claim)

theorem guarded_of_drivers (h : w.drivers = []) : w.Guarded := by
  refine ⟨?_, ?_, ?_, ?_, ?_⟩ <;> rw [h] <;> exact forall_mem_nil _

/-- **The lock excludes.** Two processes that hold a lock of one kind in one runtime directory are one
and the same. -/
theorem Guarded.excludes {lock lock' : WorkerLock} (h : w.Guarded) (hm : m ∈ w.drivers)
    (hm' : m' ∈ w.drivers) (hdir : m'.SharesDir m) (hlock : m.stage.lock? = some lock)
    (hlock' : m'.stage.lock? = some lock') (hkind : lock'.kind = lock.kind)
    (hstart : m.process.startIdentity.isSome = true)
    (hstart' : m'.process.startIdentity.isSome = true) : m' = m := by
  have hfile := h.inPlace m hm lock hlock hstart
  have hfile' := h.inPlace m' hm' lock' hlock' hstart'
  rw [dir_eq hdir, hkind, hfile] at hfile'
  have hclaim : lock.claim = lock'.claim := by simpa using hfile'
  refine h.apart m' hm' m hm hdir.1 ?_
  rw [← (h.named m' hm' lock' hlock').1, ← hclaim, (h.named m hm lock hlock).1]

theorem Guarded.advance (h : w.Guarded) (hm : m ∈ w.drivers) (hdrivers : w'.drivers = w.drivers)
    (hnamed : ∀ lock, stage.lock? = some lock → lock.claim.ownerPid = m.process.pid ∧
      ∀ start, m.process.startIdentity = some start → lock.claim.processStartIdentity = start)
    (hplace : ∀ lock, stage.lock? = some lock → m.process.startIdentity.isSome = true →
      (w'.dir m).file lock.kind = some (.claim lock.claim))
    (hothers : ∀ m' ∈ w.drivers, m'.process ≠ m.process → ∀ lock, m'.stage.lock? = some lock →
      m'.process.startIdentity.isSome = true →
        (w'.dir m').file lock.kind = some (.claim lock.claim))
    (hseen : ∀ plan, stage.plan? = some plan → ∀ m' ∈ w.drivers, m'.process ≠ m.process →
      m.SharesDir m' → ∀ lock, m'.stage.lock? = some lock →
        m'.process.startIdentity.isSome = true → lock.kind = plan.kind →
          plan.seen ≠ some (.claim lock.claim))
    (hunseen : ∀ lock, stage.lock? = some lock → m.process.startIdentity.isSome = true →
      ∀ m' ∈ w.drivers, m'.process ≠ m.process → ∀ plan, m'.stage.plan? = some plan →
        m'.SharesDir m → lock.kind = plan.kind → plan.seen ≠ some (.claim lock.claim)) :
    (w'.advance m stage).Guarded := by
  have hmem : ∀ m', m' ∈ (w'.advance m stage).drivers →
      m' = { m with stage } ∨ m' ∈ w.drivers ∧ m'.process ≠ m.process := by
    intro m' hm'
    rw [← hdrivers]
    exact mem_advance.1 hm'
  refine ⟨fun m₁ hm₁ ↦ ?_, fun m₁ hm₁ m₂ hm₂ hhost hpid ↦ ?_, fun m₁ hm₁ ↦ ?_, fun m₁ hm₁ ↦ ?_,
    fun m₁ hm₁ plan hplan m₂ hm₂ hdir lock hlock hstart hkind ↦ ?_⟩
  · rcases hmem m₁ hm₁ with rfl | ⟨hm₁, -⟩
    · exact h.pids m hm
    · exact h.pids m₁ hm₁
  · rcases hmem m₁ hm₁ with rfl | ⟨hm₁, hne₁⟩ <;> rcases hmem m₂ hm₂ with rfl | ⟨hm₂, hne₂⟩
    · rfl
    · exact absurd (congrArg Driver.process (h.apart m₂ hm₂ m hm hhost.symm hpid.symm)) hne₂
    · exact absurd (congrArg Driver.process (h.apart m₁ hm₁ m hm hhost hpid)) hne₁
    · exact h.apart m₁ hm₁ m₂ hm₂ hhost hpid
  · rcases hmem m₁ hm₁ with rfl | ⟨hm₁, -⟩
    · exact hnamed
    · exact h.named m₁ hm₁
  · rcases hmem m₁ hm₁ with rfl | ⟨hm₁, hne₁⟩
    · exact hplace
    · exact hothers m₁ hm₁ hne₁
  · rcases hmem m₁ hm₁ with rfl | ⟨hm₁, hne₁⟩ <;> rcases hmem m₂ hm₂ with rfl | ⟨hm₂, hne₂⟩
    · -- a process that is about to take a lock holds none
      cases stage with
      | looked => cases hlock
      | started | holding => cases hplan
    · exact hseen plan hplan m₂ hm₂ hne₂ hdir lock hlock hstart hkind
    · exact hunseen lock hlock hstart m₁ hm₁ hne₁ plan hplan hdir hkind
    · exact h.unseen m₁ hm₁ plan hplan m₂ hm₂ hdir lock hlock hstart hkind

theorem Guarded.remove (h : w.Guarded) (hdrivers : w'.drivers = w.drivers)
    (hothers : ∀ m' ∈ w.drivers, m'.process ≠ p → ∀ lock, m'.stage.lock? = some lock → m'.process.startIdentity.isSome = true → (w'.dir m').file lock.kind = some (.claim lock.claim)) :
    (w'.remove p).Guarded := by
  have hmem : ∀ m', m' ∈ (w'.remove p).drivers → m' ∈ w.drivers ∧ m'.process ≠ p := by
    intro m' hm'
    rw [← hdrivers]
    exact mem_remove.1 hm'
  exact ⟨fun m hm ↦ h.pids m (hmem m hm).1,
    fun m hm m' hm' ↦ h.apart m (hmem m hm).1 m' (hmem m' hm').1,
    fun m hm ↦ h.named m (hmem m hm).1,
    fun m hm ↦ hothers m (hmem m hm).1 (hmem m hm).2,
    fun m hm plan hplan m' hm' ↦ h.unseen m (hmem m hm).1 plan hplan m' (hmem m' hm').1⟩

theorem Guarded.leave (h : w.Guarded) (hm : m ∈ w.drivers) (hlock : m.stage.lock? = some lock) :
    ((w.setDir m (lock.release (w.dir m))).remove m.process).Guarded := by
  refine Guarded.remove h rfl fun m' hm' hne lock' hlock' hstart ↦ ?_
  have hfile := h.inPlace m' hm' lock' hlock' hstart
  show (if m'.process.host = m.process.host ∧ m'.runtimeDir = m.runtimeDir then
    lock.release (w.dir m) else w.dir m').file lock'.kind = _
  split
  · rename_i hdir
    rw [dir_eq hdir] at hfile
    refine file_release _ hfile fun hkind htext ↦ hne ?_
    -- the claim in the file would name both
    have hclaim : lock'.claim = lock.claim := by simpa using htext
    have hsame := h.apart m' hm' m hm hdir.1 (by
      rw [← (h.named m' hm' lock' hlock').1, hclaim, (h.named m hm lock hlock).1])
    rw [hsame]
  · exact hfile

theorem Guarded.spawn (h : w.Guarded) (p : Process) (delegatedBy : Option ℕ) (runtimeDir : String) :
    (w.spawn p delegatedBy runtimeDir).Guarded := by
  unfold SharedStore.spawn
  split
  · rename_i hnew
    obtain ⟨hpid, hfree⟩ := hnew
    refine ⟨forall_mem_cons.2 ⟨hpid, h.pids⟩, fun m hm m' hm' hhost hpid ↦ ?_,
      forall_mem_cons.2 ⟨nofun, h.named⟩, forall_mem_cons.2 ⟨nofun, h.inPlace⟩,
      forall_mem_cons.2 ⟨nofun, fun m hm plan hplan ↦
        forall_mem_cons.2 ⟨fun _ ↦ nofun, h.unseen m hm plan hplan⟩⟩⟩
    rcases mem_cons.1 hm with rfl | hm <;> rcases mem_cons.1 hm' with rfl | hm'
    · rfl
    · exact absurd ⟨hhost.symm, hpid.symm⟩ (hfree m' hm')
    · exact absurd ⟨hhost, hpid⟩ (hfree m hm)
    · exact h.apart m hm m' hm' hhost hpid
  · exact h

theorem Guarded.execute {α : Type} (h : w.Guarded) (hm : m ∈ w.drivers)
    (hlock : m.stage.lock? = some lock) (query : SessionQuery α)
    (faults : List (Option FamiliarError)) (next : Except FamiliarError α → DrivePhase) :
    (w.execute m lock query faults next).Guarded := by
  refine Guarded.advance h hm rfl (fun lock' hlock' ↦ ?_) (fun lock' hlock' hstart ↦ ?_)
    (fun m' hm' _ ↦ h.inPlace m' hm') nofun fun lock' hlock' hstart m' hm' _ plan hplan hdir ↦ ?_
  all_goals obtain rfl : lock = lock' := Option.some.inj hlock'
  · exact h.named m hm lock hlock
  · exact h.inPlace m hm lock hlock hstart
  · exact h.unseen m' hm' plan hplan m hm hdir lock hlock hstart

theorem Guarded.look (h : w.Guarded) (hm : m ∈ w.drivers)
    (hlook : lookAtLocks w.processes m.process.host m.delegatedBy (w.dir m) = .ok plan) :
    (w.advance m (.looked plan)).Guarded := by
  obtain ⟨hseen, hdead⟩ := lookAtLocks_ok hlook
  refine Guarded.advance h hm rfl nofun nofun (fun m' hm' _ ↦ h.inPlace m' hm') ?_ nofun
  intro plan' hplan' m' hm' _ hdir lock hlock hstart hkind hfound
  obtain rfl : plan = plan' := Option.some.inj hplan'
  obtain ⟨start, hstart⟩ := Option.isSome_iff_exists.1 hstart
  obtain ⟨hpid, hnamed⟩ := h.named m' hm' lock hlock
  have hlive : lock.claim.matches w.processes m'.process.host = true := by
    refine matches_of_mem (List.mem_map.2 ⟨m', hm', rfl⟩) (h.pids m' hm') (fun p hp hhost hsame ↦ ?_)
      hstart hpid (hnamed start hstart)
    obtain ⟨m'', hm'', rfl⟩ := List.mem_map.1 hp
    rw [h.apart m'' hm'' m' hm' hhost hsame]
  rw [← hdir.1, hdead _ hfound] at hlive
  cases hlive

theorem Guarded.take {nonce : String} {files : RuntimeDir} (h : w.Guarded) (hm : m ∈ w.drivers)
    (hplan : m.stage.plan? = some plan) (hnew : w.TakesNew m.process nonce)
    (htake : plan.take nonce m.process (w.dir m) = .ok (files, lock)) :
    ((w.setDir m files).advance m (.holding lock .locked)).Guarded := by
  obtain ⟨rfl, hplace, hleft, howner⟩ := take_ok htake
  obtain ⟨hunseen, hdelegate⟩ := hnew m hm rfl plan hplan
  -- the file is still the one that was seen
  have hfound : (w.dir m).file plan.kind = plan.seen := by
    cases hkind : plan.kind with
    | owner => exact howner hkind
    | delegate => exact hdelegate hkind
  refine Guarded.advance h hm rfl (fun lock hlock ↦ ?_) (fun lock hlock _ ↦ ?_)
    (fun m' hm' hne lock hlock hstart ↦ ?_) nofun fun lock hlock _ m' hm' _ plan' hplan' _ _ ↦ ?_
  · obtain rfl := Option.some.inj hlock
    exact ⟨claim_ownerPid _ _ _, fun start hstart ↦ claim_processStartIdentity hstart _ _⟩
  · obtain rfl := Option.some.inj hlock
    show (if m.process.host = m.process.host ∧ m.runtimeDir = m.runtimeDir then files
      else w.dir m).file plan.kind = _
    rw [if_pos ⟨rfl, rfl⟩]
    exact hplace
  · have hfile := h.inPlace m' hm' lock hlock hstart
    show (if m'.process.host = m.process.host ∧ m'.runtimeDir = m.runtimeDir then files
      else w.dir m').file lock.kind = _
    split
    · rename_i hdir
      rw [dir_eq hdir] at hfile
      rw [hleft _ fun hkind ↦ ?_, hfile]
      refine h.unseen m hm plan hplan m' hm' ⟨hdir.1.symm, hdir.2.symm⟩ lock hlock hstart hkind ?_
      rw [← hfound, ← hkind, hfile]
    · exact hfile
  · obtain rfl := Option.some.inj hlock
    exact hunseen m' hm' plan' hplan'

/-! ### Rows -/

/-- **The invariant of the rows.** The session that a process drives is open, and so is each of its
running attempts; no two processes drive one session. -/
structure Keeps (w : SharedStore) : Prop where
  rows : ∀ m ∈ w.drivers, ∀ session running, m.stage.session? = some (session, running) →
    w.db.HasRows session running
  apart : ∀ m ∈ w.drivers, ∀ m' ∈ w.drivers, ∀ session running running',
    m.stage.session? = some (session, running) → m'.stage.session? = some (session, running') →
      m.process = m'.process

theorem keeps_of_drivers (h : w.drivers = []) : w.Keeps := by
  constructor <;> rw [h] <;> exact forall_mem_nil _

theorem Keeps.advance (h : w.Keeps) (hdrivers : w'.drivers = w.drivers)
    (hothers : ∀ m' ∈ w.drivers, m'.process ≠ m.process → ∀ session running,
      m'.stage.session? = some (session, running) → w'.db.HasRows session running)
    (hrows : ∀ session running, stage.session? = some (session, running) →
      w'.db.HasRows session running)
    (hapart : ∀ session running running', stage.session? = some (session, running) →
      ∀ m' ∈ w.drivers, m'.process ≠ m.process → m'.stage.session? ≠ some (session, running')) :
    (w'.advance m stage).Keeps := by
  have hmem : ∀ m', m' ∈ (w'.advance m stage).drivers →
      m' = { m with stage } ∨ m' ∈ w.drivers ∧ m'.process ≠ m.process := by
    intro m' hm'
    rw [← hdrivers]
    exact mem_advance.1 hm'
  refine ⟨fun m₁ hm₁ session running hsession ↦ ?_,
    fun m₁ hm₁ m₂ hm₂ session running running' hsession hsession' ↦ ?_⟩
  · show w'.db.HasRows session running
    rcases hmem m₁ hm₁ with rfl | ⟨hm₁, hne₁⟩
    · exact hrows session running hsession
    · exact hothers m₁ hm₁ hne₁ session running hsession
  · rcases hmem m₁ hm₁ with rfl | ⟨hm₁, hne₁⟩ <;> rcases hmem m₂ hm₂ with rfl | ⟨hm₂, hne₂⟩
    · rfl
    · exact absurd hsession' (hapart session running running' hsession m₂ hm₂ hne₂)
    · exact absurd hsession (hapart session running' running hsession' m₁ hm₁ hne₁)
    · exact h.apart m₁ hm₁ m₂ hm₂ session running running' hsession hsession'

theorem Keeps.idle (h : w.Keeps) (hdrivers : w'.drivers = w.drivers) (hdb : w'.db = w.db)
    (hstage : stage.session? = none) : (w'.advance m stage).Keeps := by
  refine Keeps.advance h hdrivers (fun m' hm' _ ↦ ?_) (fun session running hsession ↦ ?_)
    fun session running running' hsession ↦ ?_
  · rw [hdb]
    exact h.rows m' hm'
  · cases hstage.symm.trans hsession
  · cases hstage.symm.trans hsession

theorem Keeps.remove (h : w.Keeps) (hdrivers : w'.drivers = w.drivers) (hdb : w'.db = w.db) :
    (w'.remove p).Keeps := by
  have hmem : ∀ m' ∈ (w'.remove p).drivers, m' ∈ w.drivers := by
    intro m' hm'
    rw [← hdrivers]
    exact (mem_remove.1 hm').1
  refine ⟨fun m hm session running hsession ↦ ?_,
    fun m hm m' hm' ↦ h.apart m (hmem m hm) m' (hmem m' hm')⟩
  show w'.db.HasRows session running
  rw [hdb]
  exact h.rows m (hmem m hm) session running hsession

theorem Keeps.spawn (h : w.Keeps) (p : Process) (delegatedBy : Option ℕ) (runtimeDir : String) :
    (w.spawn p delegatedBy runtimeDir).Keeps := by
  unfold SharedStore.spawn
  split
  · refine ⟨forall_mem_cons.2 ⟨nofun, h.rows⟩,
      forall_mem_cons.2 ⟨fun _ _ _ _ _ ↦ nofun, fun m hm ↦
        forall_mem_cons.2 ⟨fun _ _ _ _ ↦ nofun, h.apart m hm⟩⟩⟩
  · exact h

section Execute

variable {α : Type} {lock : WorkerLock} {query : SessionQuery α}
  {faults : List (Option FamiliarError)} {next : Except FamiliarError α → DrivePhase}
  {running : List ℕ}

theorem Guarded.drives_none (hg : w.Guarded) (hlocks : w.LocksOut m.process) (hm : m ∈ w.drivers)
    (hlock : m.stage.lock? = some lock) (hm' : m' ∈ w.drivers) (hne : m'.process ≠ m.process) :
    m'.stage.session? = none := by
  by_contra hdrives
  obtain ⟨lock', hlock'⟩ : ∃ lock', m'.stage.lock? = some lock' := by
    cases hstage : m'.stage with
    | holding lock' phase => exact ⟨lock', rfl⟩
    | started | looked => exact absurd (by rw [hstage]; rfl) hdrives
  obtain ⟨hdir, hkind, hstart, hstart'⟩ := hlocks m hm rfl lock hlock m' hm' hne
    (Option.isSome_iff_ne_none.2 hdrives) lock' hlock'
  exact hne (congrArg Driver.process (hg.excludes hm hm' hdir hlock hlock' hkind hstart hstart'))

theorem Keeps.execute (h : w.Keeps)
    (hothers : ∀ m' ∈ w.drivers, m'.process ≠ m.process → ∀ session running,
      m'.stage.session? = some (session, running) →
        (query.run ⟨w.db, faults⟩).2.store.HasRows session running)
    (hrows : ∀ session running,
      (DriveStage.holding lock (next (query.run ⟨w.db, faults⟩).1)).session? =
        some (session, running) → (query.run ⟨w.db, faults⟩).2.store.HasRows session running)
    (hapart : ∀ session running running',
      (DriveStage.holding lock (next (query.run ⟨w.db, faults⟩).1)).session? =
        some (session, running) → ∀ m' ∈ w.drivers, m'.process ≠ m.process →
          m'.stage.session? ≠ some (session, running')) :
    (w.execute m lock query faults next).Keeps :=
  Keeps.advance h rfl hothers hrows hapart

theorem Keeps.recover (h : w.Keeps) (hg : w.Guarded) (hlocks : w.LocksOut m.process)
    (hm : m ∈ w.drivers) (hlock : m.stage.lock? = some lock)
    (hnext : ∀ answer, (DriveStage.holding lock (next answer)).session? = none) :
    (w.execute m lock query faults next).Keeps := by
  refine Keeps.execute h (fun m' hm' hne session running hsession ↦ ?_)
    (fun session running hsession ↦ ?_) fun session running running' hsession ↦ ?_
  · cases (hg.drives_none hlocks hm hlock hm' hne).symm.trans hsession
  · cases (hnext _).symm.trans hsession
  · cases (hnext _).symm.trans hsession

theorem Keeps.opens (h : w.Keeps) (session repository : String) :
    (w.execute m lock (DriverRepository.openSession session repository) faults fun
      | .ok _ => .driving session []
      | .error _ => .finished).Keeps := by
  have hkeeps := @keepsOpen_openSession (fun _ ↦ True) (fun _ ↦ True) session repository
    ⟨w.db, faults⟩
  have hopened := fun c' ↦ @openSession_runs session repository ⟨w.db, faults⟩ c' ()
  unfold Query.Runs at hopened
  refine Keeps.execute h (fun m' hm' _ session' running hsession ↦ ?_)
    (fun session' running hsession ↦ ?_)
    fun session' running running' hsession m' hm' _ hsession' ↦ ?_
  all_goals
    generalize (DriverRepository.openSession session repository).run ⟨w.db, faults⟩ = r at *
    obtain ⟨outcome, c⟩ := r
  · exact hkeeps.hasRows trivial (fun _ _ ↦ trivial) (h.rows m' hm' session' running hsession)
  · rcases outcome with e | u
    · cases hsession
    cases hsession
    exact ⟨(hopened c rfl).1, nofun⟩
  · rcases outcome with e | u
    · cases hsession
    cases hsession
    exact (hopened c rfl).2 (h.rows m' hm' session running' hsession').1

theorem Keeps.calls {session : String} {call : SessionCall} (h : w.Keeps) (hm : m ∈ w.drivers)
    (hsession : m.stage.session? = some (session, running)) (hof : call.ofSession session = true) :
    (w.execute m lock call.query faults fun answer ↦
      .driving session (call.running running answer)).Keeps := by
  refine Keeps.execute h (fun m' hm' hne session' running' hsession' ↦ ?_)
    (fun session' running' hsession' ↦ ?_)
    fun session' running₁ running₂ hsession' m' hm' hne hsession₂ ↦ ?_
  · have hkeeps := @keepsOpen_call (fun _ ↦ True) (fun key ↦ key.sessionId ≠ session) session call
      hof (fun key outcome reason hcall hkey ↦ hkey (by subst hcall; exact of_decide_eq_true hof))
      ⟨w.db, faults⟩
    refine hkeeps.hasRows trivial (fun n _ (hsame : session' = session) ↦ hne ?_)
      (h.rows m' hm' session' running' hsession')
    subst hsame
    exact h.apart m' hm' m hm session' running' running hsession' hsession
  · cases hsession'
    exact hasRows_call hof (h.rows m hm session running hsession)
  · cases hsession'
    exact hne (h.apart m' hm' m hm session running₂ running hsession₂ hsession)

theorem Keeps.finishes {session reason : String} (h : w.Keeps) (hm : m ∈ w.drivers)
    (hsession : m.stage.session? = some (session, running)) :
    (w.execute m lock (DriverRepository.finishSession session reason) faults fun _ ↦
      .finished).Keeps := by
  refine Keeps.execute h (fun m' hm' hne session' running' hsession' ↦ ?_) nofun nofun
  have hkeeps := @keepsOpen_finishSession (fun s ↦ s ≠ session) (fun _ ↦ True) session reason
    (fun hne ↦ hne rfl) ⟨w.db, faults⟩
  refine hkeeps.hasRows (fun hsame ↦ hne ?_) (fun _ _ ↦ trivial)
    (h.rows m' hm' session' running' hsession')
  subst hsame
  exact h.apart m' hm' m hm session' running' running hsession' hsession

end Execute

theorem move_keeps {step : DriverStep} (hg : w.Guarded) (h : w.Keeps) (hm : m ∈ w.drivers)
    (hprocess : m.process = step.process) (hclean : w.CleanStep step) :
    (w.move m step).Guarded ∧ (w.move m step).Keeps := by
  have hleaves : (w.remove m.process).Guarded ∧ (w.remove m.process).Keeps :=
    ⟨hg.remove rfl fun m' hm' _ ↦ hg.inPlace m' hm', h.remove rfl rfl⟩
  fun_cases w.move m step with
  | case1 _ _ plan hlook => exact ⟨hg.look hm hlook, h.idle rfl rfl rfl⟩
  | case4 _ _ plan hstage files lock htake =>
    subst hprocess
    exact ⟨hg.take hm (by rw [hstage]; rfl) hclean htake, h.idle rfl rfl rfl⟩
  | case7 _ _ lock hstage | case9 _ _ lock hstage =>
    subst hprocess
    have hlock : m.stage.lock? = some lock := by rw [hstage]; rfl
    refine ⟨hg.execute hm hlock _ _ _, h.recover hg hclean hm hlock fun answer ↦ ?_⟩
    cases answer with
    | ok n => rfl
    | error e => rfl
  | case11 _ session repository _ _ hstage =>
    exact ⟨hg.execute hm (by rw [hstage]; rfl) _ _ _, h.opens session repository⟩
  | case13 _ _ _ _ _ _ hstage hof =>
    exact ⟨hg.execute hm (by rw [hstage]; rfl) _ _ _, h.calls hm (by rw [hstage]; rfl) hof⟩
  | case16 _ _ _ _ _ _ hstage =>
    exact ⟨hg.execute hm (by rw [hstage]; rfl) _ _ _, h.finishes hm (by rw [hstage]; rfl)⟩
  | case18 _ _ _ hstage => exact ⟨hg.leave hm (by rw [hstage]; rfl), h.remove rfl rfl⟩
  | case2 | case5 | case19 | case20 => exact hleaves
  | _ => exact ⟨hg, h⟩

theorem step_keeps (hg : w.Guarded) (h : w.Keeps) (step : DriverStep) (hclean : w.CleanStep step) :
    (w.step step).Guarded ∧ (w.step step).Keeps := by
  cases step with
  | spawn p delegatedBy runtimeDir => exact ⟨hg.spawn _ _ _, h.spawn _ _ _⟩
  | _ =>
    unfold SharedStore.step
    dsimp only
    split
    · rename_i m hdriver
      obtain ⟨hm, hprocess⟩ := mem_of_driver hdriver
      exact move_keeps hg h hm hprocess hclean
    · exact ⟨hg, h⟩

theorem run_keeps {steps : List DriverStep} (hg : w.Guarded) (h : w.Keeps) (hclean : w.Clean steps) :
    (w.run steps).Guarded ∧ (w.run steps).Keeps := by
  induction steps generalizing w with
  | nil => exact ⟨hg, h⟩
  | cons step steps ih =>
    obtain ⟨hg', h'⟩ := step_keeps hg h step hclean.1
    exact ih hg' h' hclean.2

def startDriving (p : Process) (runtimeDir session repository prd : String) : List DriverStep :=
  [.spawn p none runtimeDir, .look p, .take p session, .recoverAttempts p [], .recoverSessions p [],
    .openSession p session repository [], .call p (.recordAttemptStarted session prd "t1") []]

def killedWorker : List DriverStep :=
  startDriving ⟨"host-a", 7, some "boot-7"⟩ "/run" "session-1" "repo-alpha" "prd-1" ++
    .crash ⟨"host-a", 7, some "boot-7"⟩ ::
      startDriving ⟨"host-a", 9, some "boot-9"⟩ "/run" "session-2" "repo-alpha" "prd-1"

def twoHosts : List DriverStep :=
  startDriving ⟨"host-a", 7, some "boot-7"⟩ "/run" "session-1" "repo-alpha" "prd-1" ++
    startDriving ⟨"host-b", 7, some "boot-7"⟩ "/run" "session-2" "repo-beta" "prd-2"

/-- An owner that is killed, and a new one beside the delegate of the old one. -/
def orphanedDelegate : List DriverStep :=
  [.spawn ⟨"host-a", 5, some "boot-5"⟩ none "/run", .look ⟨"host-a", 5, some "boot-5"⟩,
    .take ⟨"host-a", 5, some "boot-5"⟩ "daemon", .spawn ⟨"host-a", 7, some "boot-7"⟩ (some 5) "/run",
    .look ⟨"host-a", 7, some "boot-7"⟩, .take ⟨"host-a", 7, some "boot-7"⟩ "",
    .recoverAttempts ⟨"host-a", 7, some "boot-7"⟩ [], .recoverSessions ⟨"host-a", 7, some "boot-7"⟩ [],
    .openSession ⟨"host-a", 7, some "boot-7"⟩ "session-1" "repo-alpha" [],
    .call ⟨"host-a", 7, some "boot-7"⟩ (.recordAttemptStarted "session-1" "prd-1" "t1") [],
    .crash ⟨"host-a", 5, some "boot-5"⟩] ++
    startDriving ⟨"host-a", 9, some "boot-9"⟩ "/run" "session-2" "repo-alpha" "prd-1"

/-- The first driver is alive and drives its session, and the rows of the session and of its attempt are
closed. -/
def HasLostRows (w : SharedStore) : Prop :=
  (∃ m ∈ w.drivers, m.process = ⟨"host-a", 7, some "boot-7"⟩ ∧
    m.stage.session? = some ("session-1", [1])) ∧
    ¬w.db.SessionOpen "session-1" ∧ ¬w.db.AttemptOpen ⟨"session-1", 1⟩

instance : DecidablePred HasLostRows := fun w ↦ by
  unfold HasLostRows
  infer_instance

end SharedStore

end FamiliarAi
