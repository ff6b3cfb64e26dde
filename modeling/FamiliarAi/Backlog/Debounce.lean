import FamiliarAi.Transition.System

/-!
# The debouncer of backlog reconciliations

Watcher events schedule reconciliations of a repository. A task is spawned for the first of a burst;
it sleeps, reconciles the worktree it was spawned for, and goes round again when it was asked to.
Three flags for each repository say whether a task sleeps, whether one runs, and whether it is asked
to rerun. They are read and written under a lock, and each locked section is one step here, whatever
the order of the requests and the tasks.

A task that is about to rerun has cleared `running` and has not set it again. A request that comes
in between finds all flags clear and spawns a second task, and the two may then reconcile at once
(`debounce_overlaps`). A request that names another worktree of the repository than the task at work
is taken for a request of that task's worktree. Without requests of these two kinds the repository
has one task at most, and it serves every request (`debounce_singleFlight`).
-/

namespace FamiliarAi

open Transition List

variable {i : ℕ}

structure RepoDebounce where
  /-- A debounce timer is pending. -/
  scheduled : Bool := false
  running : Bool := false
  /-- An event arrived while running. -/
  rerun : Bool := false
deriving DecidableEq

/-- Where a spawned task stands. -/
inductive FireStage
  /-- The debounce timer has not elapsed. -/
  | sleeping
  | claimed
  | reconciling
  /-- The reconciliation returned, failed or panicked; the flags still say that it runs. -/
  | reconciled
  /-- The second section was left with a rerun taken. -/
  | rerunning
deriving DecidableEq

/-- A task that `schedule` spawned. -/
structure FireTask where
  key : String
  worktree : String
  stage : FireStage
deriving DecidableEq

/-- What happened, for the statement of what is owed to a request. -/
inductive DebounceNote
  | requested (key worktree : String)
  | started (key worktree : String)
deriving DecidableEq

/-- The flags by repository, the tasks that were spawned, and what happened, the last first. -/
structure Debouncer where
  debounceState : String → RepoDebounce := fun _ ↦ {}
  tasks : List FireTask := []
  notes : List DebounceNote := []

/-- One locked section, or the beginning or end of a reconciliation. -/
inductive DebounceEvent
  /-- `schedule` of a worktree, with the key of the repository it resolves to, if it does. -/
  | schedule (worktree : String) (identity : Option String)
  /-- The next move of the task at this position. -/
  | advance (task : ℕ)

namespace Debouncer

def setFlags (D : Debouncer) (key : String) (state : RepoDebounce) : Debouncer :=
  { D with debounceState := Function.update D.debounceState key state }

/-- `BacklogReconciler::schedule`. -/
def schedule (D : Debouncer) (worktree : String) : Option String → Debouncer
  | none => D
  | some key =>
    let D := { D with notes := .requested key worktree :: D.notes }
    let state := D.debounceState key
    if state.running then D.setFlags key { state with rerun := true }
    else if state.scheduled then D
    else
      { D.setFlags key { state with scheduled := true } with
        tasks := D.tasks ++ [⟨key, worktree, .sleeping⟩] }

/-- The task at position `i` goes on to a stage. -/
def setStage (D : Debouncer) (i : ℕ) (task : FireTask) (stage : FireStage) : Debouncer :=
  { D with tasks := D.tasks.set i { task with stage := stage } }

/-- One move of `BacklogReconciler::fire`, the timer before it included. -/
def fire (D : Debouncer) (i : ℕ) (task : FireTask) : Debouncer :=
  let state := D.debounceState task.key
  match task.stage with
  | .sleeping | .rerunning =>
    (D.setStage i task .claimed).setFlags task.key { state with scheduled := false, running := true }
  | .claimed =>
    { D.setStage i task .reconciling with
      notes := .started task.key task.worktree :: D.notes }
  | .reconciling => D.setStage i task .reconciled
  | .reconciled =>
    let D := D.setFlags task.key { state with running := false, rerun := false }
    if state.rerun then D.setStage i task .rerunning
    else { D with tasks := D.tasks.eraseIdx i }

def step (D : Debouncer) : DebounceEvent → Option Debouncer
  | .schedule worktree identity => some (D.schedule worktree identity)
  | .advance i => D.tasks[i]?.map (D.fire i)

def tasksOf (D : Debouncer) (key : String) : List FireTask :=
  D.tasks.filter (·.key = key)

/-- How many reconciliations of the repository are running. -/
def runningOf (D : Debouncer) (key : String) : ℕ :=
  (D.tasksOf key).countP (·.stage = .reconciling)

/-- How many further ones wait: for a timer, for a task to go round, or for the running one to end.
-/
def waitingOf (D : Debouncer) (key : String) : ℕ :=
  (D.tasksOf key).countP (fun t ↦ t.stage = .sleeping ∨ t.stage = .rerunning) +
    if (D.debounceState key).rerun then 1 else 0

/-- Every request was followed by the start of a reconciliation of the worktree it named. -/
def AllServed (D : Debouncer) (key : String) : Prop :=
  ∀ later earlier worktree, D.notes = later ++ .requested key worktree :: earlier →
    .started key worktree ∈ later

end Debouncer

def debouncing : System Debouncer DebounceEvent where
  start D := D = {}
  step := Debouncer.step

/-- What the debouncer is for, of one repository: one reconciliation runs, one waits, and when
nothing is left to do every request was served. -/
structure SingleFlight (D : Debouncer) (key : String) : Prop where
  running : D.runningOf key ≤ 1
  waiting : D.waitingOf key ≤ 1
  served : D.tasksOf key = [] → D.AllServed key

/-- A request that does not come between the two sections of a task that reruns, nor names another
worktree than the task of its repository. -/
def Undisturbed (D : Debouncer) : DebounceEvent → Prop
  | .schedule worktree (some key) =>
    ∀ t ∈ D.tasksOf key, t.stage ≠ .rerunning ∧ t.worktree = worktree
  | _ => True

instance (D : Debouncer) (e : DebounceEvent) : Decidable (Undisturbed D e) :=
  match e with
  | .schedule worktree (some key) =>
    inferInstanceAs (Decidable (∀ t ∈ D.tasksOf key, t.stage ≠ .rerunning ∧ t.worktree = worktree))
  | .schedule _ none | .advance _ => inferInstanceAs (Decidable True)

def Owed (key worktree : String) : List DebounceNote → Prop
  | [] => False
  | .requested k w :: notes => (k = key ∧ w = worktree) ∨ Owed key worktree notes
  | .started k w :: notes => ¬(k = key ∧ w = worktree) ∧ Owed key worktree notes

theorem Owed.of_append {key worktree : String} {later earlier : List DebounceNote}
    (hlater : .started key worktree ∉ later) :
    Owed key worktree (later ++ .requested key worktree :: earlier) := by
  induction later with
  | nil => exact .inl ⟨rfl, rfl⟩
  | cons note later ih =>
    have hrest := ih fun h ↦ hlater (mem_cons_of_mem _ h)
    cases note with
    | requested k w => exact .inr hrest
    | started k w =>
      refine ⟨?_, hrest⟩
      rintro ⟨rfl, rfl⟩
      exact hlater mem_cons_self

variable {D D' : Debouncer} {key worktree : String}

theorem Debouncer.allServed_of_not_owed (h : ∀ worktree, ¬Owed key worktree D.notes) :
    D.AllServed key := by
  intro later earlier worktree hnotes
  by_contra hlater
  refine h worktree ?_
  rw [hnotes]
  exact .of_append hlater

/-- What the flags say while the only task stands at a stage. -/
def FlagsAgree (state : RepoDebounce) : FireStage → Prop
  | .sleeping => state = { scheduled := true }
  | .claimed | .reconciling | .reconciled => state.scheduled = false ∧ state.running = true
  | .rerunning => state = {}

/-- A request that is owed is one for the worktree of the task, which will reconcile it yet. -/
def Serves (D : Debouncer) (task : FireTask) : Prop :=
  ∀ worktree, Owed task.key worktree D.notes → worktree = task.worktree ∧
    (task.stage = .sleeping ∨ task.stage = .rerunning ∨ task.stage = .claimed ∨
      (D.debounceState task.key).rerun = true)

/-- A repository has no task, clear flags and no debt, or it has one task that its flags describe
and that serves what is owed. -/
inductive OneTask (D : Debouncer) (key : String) : Prop
  | idle (htasks : D.tasksOf key = []) (hflags : D.debounceState key = {})
      (howed : ∀ worktree, ¬Owed key worktree D.notes)
  | busy (task : FireTask) (htasks : D.tasksOf key = [task])
      (hflags : FlagsAgree (D.debounceState key) task.stage) (hserves : Serves D task)

variable {task : FireTask}

theorem key_of_tasksOf (h : D.tasksOf key = [task]) : task.key = key := by
  have hmem : task ∈ D.tasksOf key := by simp [h]
  simpa using (mem_filter.1 hmem).2

theorem OneTask.singleFlight (h : OneTask D key) : SingleFlight D key := by
  cases h with
  | idle htasks hflags howed =>
    refine ⟨?_, ?_, fun _ ↦ D.allServed_of_not_owed howed⟩
    · simp [Debouncer.runningOf, htasks]
    · simp [Debouncer.waitingOf, htasks, hflags]
  | busy task htasks hflags hserves =>
    refine ⟨?_, ?_, fun hnil ↦ by simp [hnil] at htasks⟩
    · show (D.tasksOf key).countP _ ≤ 1
      rw [htasks]
      exact countP_le_length
    · cases hstage : task.stage with
      | sleeping =>
        have hstate : D.debounceState key = { scheduled := true } := by rwa [hstage] at hflags
        simp [Debouncer.waitingOf, htasks, hstage, hstate]
      | rerunning =>
        have hstate : D.debounceState key = {} := by rwa [hstage] at hflags
        simp [Debouncer.waitingOf, htasks, hstage, hstate]
      | claimed | reconciling | reconciled =>
        -- it does not wait itself, and it can be asked to rerun once
        have hnone : (D.tasksOf key).countP
            (fun t ↦ t.stage = .sleeping ∨ t.stage = .rerunning) = 0 := by
          simp [htasks, hstage]
        rw [Debouncer.waitingOf, hnone]
        split <;> omega

/-! ### What a step leaves -/

theorem split_at {α : Type} {l : List α} {a : α} (h : l[i]? = some a) :
    ∃ l₁ l₂, l = l₁ ++ a :: l₂ ∧ (∀ b, l.set i b = l₁ ++ b :: l₂) ∧ l.eraseIdx i = l₁ ++ l₂ := by
  induction l generalizing i with
  | nil => cases h
  | cons c l ih =>
    rcases i with _ | i
    · obtain rfl := Option.some.inj h
      exact ⟨[], l, rfl, fun _ ↦ rfl, rfl⟩
    obtain ⟨l₁, l₂, hl, hset, herase⟩ := ih h
    exact ⟨c :: l₁, l₂, by rw [hl]; rfl, fun b ↦ by rw [set_cons_succ, hset]; rfl,
      by rw [eraseIdx_cons_succ, herase]; rfl⟩

/-- A repository that a step does not touch stays as it was. -/
theorem OneTask.of_same (h : OneTask D key) (htasks : D'.tasksOf key = D.tasksOf key)
    (hflags : D'.debounceState key = D.debounceState key)
    (howed : ∀ worktree, Owed key worktree D'.notes → Owed key worktree D.notes) :
    OneTask D' key := by
  cases h with
  | idle hnone hclear hnot =>
    exact .idle (htasks.trans hnone) (hflags.trans hclear) fun w hw ↦ hnot w (howed w hw)
  | busy task hone hagree hserves =>
    obtain rfl := key_of_tasksOf hone
    refine .busy task (htasks.trans hone) (hflags ▸ hagree) fun w hw ↦ ?_
    rw [hflags]
    exact hserves w (howed w hw)

section Filter

variable {α : Type} {l : List α} {i : ℕ} {a : α} {p : α → Bool}

theorem filter_move_of_not (hi : l[i]? = some a) (ha : p a = false) :
    (∀ b, p b = false → (l.set i b).filter p = l.filter p) ∧
      (l.eraseIdx i).filter p = l.filter p := by
  obtain ⟨l₁, l₂, rfl, hset, herase⟩ := split_at hi
  refine ⟨fun b hb ↦ ?_, ?_⟩
  · rw [hset]
    simp [ha, hb]
  · rw [herase]
    simp [ha]

theorem filter_move_of_only {t : α} (hi : l[i]? = some a) (ha : p a = true)
    (hone : l.filter p = [t]) :
    t = a ∧ (∀ b, p b = true → (l.set i b).filter p = [b]) ∧ (l.eraseIdx i).filter p = [] := by
  obtain ⟨l₁, l₂, rfl, hset, herase⟩ := split_at hi
  rw [filter_append, filter_cons_of_pos ha] at hone
  rcases h₁ : l₁.filter p with _ | ⟨b, l₁'⟩
  · rw [h₁, nil_append, List.cons.injEq] at hone
    obtain ⟨rfl, h₂⟩ := hone
    refine ⟨rfl, fun b hb ↦ ?_, ?_⟩
    · rw [hset, filter_append, filter_cons_of_pos hb, h₁, h₂, nil_append]
    · rw [herase, filter_append, h₁, h₂, nil_append]
  rw [h₁] at hone
  simp at hone

end Filter

theorem OneTask.fire_other (h : OneTask D key) (hi : D.tasks[i]? = some task)
    (hkey : task.key ≠ key) : OneTask (D.fire i task) key := by
  have hmove := filter_move_of_not (p := fun t : FireTask ↦ decide (t.key = key)) hi (by simpa)
  have hset : ∀ stage, (D.tasks.set i { task with stage := stage }).filter (·.key = key) =
      D.tasks.filter (·.key = key) := fun stage ↦ hmove.1 _ (by simpa)
  have hflags : ∀ state, Function.update D.debounceState task.key state key =
      D.debounceState key := fun state ↦ by simp [Function.update_of_ne (Ne.symm hkey)]
  unfold Debouncer.fire
  cases task.stage with
  | sleeping | rerunning => exact h.of_same (hset _) (hflags _) fun _ hw ↦ hw
  | claimed => exact h.of_same (hset _) rfl fun _ hw ↦ hw.2
  | reconciling => exact h.of_same (hset _) rfl fun _ hw ↦ hw
  | reconciled =>
    simp only
    split
    · exact h.of_same (hset _) (hflags _) fun _ hw ↦ hw
    · exact h.of_same hmove.2 (hflags _) fun _ hw ↦ hw

theorem OneTask.fire_own (h : OneTask D task.key) (hi : D.tasks[i]? = some task) :
    OneTask (D.fire i task) task.key := by
  have hmem : task ∈ D.tasksOf task.key :=
    mem_filter.2 ⟨mem_of_getElem? hi, by simp⟩
  cases h with
  | idle htasks _ _ => simp [htasks] at hmem
  | busy t htasks hagree hserves =>
    obtain ⟨rfl, hset, herase⟩ := filter_move_of_only hi (by simp) htasks
    have hone : ∀ stage, (D.tasks.set i { t with stage := stage }).filter (·.key = t.key) =
        [{ t with stage := stage }] := fun stage ↦ hset _ (by simp)
    unfold Debouncer.fire
    cases hstage : t.stage with
    | sleeping | rerunning =>
      -- the timer elapses, or the task goes round: the flags are taken before anything is read
      refine .busy { t with stage := .claimed } (hone _) ?_ fun w hw ↦ ?_
      · show (Function.update D.debounceState t.key _ t.key).scheduled = false ∧
          (Function.update D.debounceState t.key _ t.key).running = true
        rw [Function.update_self]
        exact ⟨rfl, rfl⟩
      · exact ⟨(hserves w hw).1, .inr (.inr (.inl rfl))⟩
    | claimed =>
      refine .busy { t with stage := .reconciling } (hone _) ?_ fun w hw ↦ ?_
      · rwa [hstage] at hagree
      · -- what was owed is what this reconciliation serves
        exact absurd ⟨rfl, (hserves w hw.2).1.symm⟩ hw.1
    | reconciling =>
      refine .busy { t with stage := .reconciled } (hone _) ?_ fun w hw ↦ ?_
      · rwa [hstage] at hagree
      · obtain ⟨hw, hcoming⟩ := hserves w hw
        simp only [hstage, reduceCtorEq, false_or] at hcoming
        exact ⟨hw, .inr (.inr (.inr hcoming))⟩
    | reconciled =>
      have hrerun : ∀ w, Owed t.key w D.notes →
          w = t.worktree ∧ (D.debounceState t.key).rerun = true := by
        intro w hw
        simpa [hstage] using hserves w hw
      have hclear : { D.debounceState t.key with running := false, rerun := false } =
          ({} : RepoDebounce) := by
        rw [hstage] at hagree
        simp [hagree.1]
      simp only
      split
      · refine .busy { t with stage := .rerunning } (hone _) ?_ fun w hw ↦ ?_
        · show Function.update D.debounceState t.key _ t.key = {}
          rw [Function.update_self, hclear]
        · exact ⟨(hrerun w hw).1, .inr (.inl rfl)⟩
      · rename_i hnot
        refine .idle herase ?_ fun w hw ↦ hnot (hrerun w hw).2
        show Function.update D.debounceState t.key _ t.key = {}
        rw [Function.update_self, hclear]

theorem OneTask.schedule {k : String} (h : OneTask D key)
    (hcond : ∀ t ∈ D.tasksOf k, t.stage ≠ .rerunning ∧ t.worktree = worktree) :
    OneTask (D.schedule worktree (some k)) key := by
  by_cases hk : k = key
  · subst hk
    cases h with
    | idle htasks hflags howed =>
      -- the first request: a task is spawned for it
      have hspawn : D.schedule worktree (some k) =
          { ({ D with notes := .requested k worktree :: D.notes } : Debouncer).setFlags k
              { scheduled := true } with tasks := D.tasks ++ [⟨k, worktree, .sleeping⟩] } := by
        simp [Debouncer.schedule, hflags]
      rw [hspawn]
      refine .busy ⟨k, worktree, .sleeping⟩ ?_ ?_ fun w hw ↦ ?_
      · show (D.tasks ++ [_]).filter _ = _
        rw [filter_append, show D.tasks.filter (·.key = k) = [] from htasks]
        simp
      · exact Function.update_self ..
      · rcases hw with ⟨-, rfl⟩ | hw
        · exact ⟨rfl, .inl rfl⟩
        · exact absurd hw (howed w)
    | busy task htasks hagree hserves =>
      obtain rfl := key_of_tasksOf htasks
      obtain ⟨hstage, rfl⟩ := hcond task (by simp [htasks])
      unfold Debouncer.schedule
      simp only
      split
      · -- a reconciliation is running: it will run once more
        refine .busy task htasks ?_ fun w hw ↦ ⟨?_, .inr (.inr (.inr ?_))⟩
        · rename_i hrunning
          cases hs : task.stage with
          | sleeping => simp_all [FlagsAgree]
          | rerunning => exact absurd hs hstage
          | claimed | reconciling | reconciled =>
            rw [hs] at hagree
            show (Function.update D.debounceState task.key _ task.key).scheduled = false ∧
              (Function.update D.debounceState task.key _ task.key).running = true
            rw [Function.update_self]
            exact hagree
        · rcases hw with ⟨-, rfl⟩ | hw
          · rfl
          · exact (hserves w hw).1
        · show (Function.update D.debounceState task.key _ task.key).rerun = true
          rw [Function.update_self]
      · rename_i hrunning
        -- nothing runs, so the task sleeps and the request changes no flag
        have hsleeping : task.stage = .sleeping := by
          cases hs : task.stage with
          | sleeping => rfl
          | rerunning => exact absurd hs hstage
          | claimed | reconciling | reconciled => simp_all [FlagsAgree]
        have hscheduled : (D.debounceState task.key).scheduled = true := by
          rw [hsleeping] at hagree
          rw [show D.debounceState task.key = { scheduled := true } from hagree]
        rw [if_pos hscheduled]
        refine .busy task htasks hagree fun w hw ↦ ⟨?_, .inl hsleeping⟩
        rcases hw with ⟨-, rfl⟩ | hw
        · rfl
        · exact (hserves w hw).1
  · -- a request for another repository
    have hne : ¬(k = key) := hk
    have hflags : ∀ state, Function.update D.debounceState k state key = D.debounceState key :=
      fun state ↦ by simp [Function.update_of_ne (Ne.symm hne)]
    have howed : ∀ w, Owed key w (.requested k worktree :: D.notes) → Owed key w D.notes := by
      rintro w (⟨hkey, -⟩ | hw)
      · exact absurd hkey hne
      · exact hw
    unfold Debouncer.schedule
    simp only
    split
    · exact h.of_same rfl (hflags _) howed
    · split
      · exact h.of_same rfl rfl howed
      · refine h.of_same ?_ (hflags _) howed
        show (D.tasks ++ [_]).filter _ = _
        rw [filter_append]
        simp [hne, Debouncer.tasksOf]

theorem OneTask.step {e : DebounceEvent} (h : ∀ key, OneTask D key) (hcond : Undisturbed D e)
    (hstep : D.step e = some D') : ∀ key, OneTask D' key := by
  intro key
  cases e with
  | schedule worktree identity =>
    obtain rfl := Option.some.inj hstep
    cases identity with
    | none => exact h key
    | some k => exact (h key).schedule hcond
  | advance i =>
    obtain ⟨task, hi, rfl⟩ := Option.map_eq_some_iff.1 hstep
    by_cases hkey : task.key = key
    · subst hkey
      exact (h _).fire_own hi
    · exact (h key).fire_other hi hkey

/-- **The debouncer of a repository.** In every run without a request that disturbs a task, each
repository has at most one debounced reconciliation running and one waiting, and when it has no task
left, every request was followed by a reconciliation of its worktree. -/
theorem debounce_singleFlight (D : Debouncer) (h : debouncing.Reaches Undisturbed D) (key : String) :
    SingleFlight D key := by
  refine OneTask.singleFlight (h.invariant (I := fun D ↦ ∀ key, OneTask D key) ?_ ?_ key)
  · rintro D rfl key
    exact .idle rfl rfl fun _ hw ↦ hw
  · exact fun D e D' hD hcond hstep ↦ OneTask.step hD hcond hstep

/-- A burst of three requests, the last of them while the reconciliation runs. -/
def burst : List DebounceEvent :=
  [.schedule "/checkout" (some "repo"), .schedule "/checkout" (some "repo"), .advance 0, .advance 0,
    .schedule "/checkout" (some "repo"), .advance 0, .advance 0]

theorem burst_runs : (debouncing.run Undisturbed {} burst).isSome := by
  decide

theorem debounce_singleFlight_burst :
    SingleFlight ((debouncing.run Undisturbed {} burst).get burst_runs) "repo" :=
  debounce_singleFlight _ (System.reaches_get rfl burst_runs) "repo"

/-- The task of a burst goes round again. A request comes before it has set `running`, and spawns a
second task; both reconcile. -/
def overlap : List DebounceEvent :=
  burst ++ [.schedule "/checkout" (some "repo"), .advance 0, .advance 0, .advance 1, .advance 1]

theorem overlap_runs : (debouncing.run (fun _ _ ↦ True) {} overlap).isSome := by
  decide

/-- A request between the two sections of a task that reruns is not held back. -/
theorem debounce_overlaps : ¬∀ D, debouncing.Reachable D → ∀ key, SingleFlight D key := by
  intro h
  have htwo : ((debouncing.run (fun _ _ ↦ True) {} overlap).get overlap_runs).runningOf "repo" = 2 := by
    decide
  have hone := (h _ (System.reaches_get rfl overlap_runs) "repo").running
  omega

end FamiliarAi
