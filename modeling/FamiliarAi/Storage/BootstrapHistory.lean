import FamiliarAi.Storage.BootstrapRuns

/-!
# Bootstraps over the history of a backlog

Applications and rollbacks run in any order here, next to every other operation of the backlog
store, with engine faults at any statement. Three facts survive all of that
(`BootstrapStore.Sound`): a repository has one applied run at most, every item of a run has the
event of its completion, and every item of a run that was rolled back has the event of its return.

From these, what an application finds when it repeats a run is told by two numbers alone. The PRD
has two events, so they are these two, and nothing has happened to it since the rollback. A rollback
leaves no PRD begun that depends on what it returns to pending, except for the PRDs of the run
itself (`bootstrap_contract`).
-/

namespace FamiliarAi

open Relational BootstrapStore List

/-- A call of the bootstrap, with the ids and the time that are drawn for it. -/
inductive BootstrapCall
  | apply (repository : RepositoryIdentity) (discovered : List DiscoveredPrd)
      (manifest : Option BootstrapManifest) (runId now : String)
  | rollback (repository : RepositoryIdentity) (discovered : List DiscoveredPrd)
      (target actor reason rollbackId : String)

inductive BootstrapAnswer
  | apply (result : BootstrapApplyResult)
  | rollback (result : BootstrapRollbackResult)

def BootstrapCall.query : BootstrapCall → BootstrapQuery BootstrapAnswer
  | .apply repository discovered manifest runId now => do
    pure (.apply (← applyBootstrap repository discovered manifest runId now))
  | .rollback repository discovered target actor reason rollbackId => do
    pure (.rollback (← rollbackBootstrap repository discovered target actor reason rollbackId))

/-- A call of the bootstrap with the engine faults that it meets, or a step of the backlog. -/
inductive BootstrapStep
  | call (call : BootstrapCall) (faults : List (Option BootstrapError))
  | backlog (step : BacklogStep)
  | transition (repository : RepositoryIdentity) (path : RepositoryPath)
      (expected next : BacklogStatus) (actor : String) (faults : List (Option BacklogStoreError))

section Runs

variable (sha256 : Sha256) (parseRequest : List Char → Except String ReviewRequest)

def BootstrapStore.step (s : BootstrapStore) : BootstrapStep → BootstrapStore
  | .call call faults => (call.query.run ⟨s, faults⟩).2.store
  | .backlog step => { s with database := s.database.step sha256 parseRequest step }
  | .transition repository path expected next actor faults => { s with
      database := ((FamiliarAi.transition repository path expected next actor).run
        ⟨s.database, faults⟩).2.store }

def BootstrapStore.run (s : BootstrapStore) (steps : List BootstrapStep) : BootstrapStore :=
  steps.foldl (BootstrapStore.step sha256 parseRequest) s

end Runs

section Calls

variable {c c' : Connection BootstrapStore BootstrapError} {repository : RepositoryIdentity}
  {discovered : List DiscoveredPrd} {manifest : Option BootstrapManifest}
  {runId now target actor reason rollbackId : String}

theorem applyBootstrap_atomic :
    (applyBootstrap repository discovered manifest runId now).Atomic := by
  refine .bind readOnly_validateAllRuns fun _ ↦ ?_
  cases manifest with
  | none => exact Query.ReadOnly.pure.atomic
  | some manifest => exact .transactionWith

theorem rollbackBootstrap_atomic :
    (rollbackBootstrap repository discovered target actor reason rollbackId).Atomic :=
  .bind .ensure fun _ ↦
    .bind readOnly_validateAllRuns fun _ ↦ .transaction

theorem BootstrapCall.query_atomic (call : BootstrapCall) : call.query.Atomic := by
  cases call with
  | apply repository discovered manifest runId now => exact applyBootstrap_atomic.bind_pure
  | rollback repository discovered target actor reason rollbackId =>
    exact rollbackBootstrap_atomic.bind_pure

theorem applyManifest_runs {m : BootstrapManifest} {verdict : Verdict BootstrapApplyResult}
    (h : (applyManifest repository discovered m runId now).Runs c verdict c') :
    verdict = .rollback .alreadyApplied ∨ ∃ applied, verdict = .commit (.applied applied) ∧
      Completes repository discovered m applied c.store c'.store := by
  obtain ⟨c₁, hstore, h⟩ := h.of_read_bind
  split at h
  · obtain ⟨_, _, -, hpure⟩ := h.of_bind
    exact .inl (Query.runs_pure.1 hpure).1.symm
  · rename_i hnone
    obtain ⟨applied, rfl, hfresh⟩ := h.of_bind_pure
    refine .inr ⟨applied, rfl, ?_⟩
    rw [← hstore]
    refine applyFresh_runs hfresh (by rw [hstore]) fun run hrun hstatus ↦ ?_
    exact find?_eq_none.1 hnone run hrun (decide_eq_true hstatus)

/-- What an application answers, it has done. -/
theorem applyBootstrap_runs {result : BootstrapApplyResult}
    (h : (applyBootstrap repository discovered manifest runId now).Runs c result c') :
    match result with
    | .absent | .alreadyApplied => c'.store = c.store
    | .applied applied => ∃ m ∈ manifest,
      Completes repository discovered m applied c.store c'.store := by
  obtain ⟨_, c₁, hvalid, h⟩ := h.of_bind
  have hstore₁ := readOnly_validateAllRuns.store_eq hvalid
  rcases manifest with _ | m
  · obtain ⟨rfl, rfl⟩ := h.of_pure
    exact hstore₁
  rcases h.of_transactionWith with ⟨c₂, c₃, hc₂, hrun, hc'⟩ | ⟨c₂, c₃, hc₂, hrun, hc'⟩
  · rcases applyManifest_runs hrun with hverdict | ⟨applied, hverdict, hcompletes⟩
    · cases hverdict
    · cases hverdict
      refine ⟨m, rfl, ?_⟩
      rw [hc', ← hstore₁, ← hc₂]
      exact hcompletes
  · rcases applyManifest_runs hrun with hverdict | ⟨applied, hverdict, -⟩
    · cases hverdict
      exact hc'.trans hstore₁
    · cases hverdict

end Calls

/-! ### What survives every operation -/

/-- At most one run of a repository is applied. -/
def BootstrapStore.OneApplied (s : BootstrapStore) : Prop :=
  ∀ run ∈ s.runs.rows, ∀ run' ∈ s.runs.rows, run.repositoryKey = run'.repositoryKey →
    run.status = .applied → run'.status = .applied → run = run'

/-- The audit of the bootstrap. -/
structure BootstrapStore.Sound (s : BootstrapStore) : Prop where
  inOrder : s.backlog.InOrder
  oneApplied : s.OneApplied
  itemRun : ∀ item ∈ s.items.rows, ∃ run ∈ s.runs.rows, run.runId = item.runId ∧
    run.repositoryKey = item.key.repositoryKey
  completed : ∀ item ∈ s.items.rows,
    ⟨item.statusEventId, item.key, .pending, .completed, bootstrapActor⟩ ∈
      s.backlog.statusEvents.rows
  restored : ∀ run ∈ s.runs.rows, run.status = .rolledBack → ∀ item ∈ s.items.rows,
    item.runId = run.runId → ∃ restored ∈ s.rollbackItems.rows,
      run.rollbackRunId = some restored.rollbackRunId ∧ restored.path = item.key.path ∧
      item.statusEventId < restored.statusEventId ∧ ∃ actor,
        ⟨restored.statusEventId, item.key, .completed, .pending, actor⟩ ∈
          s.backlog.statusEvents.rows

namespace BootstrapStore

variable {s s' : BootstrapStore} {repository : RepositoryIdentity}
  {discovered : List DiscoveredPrd} {manifest : BootstrapManifest} {applied : BootstrapApplied}
  {target actor : String} {result : BootstrapRollbackResult}

theorem Sound.empty : ({} : BootstrapStore).Sound where
  inOrder := List.Pairwise.nil
  oneApplied _ h := absurd h not_mem_nil
  itemRun _ h := absurd h not_mem_nil
  completed _ h := absurd h not_mem_nil
  restored _ h := absurd h not_mem_nil

theorem run_eq_of_runId {run run' : BootstrapRunRow} (hrun : run ∈ s.runs.rows)
    (hrun' : run' ∈ s.runs.rows) (hid : run.runId = run'.runId) : run = run' :=
  Table.eq_of_clash hrun hrun' (by simp [bootstrapRunSchema, hid])

theorem Sound.grows (h : s.Sound) {database : Database} (hinOrder : database.backlog.InOrder)
    (hsubset : s.backlog.statusEvents.rows ⊆ database.backlog.statusEvents.rows) :
    Sound { s with database } where
  inOrder := hinOrder
  oneApplied := h.oneApplied
  itemRun := h.itemRun
  completed item hitem := hsubset (h.completed item hitem)
  restored run hrun hstatus item hitem hid := by
    obtain ⟨restored, hmem, hrollback, hpath, hlater, actor, hevent⟩ :=
      h.restored run hrun hstatus item hitem hid
    exact ⟨restored, hmem, hrollback, hpath, hlater, actor, hsubset hevent⟩

theorem Sound.backlogStep {sha256 : Sha256}
    {parseRequest : List Char → Except String ReviewRequest} (h : s.Sound) (step : BacklogStep) :
    Sound { s with database := s.database.step sha256 parseRequest step } := by
  cases step with
  | call call faults =>
    have hevolves := @respects_query sha256 parseRequest call ⟨s.database, faults⟩
    obtain ⟨events, hrows, -⟩ := hevolves.appends
    exact h.grows (hevolves.inOrder h.inOrder) (hrows ▸ subset_append_left _ _)
  | elsewhere checkpoints reviews => exact h.grows h.inOrder (Subset.refl _)

theorem Sound.transition (h : s.Sound) (path : RepositoryPath) (expected next : BacklogStatus)
    (actor : String) (faults : List (Option BacklogStoreError)) :
    Sound { s with
      database := ((FamiliarAi.transition repository path expected next actor).run
        ⟨s.database, faults⟩).2.store } := by
  have hatomic : (FamiliarAi.transition repository path expected next actor).Atomic :=
    .bind .ensure fun _ ↦ .transaction
  cases hrun : (FamiliarAi.transition repository path expected next actor).run
      ⟨s.database, faults⟩ with
  | mk answer c' =>
    rcases answer with e | entry
    · have hsame : c'.store = s.database := hatomic _ _ _ hrun
      show Sound { s with database := c'.store }
      rw [hsame]
      exact h
    obtain ⟨-, hrun⟩ := Query.Runs.of_ensure_bind hrun
    obtain ⟨c₁, c₂, hbegin, hrun, hcommit⟩ := hrun.of_transaction
    obtain ⟨row, c₃, hrow, hrun⟩ := hrun.of_bind
    have hstore := (requireRow_runs hrow).2
    obtain ⟨-, hrun⟩ := hrun.of_ensure_bind
    obtain ⟨-, hrun⟩ := hrun.of_ensure_bind
    obtain ⟨_, -, hwhen⟩ := hrun.of_bind_pure
    show Sound { s with database := c'.store }
    rw [hcommit]
    have hfound : c₃.store = s.database := hstore.trans hbegin
    rcases Query.runs_when.1 hwhen with ⟨-, hmove⟩ | ⟨-, rfl⟩
    · obtain ⟨changed, c₅, hset, hmove⟩ := hmove.of_bind
      obtain ⟨-, hmove⟩ := hmove.of_ensure_bind
      obtain ⟨id, -, hrecord⟩ := hmove.of_bind_pure
      obtain ⟨-, -, -, hevents, -⟩ := setStatus_runs hset
      obtain ⟨rfl, -, -, -, hrows⟩ := recordTransition_runs hrecord
      rw [hfound] at hevents
      refine h.grows ?_ ?_
      · show List.Pairwise _ _
        rw [hrows]
        refine pairwise_append.2 ⟨?_, pairwise_singleton _ _, ?_⟩
        · rw [hevents]
          exact h.inOrder
        · intro event hevent new hnew
          rw [mem_singleton.1 hnew]
          exact Backlog.lt_nextEventId hevent
      · rw [hrows, hevents]
        exact subset_append_left _ _
    · rw [hfound]
      exact h

theorem Sound.completes (h : s.Sound)
    (hcompletes : Completes repository discovered manifest applied s s') : s'.Sound := by
  obtain ⟨rows, hlisted, hmoves, hitems⟩ := hcompletes.moves
  obtain ⟨new, hruns, hid, hkey, -, hstatus⟩ := hcompletes.runs
  have hnew : new ∈ s'.runs.rows := hruns ▸ mem_append_right _ mem_cons_self
  have hold : ∀ run ∈ s.runs.rows, run ∈ s'.runs.rows := fun run hrun ↦
    hruns ▸ mem_append_left _ hrun
  -- what is listed of the rows of the new items
  have hrow : ∀ row ∈ rows, row.runId = applied.runId ∧ row.key.repositoryKey = repository.key := by
    intro row hmem
    have hmap : row.listed ∈ rows.map (·.listed) := List.mem_map_of_mem hmem
    rw [hlisted] at hmap
    obtain ⟨item, -, hitem⟩ := List.mem_map.1 hmap
    obtain ⟨hrunId, hrest⟩ := Prod.mk.inj hitem
    exact ⟨hrunId.symm, congrArg PrdKey.repositoryKey (Prod.mk.inj hrest).1.symm⟩
  have hsplit : ∀ run ∈ s'.runs.rows, run ∈ s.runs.rows ∨ run = new := fun run hrun ↦ by
    rw [hruns] at hrun
    exact (mem_append.1 hrun).imp_right mem_singleton.1
  -- the id of the new run is new
  have hfresh : ∀ run ∈ s.runs.rows, run.runId ≠ new.runId := by
    intro run hrun heq
    have hmem := run_eq_of_runId (hold run hrun) hnew heq
    have hnodup := s'.runs.nodup
    rw [hruns] at hnodup
    exact (nodup_append.1 hnodup).2.2 run hrun new mem_cons_self hmem
  exact
    { inOrder := hmoves.inOrder h.inOrder
      oneApplied := fun run hrun run' hrun' hsame happlied happlied' ↦ by
        rcases hsplit run hrun with hrun | rfl <;> rcases hsplit run' hrun' with hrun' | rfl
        · exact h.oneApplied run hrun run' hrun' hsame happlied happlied'
        · exact absurd happlied (hcompletes.fresh run hrun (hsame.trans hkey))
        · exact absurd happlied' (hcompletes.fresh run' hrun' (hsame.symm.trans hkey))
        · rfl
      itemRun := fun item hitem ↦ by
        rw [hitems] at hitem
        rcases mem_append.1 hitem with hitem | hitem
        · obtain ⟨run, hrun, hboth⟩ := h.itemRun item hitem
          exact ⟨run, hold run hrun, hboth⟩
        · obtain ⟨hrunId, hrepository⟩ := hrow item hitem
          exact ⟨new, hnew, hid.trans hrunId.symm, hkey.trans hrepository.symm⟩
      completed := fun item hitem ↦ by
        rw [hitems] at hitem
        rcases mem_append.1 hitem with hitem | hitem
        · exact hmoves.subset_events (h.completed item hitem)
        · exact hmoves.mem_events (List.mem_map_of_mem (f := fun row : BootstrapItemRow ↦
            (row.key, row.statusEventId)) hitem)
      restored := fun run hrun hrolled item hitem hrunId ↦ by
        rcases hsplit run hrun with hrun | rfl
        · rw [hitems] at hitem
          rcases mem_append.1 hitem with hitem | hitem
          · obtain ⟨restored, hmem, hrollback, hpath, hlater, actor, hevent⟩ :=
              h.restored run hrun hrolled item hitem hrunId
            exact ⟨restored, hcompletes.rollbackItems ▸ hmem, hrollback, hpath, hlater, actor,
              hmoves.subset_events hevent⟩
          · refine absurd ?_ (hfresh run hrun)
            rw [← hrunId, hid]
            exact (hrow item hitem).1
        · rw [hstatus] at hrolled
          cases hrolled }

theorem Sound.reverts (h : s.Sound)
    (hreverts : Reverts repository discovered target actor result s s') : s'.Sound := by
  obtain ⟨rows, hlisted, hmoves, hrollbackItems⟩ := hreverts.moves
  obtain ⟨run₀, hrun₀, hid₀, hkey₀, hstatus₀⟩ := hreverts.applied
  -- a run is as it was, unless it is the one that is rolled back
  have hsplit : ∀ run ∈ s'.runs.rows, (run ∈ s.runs.rows ∧ run.runId ≠ target) ∨
      (run.runId = target ∧ run.status = .rolledBack ∧
        run.rollbackRunId = some result.rollbackRunId) := by
    intro run hrun
    rw [hreverts.runs] at hrun
    obtain ⟨old, hold, rfl⟩ := List.mem_map.1 hrun
    by_cases hid : old.runId = target
    · rw [if_pos hid]
      exact .inr ⟨hid, rfl, rfl⟩
    · rw [if_neg hid]
      exact .inl ⟨hold, hid⟩
  have hkept : ∀ run ∈ s.runs.rows, ∃ run' ∈ s'.runs.rows, run'.runId = run.runId ∧
      run'.repositoryKey = run.repositoryKey := by
    intro run hrun
    rw [hreverts.runs]
    refine ⟨_, List.mem_map_of_mem hrun, ?_, ?_⟩ <;> split <;> rfl
  exact
    { inOrder := hmoves.inOrder h.inOrder
      oneApplied := fun run hrun run' hrun' hsame happlied happlied' ↦ by
        rcases hsplit run hrun with ⟨hrun, -⟩ | ⟨-, hrolled, -⟩
        · rcases hsplit run' hrun' with ⟨hrun', -⟩ | ⟨-, hrolled, -⟩
          · exact h.oneApplied run hrun run' hrun' hsame happlied happlied'
          · rw [hrolled] at happlied'
            cases happlied'
        · rw [hrolled] at happlied
          cases happlied
      itemRun := fun item hitem ↦ by
        rw [hreverts.items] at hitem
        obtain ⟨run, hrun, hid, hrepository⟩ := h.itemRun item hitem
        obtain ⟨run', hrun', hid', hrepository'⟩ := hkept run hrun
        exact ⟨run', hrun', hid'.trans hid, hrepository'.trans hrepository⟩
      completed := fun item hitem ↦
        hmoves.subset_events (h.completed item (hreverts.items ▸ hitem))
      restored := fun run hrun hrolled item hitem hrunId ↦ by
        rw [hreverts.items] at hitem
        rcases hsplit run hrun with ⟨hrun, -⟩ | ⟨hid, -, hrollback⟩
        · obtain ⟨restored, hmem, hrollback, hpath, hlater, actor, hevent⟩ :=
            h.restored run hrun hrolled item hitem hrunId
          exact ⟨restored, hrollbackItems ▸ mem_append_left _ hmem, hrollback, hpath, hlater,
            actor, hmoves.subset_events hevent⟩
        · -- the item is one of those that the rollback has gone through
          have hpath : (result.rollbackRunId, item.key.path) ∈ rows.map (·.listed) := by
            rw [hlisted]
            refine List.mem_map.2 ⟨_, mem_reverse.2 (List.mem_map.2 ⟨item, ?_, rfl⟩), rfl⟩
            exact mem_itemsOf.2 ⟨hitem, hrunId.trans hid⟩
          obtain ⟨row, hrow, hrowlisted⟩ := List.mem_map.1 hpath
          obtain ⟨hrowid, hrowpath⟩ := Prod.mk.inj hrowlisted
          obtain ⟨owner, howner, hownerid, hownerkey⟩ := h.itemRun item hitem
          obtain rfl := run_eq_of_runId howner hrun₀ (by rw [hownerid, hrunId, hid, hid₀])
          have hkey : (⟨repository.key, row.path⟩ : PrdKey) = item.key := by
            rw [← hkey₀, hownerkey, hrowpath]
          have hmove : (item.key, row.statusEventId) ∈
              rows.map fun row ↦ ((⟨repository.key, row.path⟩ : PrdKey), row.statusEventId) :=
            List.mem_map.2 ⟨row, hrow, by rw [hkey]⟩
          exact ⟨row, hrollbackItems ▸ mem_append_right _ hrow, by rw [hrollback, hrowid],
            hrowpath, hmoves.later _ hmove _ (h.completed item hitem), actor,
            hmoves.mem_events hmove⟩ }

end BootstrapStore

theorem BootstrapCall.runs_apply {c c' : Connection BootstrapStore BootstrapError}
    {repository : RepositoryIdentity} {discovered : List DiscoveredPrd}
    {manifest : Option BootstrapManifest} {runId now : String} {answer : BootstrapAnswer}
    (h : (BootstrapCall.apply repository discovered manifest runId now).query.Runs c answer c') :
    ∃ result, answer = .apply result ∧
      (applyBootstrap repository discovered manifest runId now).Runs c result c' := by
  obtain ⟨result, rfl, hrun⟩ := h.of_bind_pure
  exact ⟨result, rfl, hrun⟩

theorem BootstrapCall.runs_rollback {c c' : Connection BootstrapStore BootstrapError}
    {repository : RepositoryIdentity} {discovered : List DiscoveredPrd}
    {target actor reason rollbackId : String} {answer : BootstrapAnswer}
    (h : (BootstrapCall.rollback repository discovered target actor reason rollbackId).query.Runs
      c answer c') :
    ∃ result, answer = .rollback result ∧
      (rollbackBootstrap repository discovered target actor reason rollbackId).Runs
        c result c' := by
  obtain ⟨result, rfl, hrun⟩ := h.of_bind_pure
  exact ⟨result, rfl, hrun⟩

namespace BootstrapStore

variable {s : BootstrapStore} {sha256 : Sha256}
  {parseRequest : List Char → Except String ReviewRequest}

theorem Sound.call (h : s.Sound) (call : BootstrapCall) (faults : List (Option BootstrapError)) :
    (call.query.run ⟨s, faults⟩).2.store.Sound := by
  cases hrun : call.query.run ⟨s, faults⟩ with
  | mk answer c' =>
    rcases answer with e | answer
    · have hsame : c'.store = s := call.query_atomic _ _ _ hrun
      exact hsame ▸ h
    cases call with
    | apply repository discovered manifest runId now =>
      obtain ⟨result, rfl, hresult⟩ := BootstrapCall.runs_apply hrun
      have hdone := applyBootstrap_runs hresult
      cases result with
      | absent | alreadyApplied =>
        show c'.store.Sound
        rw [hdone]
        exact h
      | applied applied =>
        obtain ⟨m, -, hcompletes⟩ := hdone
        exact h.completes hcompletes
    | rollback repository discovered target actor reason rollbackId =>
      obtain ⟨result, rfl, hresult⟩ := BootstrapCall.runs_rollback hrun
      exact h.reverts (rollbackBootstrap_runs hresult)

theorem Sound.run (h : s.Sound) (steps : List BootstrapStep) :
    (s.run sha256 parseRequest steps).Sound := by
  induction steps generalizing s with
  | nil => exact h
  | cons step steps ih =>
    refine ih ?_
    cases step with
    | call call faults => exact h.call call faults
    | backlog step => exact h.backlogStep step
    | transition repository path expected next actor faults =>
      exact h.transition path expected next actor faults

/-! ### What the answers promise -/

/-- The events of a PRD are its completion by an item and its return to pending by a rollback. -/
def OnlyRestored (s : BootstrapStore) (run : BootstrapRunRow) (item : BootstrapItemRow) : Prop :=
  ∃ restored ∈ s.rollbackItems.rows, run.rollbackRunId = some restored.rollbackRunId ∧
    ∃ actor, s.backlog.history item.key =
      [⟨item.statusEventId, item.key, .pending, .completed, bootstrapActor⟩,
        ⟨restored.statusEventId, item.key, .completed, .pending, actor⟩]

theorem Sound.onlyRestored (h : s.Sound) {run : BootstrapRunRow} (hrun : run ∈ s.runs.rows)
    (hstatus : run.status = .rolledBack) {item : BootstrapItemRow} (hitem : item ∈ s.items.rows)
    (hid : item.runId = run.runId) (htwo : (s.backlog.eventsOf item.key).length = 2) :
    s.OnlyRestored run item := by
  obtain ⟨restored, hrestored, hrollback, -, hlater, actor, hreturned⟩ :=
    h.restored run hrun hstatus item hitem hid
  refine ⟨restored, hrestored, hrollback, actor, ?_⟩
  rw [h.inOrder.history_eq]
  obtain ⟨first, second, hevents⟩ := length_eq_two.1 htwo
  have hmem : ∀ event ∈ s.backlog.statusEvents.rows, event.key = item.key →
      event = first ∨ event = second := by
    intro event hevent hkey
    have hin : event ∈ s.backlog.eventsOf item.key :=
      mem_filter.2 ⟨hevent, decide_eq_true hkey⟩
    rw [hevents] at hin
    simpa using hin
  have horder : first.eventId < second.eventId := by
    have hpairs : (s.backlog.eventsOf item.key).Pairwise (·.eventId < ·.eventId) :=
      h.inOrder.filter _
    rw [hevents] at hpairs
    exact rel_of_pairwise_cons hpairs mem_cons_self
  rw [hevents]
  -- the earlier of the two is the completion
  rcases hmem _ (h.completed item hitem) rfl with hfirst | hfirst <;>
    rcases hmem _ hreturned rfl with hsecond | hsecond
  · cases congrArg StatusEventRow.old (hfirst.trans hsecond.symm)
  · rw [hfirst, hsecond]
  · rw [← hfirst, ← hsecond] at horder
    exact absurd horder (Nat.lt_asymm hlater)
  · cases congrArg StatusEventRow.old (hfirst.trans hsecond.symm)

end BootstrapStore

/-- What an application promises that answers `Applied`. -/
structure ApplyPromise (repository : RepositoryIdentity) (discovered : List DiscoveredPrd)
    (manifest : BootstrapManifest) (applied : BootstrapApplied) (s s' : BootstrapStore) : Prop where
  completes : Completes repository discovered manifest applied s s'
  repeats : ∀ run ∈ s.runs.rows, run.repositoryKey = repository.key →
    (∀ run' ∈ s.runs.rows, run'.repositoryKey = repository.key → run' = run) ∧
    run.status = .rolledBack ∧ run.canonicalManifestHash = manifest.canonicalHash ∧
    ∀ item ∈ s.items.rows, item.runId = run.runId →
      (∃ listed ∈ manifest.items, listed.path.text = item.key.path ∧
        ∃ prd ∈ discovered, prd.path = listed.path) → s.OnlyRestored run item

/-- What a rollback promises that goes through. -/
structure RollbackPromise (repository : RepositoryIdentity) (discovered : List DiscoveredPrd)
    (target actor : String) (result : BootstrapRollbackResult) (s s' : BootstrapStore) : Prop where
  reverts : Reverts repository discovered target actor result s s'
  last : ∀ item ∈ s.items.rows, item.runId = target →
    item.key = ⟨repository.key, item.key.path⟩ ∧
      ∀ event ∈ s.backlog.history item.key, event.eventId ≤ item.statusEventId
  dependents : (discovered.map (·.id.key)).Nodup → ∀ prd ∈ discovered,
    prd.path.text ∉ s.pathsOf target →
      ∀ row, s.backlog.row (repository.prdKey prd.path) = some row →
        row.status = .inProgress ∨ row.status = .completed →
          ∀ other ∈ discovered, other.path.text ∈ s.pathsOf target →
            ¬Relation.TransGen (DependsOn discovered) prd.id.key other.id.key

def BootstrapCall.Promise (s s' : BootstrapStore) :
    BootstrapCall → Except BootstrapError BootstrapAnswer → Prop
  | _, .error _ => s' = s
  | .apply repository discovered manifest _ _, .ok (.apply (.applied applied)) =>
    ∃ m ∈ manifest, ApplyPromise repository discovered m applied s s'
  | .apply .., .ok (.apply _) => s' = s
  | .rollback repository discovered target actor _ _, .ok (.rollback result) =>
    RollbackPromise repository discovered target actor result s s'
  | _, .ok _ => False

namespace BootstrapStore

variable {s s' : BootstrapStore} {repository : RepositoryIdentity}
  {discovered : List DiscoveredPrd} {manifest : BootstrapManifest} {applied : BootstrapApplied}
  {target actor : String} {result : BootstrapRollbackResult}

theorem Sound.applyPromise (h : s.Sound)
    (hcompletes : Completes repository discovered manifest applied s s') :
    ApplyPromise repository discovered manifest applied s s' where
  completes := hcompletes
  repeats run hrun hkey := by
    obtain ⟨reapply, hlineage, heligible⟩ := hcompletes.lineage
    cases hlineage with
    | first hnone => exact absurd hkey (hnone run hrun)
    | again prior hprior hpriorkey honly hstatus hhash =>
      obtain rfl := honly run hrun hkey
      refine ⟨honly, hstatus, hhash, fun item hitem hid ⟨listed, hlisted, hpath, hdiscovered⟩ ↦ ?_⟩
      obtain ⟨owner, howner, hownerid, hownerkey⟩ := h.itemRun item hitem
      obtain rfl := run_eq_of_runId howner hrun (hownerid.trans hid)
      have hitemkey : repository.prdKey listed.path = item.key := by
        show (⟨repository.key, listed.path.text⟩ : PrdKey) = item.key
        rw [hpath, ← hkey, hownerkey]
      have htwo := (heligible listed hlisted hdiscovered).restored rfl
      rw [hitemkey] at htwo
      exact h.onlyRestored hrun hstatus hitem hid htwo

theorem Sound.rollbackPromise (h : s.Sound)
    (hreverts : Reverts repository discovered target actor result s s') :
    RollbackPromise repository discovered target actor result s s' where
  reverts := hreverts
  last item hitem hid := by
    obtain ⟨run, hrun, hrunid, hkey, -⟩ := hreverts.applied
    obtain ⟨owner, howner, hownerid, hownerkey⟩ := h.itemRun item hitem
    obtain rfl := run_eq_of_runId howner hrun (by rw [hownerid, hid, hrunid])
    have hitemkey : item.key = ⟨repository.key, item.key.path⟩ := by
      rw [← hkey, hownerkey]
    refine ⟨hitemkey, fun event hevent ↦ ?_⟩
    obtain ⟨latest, hlatest, hlatestid⟩ := (hreverts.untouched item hitem hid).latest
    rw [← hitemkey, Backlog.latestEvent] at hlatest
    -- the last event in order has the greatest id
    have hpairs : (s.backlog.history item.key).Pairwise (·.eventId < ·.eventId) := by
      rw [h.inOrder.history_eq]
      exact h.inOrder.filter _
    obtain ⟨before, hbefore⟩ := getLast?_eq_some_iff.1 hlatest
    rw [hbefore] at hevent hpairs
    rcases mem_append.1 hevent with hevent | hevent
    · rw [← hlatestid]
      exact Nat.le_of_lt ((pairwise_append.1 hpairs).2.2 event hevent latest mem_cons_self)
    · rw [mem_singleton.1 hevent, hlatestid]
  dependents hids prd hprd houtside row hrow hstatus other hother htarget := by
    obtain ⟨row', hrow', hsearch⟩ := hreverts.independent prd hprd houtside
    obtain rfl := Option.some.inj (hrow.symm.trans hrow')
    exact not_dependsOn_of_search hids hprd (hsearch hstatus) hother htarget

theorem Sound.promise (h : s.Sound) (call : BootstrapCall)
    (faults : List (Option BootstrapError)) :
    call.Promise s (call.query.run ⟨s, faults⟩).2.store (call.query.run ⟨s, faults⟩).1 := by
  cases hrun : call.query.run ⟨s, faults⟩ with
  | mk answer c' =>
    rcases answer with e | answer
    · exact call.query_atomic _ _ _ hrun
    cases call with
    | apply repository discovered manifest runId now =>
      obtain ⟨result, rfl, hresult⟩ := BootstrapCall.runs_apply hrun
      have hdone := applyBootstrap_runs hresult
      cases result with
      | absent | alreadyApplied => exact hdone
      | applied applied =>
        obtain ⟨m, hm, hcompletes⟩ := hdone
        exact ⟨m, hm, h.applyPromise hcompletes⟩
    | rollback repository discovered target actor reason rollbackId =>
      obtain ⟨result, rfl, hresult⟩ := BootstrapCall.runs_rollback hrun
      exact h.rollbackPromise (rollbackBootstrap_runs hresult)

end BootstrapStore

/-- **Bootstraps keep their promises.** After any sequence of bootstrap calls and other operations
of the backlog, a repository has one applied run at most, and whatever a further call answers, it
has done to the store what the answer promises. -/
theorem bootstrap_contract (sha256 : Sha256)
    (parseRequest : List Char → Except String ReviewRequest) (steps : List BootstrapStep) :
    (BootstrapStore.run sha256 parseRequest {} steps).OneApplied ∧
      ∀ (call : BootstrapCall) (faults : List (Option BootstrapError)),
        call.Promise (BootstrapStore.run sha256 parseRequest {} steps)
          (call.query.run ⟨BootstrapStore.run sha256 parseRequest {} steps, faults⟩).2.store
          (call.query.run ⟨BootstrapStore.run sha256 parseRequest {} steps, faults⟩).1 := by
  have hsound : (BootstrapStore.run sha256 parseRequest {} steps).Sound := Sound.empty.run steps
  exact ⟨hsound.oneApplied, hsound.promise⟩

namespace DependentItems

/-! A manifest of two PRDs of which the second depends on the first. -/

def repository : RepositoryIdentity :=
  ⟨"repo"⟩

def hash : String :=
  "0000000000000000000000000000000000000000000000000000000000000000"

def prd (number : ℕ) (path : RepositoryPath) (dependencies : List PrdId) : DiscoveredPrd where
  id := .new number
  number
  path
  location := .active
  dependencies
  metadata := {}
  contentHash := hash

theorem first_valid : IsRepositoryPath "a" := by
  decide

def first : DiscoveredPrd :=
  prd 1 ⟨"a", first_valid⟩ []

theorem second_valid : IsRepositoryPath "b" := by
  decide

def second : DiscoveredPrd :=
  prd 2 ⟨"b", second_valid⟩ [.new 1]

def item (prd : DiscoveredPrd) : BootstrapItem where
  path := prd.path
  prdNumber := prd.number
  prdSuffix := none
  declaredContentHash := hash
  observedContentHash := hash

def manifest : BootstrapManifest where
  version := 1
  canonicalHash := hash
  rawHash := hash
  items := [item first, item second]

def steps : List BootstrapStep :=
  [.backlog (.call (.reconcile repository [first, second]) []),
    .call (.apply repository [first, second] (some manifest) "run" "now") []]

def sha256 : Sha256 :=
  fun _ ↦ .replicate 32 0

def parseRequest : List Char → Except String ReviewRequest :=
  fun _ ↦ .error "no request"

theorem rolls_back :
    ((rollbackBootstrap repository [first, second] "run" "human" "correction" "rollback").run
      ⟨BootstrapStore.run sha256 parseRequest {} steps, []⟩).1 = .ok ⟨"rollback", 2⟩ := by
  decide +kernel

theorem second_completed :
    ∃ row ∈ (BootstrapStore.run sha256 parseRequest {} steps).backlog.row
      (repository.prdKey second.path), row.status = .completed := by
  decide +kernel

theorem first_target :
    first.path.text ∈ (BootstrapStore.run sha256 parseRequest {} steps).pathsOf "run" := by
  decide +kernel

theorem second_dependsOn_first :
    DependsOn [first, second] second.id.key first.id.key :=
  ⟨second, by decide, rfl, .new 1, mem_cons_self, rfl⟩

end DependentItems

/-- A run is rolled back although a PRD of it that is completed depends on another one of it. -/
theorem rollback_dependent_item :
    ¬∀ (sha256 : Sha256) (parseRequest : List Char → Except String ReviewRequest)
      (steps : List BootstrapStep) (repository : RepositoryIdentity)
      (discovered : List DiscoveredPrd) (target actor reason rollbackId : String)
      (result : BootstrapRollbackResult),
      ((rollbackBootstrap repository discovered target actor reason rollbackId).run
        ⟨BootstrapStore.run sha256 parseRequest {} steps, []⟩).1 = .ok result →
      ∀ prd ∈ discovered, ∀ row ∈ (BootstrapStore.run sha256 parseRequest {} steps).backlog.row
          (repository.prdKey prd.path), row.status = .inProgress ∨ row.status = .completed →
        ∀ other ∈ discovered,
          other.path.text ∈ (BootstrapStore.run sha256 parseRequest {} steps).pathsOf target →
            ¬Relation.TransGen (DependsOn discovered) prd.id.key other.id.key := by
  intro h
  obtain ⟨row, hrow, hstatus⟩ := DependentItems.second_completed
  exact h DependentItems.sha256 DependentItems.parseRequest DependentItems.steps
    DependentItems.repository _ _ _ _ _ _ DependentItems.rolls_back DependentItems.second
    (mem_cons_of_mem _ mem_cons_self) row hrow (.inr hstatus) DependentItems.first
    mem_cons_self DependentItems.first_target (.single DependentItems.second_dependsOn_first)

end FamiliarAi
