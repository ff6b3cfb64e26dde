import FamiliarAi.Storage.Bootstrap
import FamiliarAi.Storage.History

/-!
# What an application and a rollback of a bootstrap come to

Both operations move a list of PRDs from one status to another, each with an event of its own, and
put a row for each of them into a table of the bootstrap. `Backlog.Moves` says what such a list of
moves does to the backlog as a whole; one move is a `Moves` of its own, and two lists of moves in a
row are one. What the operations have looked at before they wrote is collected from the loops that
look.
-/

namespace FamiliarAi

open Relational Text BootstrapStore List Option Table

/-- PRDs went from one status to another, each with the event that is named with it. -/
structure Backlog.Moves (old new : BacklogStatus) (actor : String) (moves : List (PrdKey × ℕ))
    (b b' : Backlog) : Prop where
  row : ∀ key, b'.row key = (b.row key).map fun row ↦
    if key ∈ moves.map (·.1) then { row with status := new } else row
  source : ∀ key ∈ moves.map (·.1), ∃ row, b.row key = some row ∧ row.status = old
  events : b'.statusEvents.rows = b.statusEvents.rows ++
    moves.map fun move ↦ ⟨move.2, move.1, old, new, actor⟩
  later : ∀ move ∈ moves, ∀ event ∈ b.statusEvents.rows, event.eventId < move.2
  inOrder : b.InOrder → b'.InOrder
  recoveryEvents : b'.recoveryEvents = b.recoveryEvents

namespace Backlog

variable {old new : BacklogStatus} {actor : String} {moves moves' : List (PrdKey × ℕ)}
  {b b' b'' : Backlog} {key : PrdKey} {row : PrdRow}

theorem Moves.nil (b : Backlog) : b.Moves old new actor [] b where
  row key := by simp
  source _ h := absurd h not_mem_nil
  events := (append_nil _).symm
  later _ h := absurd h not_mem_nil
  inOrder := id
  recoveryEvents := rfl

theorem Moves.row_of_old (h : b.Moves old new actor moves b') (hne : old ≠ new)
    (hrow : b'.row key = some row) (hold : row.status = old) :
    key ∉ moves.map (·.1) ∧ b.row key = some row := by
  rw [h.row key] at hrow
  obtain ⟨row', hrow', heq⟩ := map_eq_some_iff.1 hrow
  by_cases hkey : key ∈ moves.map (·.1)
  · rw [if_pos hkey] at heq
    rw [← heq] at hold
    exact absurd hold.symm hne
  · rw [if_neg hkey] at heq
    exact ⟨hkey, heq ▸ hrow'⟩

theorem Moves.trans (h : b.Moves old new actor moves b') (h' : b'.Moves old new actor moves' b'')
    (hne : old ≠ new) : b.Moves old new actor (moves ++ moves') b'' where
  row key := by
    rw [h'.row, h.row, Option.map_map]
    refine congrArg (Option.map · _) (funext fun row ↦ ?_)
    show (if key ∈ moves'.map (·.1) then _ else _) = _
    by_cases hkey : key ∈ moves.map (·.1) <;> by_cases hkey' : key ∈ moves'.map (·.1) <;>
      simp [hkey, hkey']
  source key hkey := by
    rw [map_append, mem_append] at hkey
    rcases hkey with hkey | hkey
    · exact h.source key hkey
    · obtain ⟨row, hrow, hold⟩ := h'.source key hkey
      exact ⟨row, (h.row_of_old hne hrow hold).2, hold⟩
  events := by rw [h'.events, h.events, map_append, append_assoc]
  later move hmove event hevent := by
    rcases mem_append.1 hmove with hmove | hmove
    · exact h.later move hmove event hevent
    · refine h'.later move hmove event ?_
      rw [h.events]
      exact mem_append_left _ hevent
  inOrder := h'.inOrder ∘ h.inOrder
  recoveryEvents := h'.recoveryEvents.trans h.recoveryEvents

theorem Moves.mem_events (h : b.Moves old new actor moves b') {move : PrdKey × ℕ}
    (hmove : move ∈ moves) :
    (⟨move.2, move.1, old, new, actor⟩ : StatusEventRow) ∈ b'.statusEvents.rows := by
  rw [h.events]
  exact mem_append_right _ (List.mem_map.2 ⟨move, hmove, rfl⟩)

theorem Moves.subset_events (h : b.Moves old new actor moves b') :
    b.statusEvents.rows ⊆ b'.statusEvents.rows := by
  rw [h.events]
  exact subset_append_left _ _

end Backlog

section Statements

variable {c c' c₁ c₂ : Connection BootstrapStore BootstrapError} {key : PrdKey}
  {p : PrdRow → Bool} {old new : BacklogStatus} {actor : String} {n id : ℕ} {u : Unit}
  {repositoryKey : String}

theorem requireFound_runs {α : Type} {a : α} {e : BootstrapError} {f : BootstrapStore → Option α}
    (h : (requireFound e f).Runs c a c') : f c.store = some a ∧ c'.store = c.store := by
  obtain ⟨c₁, hstore, hmatch⟩ := h.of_read_bind
  split at hmatch
  · rename_i a' hfound
    obtain ⟨rfl, rfl⟩ := hmatch.of_pure
    exact ⟨hfound, hstore⟩
  · exact absurd hmatch Query.not_runs_fail

theorem readOnly_validateAllRuns : (validateAllRuns repositoryKey).ReadOnly :=
  .bind .read fun _ ↦ .ensure

theorem moves_single (hmove : (moveStatus p new).Runs c 1 c₁)
    (hp : ∀ row, p row = true → row.key = key ∧ row.status = old)
    (happend : (appendStatusEvent key old new actor).Runs c₁ id c₂) :
    ∃ b row, c₂.store = c.store.setBacklog b ∧ c.store.backlog.row key = some row ∧
      p row = true ∧ c.store.backlog.Moves old new actor [(key, id)] b := by
  obtain ⟨prds, hmodify, hstore⟩ := hmove.of_changePart
  obtain ⟨hupdate, hcount⟩ := Table.modify_eq_some hmodify
  obtain ⟨row, hmem, hprow⟩ := Table.count_pos_iff.1 (by omega : 0 < c.store.backlog.prds.count p)
  obtain ⟨hkey, hold⟩ := hp row hprow
  have hrow : c.store.backlog.row key = some row := hkey ▸ Backlog.row_of_mem hmem
  have hchange := happend.of_change
  rw [hstore] at hchange
  split at hchange
  · obtain ⟨events, hinsert, hpair⟩ := map_eq_some_iff.1 hchange
    obtain ⟨rfl, hstore₂⟩ := Prod.mk.inj hpair
    refine ⟨_, row, hstore₂.symm, hrow, hprow, ?_⟩
    have hevents := Table.rows_insert hinsert
    exact
      { row := fun k ↦ by
          have hfind : prds.find (·.key = k) = (c.store.backlog.row k).map fun r ↦
              if p r then { r with status := new } else r := Table.find_update hupdate fun _ ↦ rfl
          refine hfind.trans ?_
          rcases hk : c.store.backlog.row k with _ | r
          · rfl
          have hrk := (Backlog.row_eq_some hk).2
          by_cases hkk : k = key
          · subst hkk
            obtain rfl := Option.some.inj (hrow.symm.trans hk)
            simp [hprow]
          · have hpr : ¬p r = true := fun hpr ↦ hkk (hrk.symm.trans (hp r hpr).1)
            simp [hpr, hkk]
        source := fun k hk ↦ by
          rw [map_singleton, mem_singleton] at hk
          exact ⟨row, hk ▸ hrow, hold⟩
        events := hevents
        later := fun move hmove event hevent ↦ by
          rw [mem_singleton.1 hmove]
          exact Backlog.lt_nextEventId hevent
        inOrder := fun hinOrder ↦ by
          show List.Pairwise _ events.rows
          rw [hevents]
          refine pairwise_append.2 ⟨hinOrder, pairwise_singleton _ _, ?_⟩
          intro event hevent new hnew
          rw [mem_singleton.1 hnew]
          exact Backlog.lt_nextEventId (b := c.store.backlog) hevent
        recoveryEvents := rfl }
  · cases hchange

end Statements

/-! ### Application -/

section Application

variable {c c' : Connection BootstrapStore BootstrapError} {repository : RepositoryIdentity}
  {discovered : List DiscoveredPrd} {manifest : BootstrapManifest} {reapply : Option String}
  {runId now : String} {u : Unit} {survey survey' : Survey} {repositoryKey : String}
  {s : BootstrapStore}

/-- The PRD may be completed by the manifest. -/
structure EligiblePrd (s : BootstrapStore) (reapply : Option String) (key : PrdKey) : Prop where
  prior : reapply = none → s.backlog.eventsOf key = []
  restored : reapply.isSome → (s.backlog.eventsOf key).length = 2

theorem surveyPrd_runs {prd : DiscoveredPrd}
    (h : (surveyPrd repository manifest reapply survey prd).Runs c survey' c') :
    c'.store = c.store ∧ ((∃ item ∈ manifest.items, item.path = prd.path) →
      EligiblePrd c.store reapply (repository.prdKey prd.path)) := by
  obtain ⟨⟨row, count⟩, c₁, hfound, h⟩ := h.of_bind
  obtain ⟨hread, hstore⟩ := requireFound_runs hfound
  obtain ⟨row', -, hpair⟩ := map_eq_some_iff.1 hread
  obtain ⟨rfl, rfl⟩ := Prod.mk.inj hpair
  obtain ⟨u, -, hwhen⟩ := h.of_bind_pure
  rcases Query.runs_when.1 hwhen with ⟨-, hchecks⟩ | ⟨hnot, rfl⟩
  · simp only [Query.runs_bind, Query.runs_ensure] at hchecks
    obtain ⟨-, _, ⟨-, rfl⟩, -, _, ⟨-, rfl⟩, -, _, ⟨hprior, rfl⟩, hrestored, rfl⟩ := hchecks
    refine ⟨hstore, fun _ ↦ ⟨fun hnone ↦ ?_, fun hsome ↦ ?_⟩⟩
    · refine length_eq_zero_iff.1 (hprior.resolve_right ?_)
      rw [hnone]
      exact Bool.false_ne_true
    · refine hrestored.resolve_left ?_
      rw [isNone_iff_eq_none]
      exact isSome_iff_ne_none.1 hsome
  · exact ⟨hstore, fun hlisted ↦ absurd hlisted hnot⟩

theorem survey_runs
    (h : (Query.foldEach (surveyPrd repository manifest reapply) survey discovered).Runs c survey' c')
    :
    c'.store = c.store ∧ ∀ prd ∈ discovered, (∃ item ∈ manifest.items, item.path = prd.path) →
      EligiblePrd c.store reapply (repository.prdKey prd.path) := by
  refine h.of_foldEach (P := fun done s ↦ s = c.store ∧ ∀ prd ∈ done,
    (∃ item ∈ manifest.items, item.path = prd.path) →
      EligiblePrd c.store reapply (repository.prdKey prd.path))
    ⟨rfl, fun _ h ↦ absurd h not_mem_nil⟩ ?_
  rintro done prd rest survey c₁ survey' c₂ - ⟨hs, hdone⟩ hround
  obtain ⟨hstore, heligible⟩ := surveyPrd_runs hround
  rw [hs] at hstore heligible
  refine ⟨hstore, fun p hp ↦ ?_⟩
  rcases mem_append.1 hp with hp | hp
  · exact hdone p hp
  · rw [mem_singleton.1 hp]
    exact heligible

def BootstrapItemRow.listed (row : BootstrapItemRow) : String × PrdKey × String :=
  (row.runId, row.key, row.observedContentHash)

/-- What the row of an item has to say. -/
def BootstrapItem.listed (repository : RepositoryIdentity) (runId : String) (item : BootstrapItem) :
    String × PrdKey × String :=
  (runId, repository.prdKey item.path, item.observedContentHash)

/-- The row is pending and holds the content that the manifest lists. -/
def PrdRow.Awaits (row : PrdRow) (item : BootstrapItem) : Prop :=
  row.status = .pending ∧ row.missing = false ∧ row.contentHash = item.observedContentHash

theorem applyItem_runs {entry : BootstrapItem × ℕ}
    (h : (applyItem repository runId entry).Runs c u c') :
    ∃ b row items, c.store.backlog.Moves .pending .completed bootstrapActor
        [(row.key, row.statusEventId)] b ∧
      (∃ prd, c.store.backlog.row (repository.prdKey entry.1.path) = some prd ∧
        prd.Awaits entry.1) ∧
      row.listed = entry.1.listed repository runId ∧ items.rows = c.store.items.rows ++ [row] ∧
      c'.store = { c.store.setBacklog b with items } := by
  obtain ⟨item, index⟩ := entry
  obtain ⟨changed, c₁, hmove, h⟩ := h.of_bind
  obtain ⟨rfl, hrest⟩ := h.of_ensure_bind
  obtain ⟨event, c₂, happend, h⟩ := hrest.of_bind
  obtain ⟨-, hinsert⟩ := h.of_ensure_bind
  obtain ⟨b, prd, hstore, hprd, hcond, hmoves⟩ := moves_single hmove
    (fun row hrow ↦ ⟨(of_decide_eq_true hrow).1, (of_decide_eq_true hrow).2.1⟩) happend
  have hwrite := hinsert.of_write
  split at hwrite
  · obtain ⟨items, hitems, hstore'⟩ := map_eq_some_iff.1 hwrite
    rw [hstore] at hitems hstore'
    exact ⟨b, _, items, hmoves, ⟨prd, hprd, (of_decide_eq_true hcond).2⟩, rfl,
      Table.rows_insert hitems, hstore'.symm⟩
  · cases hwrite

def AppliedItems (repository : RepositoryIdentity) (runId : String) (s : BootstrapStore)
    (done : List (BootstrapItem × ℕ)) (s' : BootstrapStore) : Prop :=
  ∃ b rows items, s.backlog.Moves .pending .completed bootstrapActor
      (rows.map fun row ↦ (row.key, row.statusEventId)) b ∧
    (∀ entry ∈ done, ∃ prd, s.backlog.row (repository.prdKey entry.1.path) = some prd ∧
      prd.Awaits entry.1) ∧
    rows.map (·.listed) = done.map (fun entry ↦ entry.1.listed repository runId) ∧
    items.rows = s.items.rows ++ rows ∧ s' = { s.setBacklog b with items }

theorem applyItems_runs {entries : List (BootstrapItem × ℕ)}
    (h : (Query.forEach entries (applyItem repository runId)).Runs c u c') :
    AppliedItems repository runId c.store entries c'.store := by
  refine h.of_forEach (P := AppliedItems repository runId c.store)
    ⟨_, [], _, .nil _, fun _ h ↦ absurd h not_mem_nil, rfl, (append_nil _).symm, rfl⟩ ?_
  rintro done entry rest c₁ c₂ - ⟨b, rows, items, hmoves, hawaits, hrows, hitems, hs⟩ hround
  obtain ⟨b', row, items', hmove, ⟨prd, hprd, hawait⟩, hrow, hitems', hs'⟩ := applyItem_runs hround
  rw [hs] at hmove hprd hitems' hs'
  refine ⟨b', rows ++ [row], items', ?_, fun entry' hentry' ↦ ?_, ?_, ?_, hs'⟩
  · rw [map_append]
    exact hmoves.trans hmove (by decide)
  · rcases mem_append.1 hentry' with hentry' | hentry'
    · exact hawaits entry' hentry'
    · rw [mem_singleton.1 hentry']
      exact ⟨prd, (hmoves.row_of_old (by decide) hprd hawait.1).2, hawait⟩
  · rw [map_append, map_append, hrows, map_singleton, map_singleton, hrow]
  · rw [hitems', ← append_assoc, ← hitems]

/-- What an application has come upon that goes through: no run of the repository, or one that was
rolled back and was of the same manifest. -/
inductive Lineage (s : BootstrapStore) (repositoryKey : String) (manifest : BootstrapManifest) :
    Option String → Prop
  | first : (∀ run ∈ s.runs.rows, run.repositoryKey ≠ repositoryKey) →
      Lineage s repositoryKey manifest none
  | again (run : BootstrapRunRow) : run ∈ s.runs.rows → run.repositoryKey = repositoryKey →
      (∀ run' ∈ s.runs.rows, run'.repositoryKey = repositoryKey → run' = run) →
      run.status = .rolledBack → run.canonicalManifestHash = manifest.canonicalHash →
      Lineage s repositoryKey manifest (some run.runId)

theorem mem_runsOf {run : BootstrapRunRow} :
    run ∈ s.runsOf repositoryKey ↔ run ∈ s.runs.rows ∧ run.repositoryKey = repositoryKey := by
  rw [runsOf, mem_insertionSort, mem_filter, decide_eq_true_eq]

theorem lineage_of_priorRun (h : priorRun (s.runsOf repositoryKey) manifest = .ok reapply) :
    Lineage s repositoryKey manifest reapply := by
  unfold priorRun at h
  split at h
  · rename_i hruns
    obtain rfl := Except.ok.inj h
    refine .first fun run hrun hkey ↦ ?_
    have hmem := mem_runsOf.2 ⟨hrun, hkey⟩
    rw [hruns] at hmem
    cases hmem
  · rename_i run hruns
    split at h
    · rename_i hcond
      obtain rfl := Except.ok.inj h
      have hmem : run ∈ s.runsOf repositoryKey := hruns ▸ mem_cons_self
      obtain ⟨hrun, hkey⟩ := mem_runsOf.1 hmem
      refine .again run hrun hkey (fun run' hrun' hkey' ↦ ?_) hcond.1 hcond.2.1
      exact mem_singleton.1 (hruns ▸ mem_runsOf.2 ⟨hrun', hkey'⟩)
    · cases h
  · cases h

/-- **What an application does.** -/
structure Completes (repository : RepositoryIdentity) (discovered : List DiscoveredPrd)
    (manifest : BootstrapManifest) (applied : BootstrapApplied) (s s' : BootstrapStore) : Prop where
  fresh : ∀ run ∈ s.runs.rows, run.repositoryKey = repository.key → run.status ≠ .applied
  awaits : ∀ item ∈ manifest.items, ∃ row,
    s.backlog.row (repository.prdKey item.path) = some row ∧ row.Awaits item
  moves : ∃ rows : List BootstrapItemRow,
    rows.map (·.listed) = manifest.items.map (·.listed repository applied.runId) ∧
    s.backlog.Moves .pending .completed bootstrapActor
      (rows.map fun row ↦ (row.key, row.statusEventId)) s'.backlog ∧
    s'.items.rows = s.items.rows ++ rows
  runs : ∃ run, s'.runs.rows = s.runs.rows ++ [run] ∧ run.runId = applied.runId ∧
    run.repositoryKey = repository.key ∧ run.canonicalManifestHash = manifest.canonicalHash ∧
    run.status = .applied
  /-- An earlier run was rolled back, and its manifest was this one. The PRDs of the manifest that
  were discovered have no event, or the two of the earlier run. -/
  lineage : ∃ reapply, Lineage s repository.key manifest reapply ∧
    ∀ item ∈ manifest.items, (∃ prd ∈ discovered, prd.path = item.path) →
      EligiblePrd s reapply (repository.prdKey item.path)
  rollbackItems : s'.rollbackItems = s.rollbackItems
  /-- The rest of the database is left alone. -/
  frame : s'.database = { s.database with backlog := s'.backlog }

theorem applyFresh_runs {runs : List BootstrapRunRow} {applied : BootstrapApplied}
    (h : (applyFresh repository discovered manifest runs runId now).Runs c applied c')
    (hruns : runs = c.store.runsOf repository.key) (hfresh : ∀ run ∈ runs, run.status ≠ .applied) :
    Completes repository discovered manifest applied c.store c'.store := by
  obtain ⟨reapply, hprior, h⟩ := h.of_ofExcept_bind
  obtain ⟨survey, c₂, hsurvey, h⟩ := h.of_bind
  obtain ⟨hstore, heligible⟩ := survey_runs hsurvey
  obtain ⟨_, -, h⟩ := h.of_ofExcept_bind
  obtain ⟨_, c₄, hinsert, h⟩ := h.of_bind
  obtain ⟨_, rfl, hitems⟩ := h.of_bind_pure
  have hwrite := hinsert.of_write
  split at hwrite
  swap
  · cases hwrite
  obtain ⟨table, htable, hstore₄⟩ := map_eq_some_iff.1 hwrite
  rw [hstore] at htable hstore₄
  obtain ⟨b, rows, items, hmoves, hawaits, hrows, hitemrows, hs⟩ := applyItems_runs hitems
  rw [← hstore₄] at hmoves hawaits hitemrows hs
  rw [hruns] at hprior hfresh
  have hlisted : rows.map (·.listed) = manifest.items.map (·.listed repository runId) := by
    rw [hrows]
    conv_rhs => rw [← zipIdx_map_fst 0 manifest.items, List.map_map]
    rfl
  exact
    { fresh := fun run hrun hkey ↦ hfresh run (mem_runsOf.2 ⟨hrun, hkey⟩)
      awaits := fun item hitem ↦ by
        rw [← zipIdx_map_fst 0 manifest.items] at hitem
        obtain ⟨entry, hentry, rfl⟩ := List.mem_map.1 hitem
        exact hawaits entry hentry
      moves := ⟨rows, hlisted, by rw [hs]; exact hmoves, by rw [hs]; exact hitemrows⟩
      runs := ⟨_, by rw [hs]; exact Table.rows_insert htable, rfl, rfl, rfl, rfl⟩
      lineage := ⟨reapply, lineage_of_priorRun hprior, fun item hitem ⟨prd, hprd, hpath⟩ ↦
        hpath ▸ heligible prd hprd ⟨item, hitem, hpath.symm⟩⟩
      rollbackItems := by rw [hs]; rfl
      frame := by rw [hs]; rfl }

end Application

/-! ### Rollback -/

section Dependencies

variable {prds : List DiscoveredPrd} {prd target : DiscoveredPrd} {targets : List String}

def dependenciesIn (prds : List DiscoveredPrd) (prd : DiscoveredPrd) : List DiscoveredPrd :=
  prd.dependencies.filterMap fun dependency ↦ prds.find? (·.id == dependency)

theorem find_dependency (hids : (prds.map (·.id.key)).Nodup) (htarget : target ∈ prds)
    {dependency : PrdId} (hkey : dependency.key = target.id.key) :
    prds.find? (·.id == dependency) = some target := by
  have hsome : (prds.find? (·.id == dependency)).isSome = true :=
    find?_isSome.2 ⟨target, htarget, PrdId.beq_iff.2 hkey.symm⟩
  obtain ⟨found, hfound⟩ := isSome_iff_exists.1 hsome
  have hbeq : (found.id == dependency) = true :=
    find?_some (p := fun p : DiscoveredPrd ↦ p.id == dependency) hfound
  have hfoundkey : found.id.key = dependency.key := PrdId.beq_iff.1 hbeq
  rw [hfound, inj_on_of_nodup_map hids (mem_of_find?_eq_some hfound) htarget (hfoundkey.trans hkey)]

theorem path_of_dependsOn (hids : (prds.map (·.id.key)).Nodup) (hprd : prd ∈ prds)
    (htarget : target ∈ prds)
    (h : Relation.TransGen (DependsOn prds) prd.id.key target.id.key) :
    Relation.TransGen (Reach.Edge (dependenciesIn prds)) prd target := by
  suffices hmain : ∀ key, Relation.TransGen (DependsOn prds) key target.id.key →
      ∀ prd ∈ prds, prd.id.key = key →
        Relation.TransGen (Reach.Edge (dependenciesIn prds)) prd target from
    hmain _ h prd hprd rfl
  intro key hpath
  induction hpath using Relation.TransGen.head_induction_on with
  | single hedge =>
    rintro prd hprd rfl
    obtain ⟨p, hp, hkey, d, hd, hdkey⟩ := hedge
    obtain rfl := inj_on_of_nodup_map hids hp hprd hkey
    exact .single (mem_filterMap.2 ⟨d, hd, find_dependency hids htarget hdkey⟩)
  | head hedge hrest ih =>
    rintro prd hprd rfl
    obtain ⟨p, hp, hkey, d, hd, rfl⟩ := hedge
    obtain rfl := inj_on_of_nodup_map hids hp hprd hkey
    -- what a dependency leads on from is discovered
    obtain ⟨next, ⟨q, hq, hqkey, -⟩, -⟩ := Relation.TransGen.head'_iff.1 hrest
    exact .head (mem_filterMap.2 ⟨d, hd, find_dependency hids hq hqkey.symm⟩) (ih q hq hqkey)

/-- **Where the search finds no target, no chain of dependencies leads to one.** -/
theorem not_dependsOn_of_search (hids : (prds.map (·.id.key)).Nodup) (hprd : prd ∈ prds)
    (h : dependsOnTarget prd prds targets = false) (htarget : target ∈ prds)
    (hpath : target.path.text ∈ targets) :
    ¬Relation.TransGen (DependsOn prds) prd.id.key target.id.key := by
  intro hchain
  have hon : Reach.IsOn (fun p : DiscoveredPrd ↦ p.id.key) (dependenciesIn prds) prds :=
    { eq_of_key := fun v hv w hw hkey ↦ inj_on_of_nodup_map hids hv hw hkey
      mem_of_next := fun v _ w hw ↦ by
        obtain ⟨dependency, -, hfind⟩ := mem_filterMap.1 hw
        exact mem_of_find?_eq_some hfind }
  have hfound : dependsOnTarget prd prds targets = true :=
    (Reach.search_eq_true_iff hon hprd).2
      ⟨target, path_of_dependsOn hids hprd htarget hchain, contains_iff_mem.2 hpath⟩
  rw [hfound] at h
  cases h

end Dependencies

section Rollback

variable {c c' : Connection BootstrapStore BootstrapError} {repository : RepositoryIdentity}
  {discovered : List DiscoveredPrd} {target actor reason rollbackId : String} {u : Unit}
  {blockers blockers' targets : List String} {item : BootstrapItemRow}

/-- The PRD of an item is as the run has left it. -/
structure Untouched (s : BootstrapStore) (repository : RepositoryIdentity)
    (discovered : List DiscoveredPrd) (item : BootstrapItemRow) : Prop where
  content : ∃ prd ∈ discovered, prd.path.text = item.key.path ∧
    prd.contentHash = item.observedContentHash
  status : ∃ row, s.backlog.row ⟨repository.key, item.key.path⟩ = some row ∧ row.status = .completed
  latest : ∃ event, s.backlog.latestEvent ⟨repository.key, item.key.path⟩ = some event ∧
    event.eventId = item.statusEventId

theorem itemBlockers_runs
    (h : (itemBlockers repository discovered blockers item).Runs c blockers' c') :
    c'.store = c.store ∧ (blockers' = [] →
      blockers = [] ∧ Untouched c.store repository discovered item) := by
  unfold itemBlockers at h
  simp only at h
  split at h
  · obtain ⟨rfl, rfl⟩ := h.of_pure
    exact ⟨rfl, fun hnil ↦ absurd (append_eq_nil_iff.1 hnil).2 (cons_ne_nil _ _)⟩
  rename_i prd hprd
  have hpath : prd.path.text = item.key.path := by
    simpa using find?_some hprd
  obtain ⟨⟨row, latest⟩, c₁, hfound, h⟩ := h.of_bind
  obtain ⟨hread, hstore⟩ := requireFound_runs hfound
  obtain ⟨row', hrow, hpair⟩ := map_eq_some_iff.1 hread
  obtain ⟨rfl, rfl⟩ := Prod.mk.inj hpair
  obtain ⟨-, h⟩ := h.of_ensure_bind
  simp only at h
  by_cases hchanged : row'.status ≠ .completed ∨
      (c.store.backlog.latestEvent ⟨repository.key, item.key.path⟩).map (·.eventId) ≠
        some item.statusEventId
  · rw [if_pos hchanged] at h
    obtain ⟨rfl, rfl⟩ := h.of_pure
    exact ⟨hstore, fun hnil ↦ absurd (append_eq_nil_iff.1 hnil).2 (cons_ne_nil _ _)⟩
  · rw [if_neg hchanged] at h
    obtain ⟨rfl, rfl⟩ := h.of_pure
    obtain ⟨hstatus, hlatest⟩ := not_or.1 hchanged
    refine ⟨hstore, fun hnil ↦ ?_⟩
    by_cases hhash : prd.contentHash ≠ item.observedContentHash
    · rw [if_pos hhash] at hnil
      exact absurd (append_eq_nil_iff.1 hnil).2 (cons_ne_nil _ _)
    · rw [if_neg hhash] at hnil
      exact ⟨hnil,
        ⟨prd, mem_reverse.1 (mem_of_find?_eq_some hprd), hpath, not_not.1 hhash⟩,
        ⟨row', hrow, not_not.1 hstatus⟩, map_eq_some_iff.1 (not_not.1 hlatest)⟩

/-- Nothing that is in progress or completed depends on a target, unless it is one. -/
def Independent (s : BootstrapStore) (repository : RepositoryIdentity)
    (discovered : List DiscoveredPrd) (targets : List String) (prd : DiscoveredPrd) : Prop :=
  prd.path.text ∉ targets → ∃ row, s.backlog.row (repository.prdKey prd.path) = some row ∧
    (row.status = .inProgress ∨ row.status = .completed →
      dependsOnTarget prd discovered targets = false)

theorem dependentBlockers_runs {prd : DiscoveredPrd}
    (h : (dependentBlockers repository discovered targets blockers prd).Runs c blockers' c') :
    c'.store = c.store ∧ (blockers' = [] →
      blockers = [] ∧ Independent c.store repository discovered targets prd) := by
  unfold dependentBlockers at h
  by_cases htarget : targets.contains prd.path.text = true
  · rw [if_pos htarget] at h
    obtain ⟨rfl, rfl⟩ := h.of_pure
    exact ⟨rfl, fun hnil ↦ ⟨hnil, fun hnot ↦ absurd (contains_iff_mem.1 htarget) hnot⟩⟩
  rw [if_neg htarget] at h
  obtain ⟨row, c₁, hfound, h⟩ := h.of_bind
  obtain ⟨hrow, hstore⟩ := requireFound_runs hfound
  by_cases hdepends : (row.status = .inProgress ∨ row.status = .completed) ∧
      dependsOnTarget prd discovered targets = true
  · rw [if_pos hdepends] at h
    obtain ⟨rfl, rfl⟩ := h.of_pure
    exact ⟨hstore, fun hnil ↦ absurd (append_eq_nil_iff.1 hnil).2 (cons_ne_nil _ _)⟩
  · rw [if_neg hdepends] at h
    obtain ⟨rfl, rfl⟩ := h.of_pure
    refine ⟨hstore, fun hnil ↦ ⟨hnil, fun _ ↦ ⟨row, hrow, fun hstatus ↦ ?_⟩⟩⟩
    exact Bool.not_eq_true _ ▸ fun hsearch ↦ hdepends ⟨hstatus, hsearch⟩

theorem blockers_runs {α : Type} {f : List String → α → BootstrapQuery (List String)} {as : List α}
    {P : BootstrapStore → α → Prop}
    (hf : ∀ a blockers c blockers' c', (f blockers a).Runs c blockers' c' →
      c'.store = c.store ∧ (blockers' = [] → blockers = [] ∧ P c.store a))
    (h : (Query.foldEach f blockers as).Runs c blockers' c') :
    c'.store = c.store ∧ (blockers' = [] → blockers = [] ∧ ∀ a ∈ as, P c.store a) := by
  refine h.foldEach_invariant (P := fun done found s ↦ s = c.store ∧
    (found = [] → blockers = [] ∧ ∀ a ∈ done, P c.store a))
    ⟨rfl, fun hnil ↦ ⟨hnil, fun _ h ↦ absurd h not_mem_nil⟩⟩ ?_
  rintro done a rest found c₁ found' c₂ - ⟨hs, hdone⟩ hround
  obtain ⟨hstore, hfound⟩ := hf a found c₁ found' c₂ hround
  rw [hs] at hstore hfound
  refine ⟨hstore, fun hnil ↦ ?_⟩
  obtain ⟨hnil', ha⟩ := hfound hnil
  obtain ⟨hblockers, hall⟩ := hdone hnil'
  refine ⟨hblockers, fun a' ha' ↦ ?_⟩
  rcases mem_append.1 ha' with ha' | ha'
  · exact hall a' ha'
  · rw [mem_singleton.1 ha']
    exact ha

def BootstrapRollbackItemRow.listed (row : BootstrapRollbackItemRow) : String × String :=
  (row.rollbackRunId, row.path)

theorem restoreItem_runs {entry : BootstrapItemRow × ℕ}
    (h : (restoreItem repository rollbackId actor entry).Runs c u c') :
    ∃ b row rollbackItems, c.store.backlog.Moves .completed .pending actor
        [(⟨repository.key, row.path⟩, row.statusEventId)] b ∧
      row.listed = (rollbackId, entry.1.key.path) ∧
      rollbackItems.rows = c.store.rollbackItems.rows ++ [row] ∧
      c'.store = { c.store.setBacklog b with rollbackItems } := by
  obtain ⟨item, index⟩ := entry
  obtain ⟨changed, c₁, hmove, h⟩ := h.of_bind
  obtain ⟨rfl, hrest⟩ := h.of_ensure_bind
  obtain ⟨event, c₂, happend, hinsert⟩ := hrest.of_bind
  obtain ⟨b, prd, hstore, -, -, hmoves⟩ := moves_single hmove
    (fun row hrow ↦ of_decide_eq_true hrow) happend
  have hwrite := hinsert.of_write
  split at hwrite
  · obtain ⟨rollbackItems, hitems, hstore'⟩ := map_eq_some_iff.1 hwrite
    rw [hstore] at hitems hstore'
    exact ⟨b, _, rollbackItems, hmoves, rfl, Table.rows_insert hitems, hstore'.symm⟩
  · cases hwrite

def RestoredItems (repository : RepositoryIdentity) (rollbackId actor : String) (s : BootstrapStore)
    (done : List (BootstrapItemRow × ℕ)) (s' : BootstrapStore) : Prop :=
  ∃ b rows rollbackItems, s.backlog.Moves .completed .pending actor
      (rows.map fun row ↦ (⟨repository.key, row.path⟩, row.statusEventId)) b ∧
    rows.map (·.listed) = done.map (fun entry ↦ (rollbackId, entry.1.key.path)) ∧
    rollbackItems.rows = s.rollbackItems.rows ++ rows ∧ s' = { s.setBacklog b with rollbackItems }

theorem restoreItems_runs {entries : List (BootstrapItemRow × ℕ)}
    (h : (Query.forEach entries (restoreItem repository rollbackId actor)).Runs c u c') :
    RestoredItems repository rollbackId actor c.store entries c'.store := by
  refine h.of_forEach (P := RestoredItems repository rollbackId actor c.store)
    ⟨_, [], _, .nil _, rfl, (append_nil _).symm, rfl⟩ ?_
  rintro done entry rest c₁ c₂ - ⟨b, rows, rollbackItems, hmoves, hrows, hitems, hs⟩ hround
  obtain ⟨b', row, rollbackItems', hmove, hrow, hitems', hs'⟩ := restoreItem_runs hround
  rw [hs] at hmove hitems' hs'
  refine ⟨b', rows ++ [row], rollbackItems', ?_, ?_, ?_, hs'⟩
  · rw [map_append]
    exact hmoves.trans hmove (by decide)
  · rw [map_append, map_append, hrows, map_singleton, map_singleton, hrow]
  · rw [hitems', ← append_assoc, ← hitems]

def BootstrapStore.pathsOf (s : BootstrapStore) (runId : String) : List String :=
  (s.itemsOf runId).map (·.key.path)

theorem mem_itemsOf {s : BootstrapStore} {runId : String} :
    item ∈ s.itemsOf runId ↔ item ∈ s.items.rows ∧ item.runId = runId := by
  rw [itemsOf, mem_insertionSort, mem_filter, decide_eq_true_eq]

/-- **What a rollback does.** -/
structure Reverts (repository : RepositoryIdentity) (discovered : List DiscoveredPrd)
    (target actor : String) (result : BootstrapRollbackResult) (s s' : BootstrapStore) : Prop where
  applied : ∃ run ∈ s.runs.rows, run.runId = target ∧ run.repositoryKey = repository.key ∧
    run.status = .applied
  untouched : ∀ item ∈ s.items.rows, item.runId = target → Untouched s repository discovered item
  /-- No other PRD that had been begun depended on one of them. -/
  independent : ∀ prd ∈ discovered, Independent s repository discovered (s.pathsOf target) prd
  moves : ∃ rows : List BootstrapRollbackItemRow,
    rows.map (·.listed) = (s.pathsOf target).reverse.map (result.rollbackRunId, ·) ∧
    s.backlog.Moves .completed .pending actor
      (rows.map fun row ↦ (⟨repository.key, row.path⟩, row.statusEventId)) s'.backlog ∧
    s'.rollbackItems.rows = s.rollbackItems.rows ++ rows
  runs : s'.runs.rows = s.runs.rows.map fun run ↦ if run.runId = target then
    { run with status := .rolledBack, rollbackRunId := some result.rollbackRunId } else run
  items : s'.items = s.items
  /-- The rest of the database is left alone. -/
  frame : s'.database = { s.database with backlog := s'.backlog }

/-- The transaction of `rollback`, as it is run. -/
theorem rollbackBootstrap_runs {result : BootstrapRollbackResult}
    (h : (rollbackBootstrap repository discovered target actor reason rollbackId).Runs
      c result c') :
    Reverts repository discovered target actor result c.store c'.store := by
  obtain ⟨-, h⟩ := h.of_ensure_bind
  obtain ⟨_, c₁, hvalid, h⟩ := h.of_bind
  have hstore₁ := readOnly_validateAllRuns.store_eq hvalid
  obtain ⟨c₂, c₃, hbegin, h, hcommit⟩ := h.of_transaction
  obtain ⟨run, c₄, hfound, h⟩ := h.of_bind
  obtain ⟨hrun, hstore₄⟩ := requireFound_runs hfound
  obtain ⟨hkey, h⟩ := h.of_ensure_bind
  obtain ⟨hstatus, h⟩ := h.of_ensure_bind
  obtain ⟨items, c₅, hread, h⟩ := h.of_bind
  obtain ⟨rfl, hstore₅⟩ := hread.of_read
  obtain ⟨-, h⟩ := h.of_ensure_bind
  obtain ⟨blockers₁, c₆, hitems, h⟩ := h.of_bind
  obtain ⟨blockers₂, c₇, hdependents, h⟩ := h.of_bind
  obtain ⟨hblockers, h⟩ := h.of_ensure_bind
  obtain ⟨_, c₈, hinsert, h⟩ := h.of_bind
  obtain ⟨_, c₉, hrestore, h⟩ := h.of_bind
  obtain ⟨_, rfl, hmark⟩ := h.of_bind_pure
  -- what was looked at is the store that the call found
  have hstore : c₄.store = c.store := hstore₄.trans (hbegin.trans hstore₁)
  rw [hbegin.trans hstore₁] at hrun
  rw [hstore] at hitems hdependents hrestore hstore₅
  obtain ⟨hstore₆, huntouched⟩ := blockers_runs (P := fun s ↦ Untouched s repository discovered)
    (fun _ _ _ _ _ ↦ itemBlockers_runs) hitems
  obtain ⟨hstore₇, hindependent⟩ := blockers_runs
    (P := fun s ↦ Independent s repository discovered (c.store.pathsOf target))
    (fun _ _ _ _ _ ↦ dependentBlockers_runs) hdependents
  rw [hstore₅] at hstore₆ huntouched
  obtain ⟨hnil, hindependent⟩ := hindependent hblockers
  have huntouched := (huntouched hnil).2
  rw [hstore₆] at hstore₇ hindependent
  have hwrite := hinsert.of_write
  split at hwrite
  swap
  · cases hwrite
  obtain ⟨rollbacks, -, hstore₈⟩ := map_eq_some_iff.1 hwrite
  obtain ⟨b, rows, rollbackItems, hmoves, hrows, hitemrows, hs⟩ := restoreItems_runs hrestore
  obtain ⟨runs, hupdate, hs'⟩ := hmark.of_writePart
  rw [hs] at hupdate hs'
  rw [← hstore₈] at hmoves hitemrows hs' hupdate
  rw [hstore₇] at hmoves hitemrows hs' hupdate
  rw [hcommit, hs']
  have hlisted : rows.map (·.listed) = (c.store.pathsOf target).reverse.map (rollbackId, ·) := by
    rw [hrows, pathsOf, ← map_reverse, List.map_map]
    conv_rhs => rw [← zipIdx_map_fst 0 (c.store.itemsOf target).reverse, List.map_map]
    rfl
  obtain ⟨hmem, hid⟩ := Table.find_some hrun
  exact
    { applied := ⟨run, hmem, of_decide_eq_true hid, hkey, hstatus.1⟩
      untouched := fun item hitem hrunId ↦ huntouched item (mem_itemsOf.2 ⟨hitem, hrunId⟩)
      independent := hindependent
      moves := ⟨rows, hlisted, hmoves, hitemrows⟩
      runs := by
        refine (Table.rows_update hupdate).trans (map_congr_left fun run _ ↦ ?_)
        simp
      items := rfl
      frame := rfl }

end Rollback

end FamiliarAi
