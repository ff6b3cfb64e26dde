import FamiliarAi.Storage.History

/-!
# Claims

A PRD is claimed by a run before it is worked on, so that no two runs work on it at once. We show that
the store enforces it in every interleaving of the operations: **a claim succeeds only on a PRD that may
be run, no other claim of it succeeds before its status has changed again, and only the run that has
claimed it completes it.**

Each operation is one transaction, so an interleaving of any number of runs and operators is a sequence
of operations. Between them, others may write the tables of the checkpoints and of the reviews.
-/

namespace FamiliarAi

open Relational Option

variable {sha256 : Sha256} {parseRequest : List Char → Except String ReviewRequest}
  {repository : RepositoryIdentity} {target : DiscoveredPrd} {discovered : List DiscoveredPrd}
  {actor : String} {c c' : Connection Database BacklogStoreError} {last : Option String}
  {key : PrdKey} {entry : BacklogEntry} {db : Database}

/-- What a claim has found, and what it leaves. -/
structure ClaimedPrd (repository : RepositoryIdentity) (discovered : List DiscoveredPrd)
    (target : DiscoveredPrd) (before after : Backlog) : Prop where
  pending : ∃ row, before.row (repository.prdKey target.path) = some row ∧ row.status = .pending ∧
    row.contentHash = target.contentHash ∧ row.missing = false
  location : target.location = .active
  hold : frontMatterHold target = none
  dependencies : ∀ id ∈ target.dependencies, ∃ prd ∈ discovered, (prd.id == id) = true ∧
    ∃ row, after.row (repository.prdKey prd.path) = some row ∧ row.status = .completed ∧
      row.missing = false
  claimed : ∃ row, after.row (repository.prdKey target.path) = some row ∧
    row.status = .inProgress ∧ row.contentHash = target.contentHash ∧ row.missing = false

theorem claimRun_runs (h : (claimRun repository discovered target actor).Runs c entry c') :
    ClaimedPrd repository discovered target c.store.backlog c'.store.backlog ∧
      ∃ event, (c'.store.backlog.eventsOf (repository.prdKey target.path)).getLast? = some event ∧
        event.IsClaim ∧ event.actor = actor := by
  obtain ⟨_, -, h⟩ := h.of_ofExcept_bind
  obtain ⟨c₂, c₃, hbegin, hbody, hend⟩ := h.of_transaction
  obtain ⟨c₄, hstore₄, hbody⟩ := hbody.of_read_bind
  obtain ⟨hpersisted, hbody⟩ := hbody.of_ensure_bind
  obtain ⟨_, c₆, -, hbody⟩ := hbody.of_bind
  obtain ⟨entries, c₇, hentries, hbody⟩ := hbody.of_bind
  obtain ⟨hstore₇, hentries⟩ := readEntries_runs hentries
  obtain ⟨_, c₈, hadmitted, hbody⟩ := hbody.of_bind
  obtain ⟨hadmitted, rfl⟩ := hadmitted.of_ofExcept
  obtain ⟨changed, c₉, hset, hbody⟩ := hbody.of_bind
  obtain ⟨rfl, hbody⟩ := hbody.of_ensure_bind
  obtain ⟨id, -, hrecord⟩ := hbody.of_bind_pure
  have hadmitted : admitRunPrd entries target = .ok () := by
    cases hresult : admitRunPrd entries target with
    | ok _ => rfl
    | error e => rw [hresult] at hadmitted; cases hadmitted
  obtain ⟨hlocation, hhold, hunmet⟩ := admitRunPrd_eq_ok hadmitted
  obtain ⟨row, hrow, hprow⟩ := exists_row_of_setStatus hset fun r hr ↦ (of_decide_eq_true hr).1
  obtain ⟨-, -, -, -, hrows⟩ := setStatus_runs hset
  obtain ⟨-, -, -, hprds, hevents⟩ := recordTransition_runs hrecord
  -- the row of a PRD after the claim, from its row after the reconciliation
  have hafter (k : PrdKey) : c'.store.backlog.row k = c₉.store.backlog.row k := by
    rw [hend]
    exact congrArg (·.find fun r ↦ r.key = k) hprds
  refine ⟨⟨?_, hlocation, hhold, fun id hid ↦ ?_, ?_⟩, ?_⟩
  · obtain ⟨row, hrow, hstatus, hhash, hmissing⟩ := hpersisted
    exact ⟨row, by rw [← hbegin]; exact hrow, hstatus, hhash, hmissing⟩
  · obtain ⟨dependency, hmem, hid, hcompleted⟩ := exists_completed_of_unmet hunmet hid
    obtain ⟨hdiscovered, row, hrow, hstatus, hmissing⟩ := hentries dependency hmem
    refine ⟨dependency.prd, hdiscovered, hid, row, ?_, hstatus.trans hcompleted, hmissing⟩
    rw [hafter, hrows, hstore₇, hrow, map_some, if_neg]
    -- a completed row does not meet the condition of the claim
    rw [decide_eq_true_eq]
    rintro ⟨-, -, -, hpending⟩
    rw [hstatus, hcompleted] at hpending
    cases hpending
  · obtain ⟨-, hhash, hmissing, -⟩ := of_decide_eq_true hprow
    refine ⟨{ row with status := .inProgress }, ?_, rfl, hhash, hmissing⟩
    rw [hafter, hrows, hrow, map_some, if_pos hprow]
  · refine ⟨⟨id, repository.prdKey target.path, .pending, .inProgress, actor⟩, ?_, ⟨rfl, rfl⟩, rfl⟩
    show (List.filter _ c'.store.backlog.statusEvents.rows).getLast? = _
    rw [hend, hevents, List.filter_append, List.filter_cons_of_pos (by simp), List.filter_nil,
      List.getLast?_append_cons]
    rfl

section LastClaim

variable (sha256 : Sha256) (parseRequest : List Char → Except String ReviewRequest)

def BacklogStep.claim? (db : Database) (key : PrdKey) : BacklogStep → Option String
  | .call operation faults =>
    match ((operation.query sha256 parseRequest).run ⟨db, faults⟩).1 with
    | .ok _ => operation.claim? key
    | .error _ => none
  | .elsewhere _ _ => none

def lastClaim (key : PrdKey) : Database → Option String → List BacklogStep → Option String
  | _, last, [] => last
  | db, last, step :: steps =>
    lastClaim key (db.step sha256 parseRequest step)
      ((step.claim? sha256 parseRequest db key).or last) steps

end LastClaim

def OwnsClaim (b : Backlog) (key : PrdKey) (last : Option String) : Prop :=
  ∀ event ∈ (b.eventsOf key).getLast?, event.IsClaim → last = some event.actor

theorem eq_claimRun_of_claim? {call : BacklogCall} (h : call.claim? key = some actor) :
    ∃ repository discovered target,
      call = .claimRun repository discovered target actor ∧
        repository.prdKey target.path = key := by
  cases call with
  | claimRun repository discovered target actor' =>
    rw [BacklogCall.claim?] at h
    split_ifs at h with hkey
    obtain rfl := some.inj h
    exact ⟨repository, discovered, target, rfl, hkey⟩
  | _ => cases h

theorem OwnsClaim.of_appends {b b' : Backlog} (h : OwnsClaim b key last)
    {events : List StatusEventRow} (hrows : b'.statusEvents.rows = b.statusEvents.rows ++ events)
    (hevents : ∀ event ∈ events, event.key = key → ¬event.IsClaim) : OwnsClaim b' key last := by
  intro event hevent hclaim
  rw [Backlog.eventsOf, hrows, List.filter_append, List.getLast?_append] at hevent
  rcases hlast : (events.filter (·.key = key)).getLast? with _ | event'
  · rw [hlast, none_or] at hevent
    exact h event hevent hclaim
  · rw [hlast, some_or] at hevent
    obtain rfl := some.inj hevent
    obtain ⟨hmem, hkey⟩ := List.mem_filter.1 (List.mem_of_getLast? hlast)
    exact absurd hclaim (hevents event' hmem (of_decide_eq_true hkey))

theorem ownsClaim_step (h : OwnsClaim db.backlog key last) (step : BacklogStep) :
    OwnsClaim (db.step sha256 parseRequest step).backlog key
      ((step.claim? sha256 parseRequest db key).or last) := by
  cases step with
  | elsewhere checkpoints reviews => exact h
  | call operation faults =>
    have hevolves := @respects_query sha256 parseRequest operation ⟨db, faults⟩
    show OwnsClaim ((operation.query sha256 parseRequest).run ⟨db, faults⟩).2.store.backlog key
      (or (match ((operation.query sha256 parseRequest).run ⟨db, faults⟩).1 with
        | .ok _ => operation.claim? key
        | .error _ => none) last)
    rcases hrun : (operation.query sha256 parseRequest).run ⟨db, faults⟩ with ⟨answer | answer, c'⟩
    · have hstore : c'.store = db := query_atomic operation _ _ _ hrun
      rw [hstore]
      exact h
    · rw [hrun] at hevolves
      rcases hclaim : operation.claim? key with _ | actor
      · -- no event of this PRD is a claim
        obtain ⟨events, hrows, hevents⟩ := hevolves.appends
        refine h.of_appends hrows fun event hevent hkey hisClaim ↦ ?_
        have hsome := hevents event hevent hisClaim
        rw [hkey, hclaim] at hsome
        cases hsome
      · -- the last event of this PRD is the claim
        obtain ⟨repository, discovered, target, rfl, rfl⟩ := eq_claimRun_of_claim? hclaim
        obtain ⟨entry, -, hclaimRun⟩ := Query.Runs.of_bind_pure hrun
        obtain ⟨-, event, hlast, -, hactor⟩ := claimRun_runs hclaimRun
        intro event' hevent' _
        rw [hlast] at hevent'
        obtain rfl := some.inj hevent'
        rw [hactor]
        rfl

theorem ownsClaim_run (steps : List BacklogStep) (h : OwnsClaim db.backlog key last) :
    OwnsClaim (db.run sha256 parseRequest steps).backlog key
      (lastClaim sha256 parseRequest key db last steps) := by
  induction steps generalizing db last with
  | nil => exact h
  | cons step steps ih => exact ih (ownsClaim_step h step)

/-! ### Completions -/

/-- The actor was the last to claim the PRD, and the row of the PRD is in progress on the content
that was discovered. -/
structure ClaimStands (repository : RepositoryIdentity) (target : DiscoveredPrd) (actor : String)
    (db : Database) : Prop where
  runActor : IsRunActor actor
  row : ∃ row, db.backlog.row (repository.prdKey target.path) = some row ∧
    row.status = .inProgress ∧ row.contentHash = target.contentHash
  claim : ∃ latest, db.backlog.latestEvent (repository.prdKey target.path) = some latest ∧
    latest.IsClaim ∧ latest.actor = actor

def RowMissing (repository : RepositoryIdentity) (target : DiscoveredPrd) (db : Database) : Prop :=
  ∃ row, db.backlog.row (repository.prdKey target.path) = some row ∧ row.missing = true

/-- The run may be completed: its claim stands, and if the row is missing, it counts as archived. -/
structure RunIsOpen (repository : RepositoryIdentity) (target : DiscoveredPrd) (actor : String)
    (db : Database) : Prop extends ClaimStands repository target actor db where
  archived : RowMissing repository target db →
    db.backlog.archivedTwinCompleted repository.key target.number = true

theorem missingIsLandingArchive_runs {row : PrdRow} {landed : Bool}
    (h : (missingIsLandingArchive repository target row).Runs c landed c') :
    landed =
      (row.missing && c.store.backlog.archivedTwinCompleted repository.key target.number) := by
  rw [missingIsLandingArchive] at h
  split at h
  · rename_i hmissing
    rw [hmissing, Bool.true_and]
    exact h.of_read.1
  · rename_i hpresent
    rw [Bool.eq_false_of_not_eq_true hpresent, Bool.false_and]
    exact (Query.runs_pure.1 h).1.symm

theorem completeRunWith_gates {executionId : String} {requiredChecks : List String}
    {finalize : DatabaseQuery Unit}
    (h : (completeRunWith sha256 parseRequest repository target executionId actor requiredChecks finalize).Runs c entry c')
    :
    RunIsOpen repository target actor c.store ∧
      (requireReview sha256 parseRequest executionId requiredChecks).Returns c.store ()
        c.store := by
  obtain ⟨_, c₁, hactor, h⟩ := h.of_bind
  obtain ⟨hactor, rfl⟩ := hactor.of_ofExcept
  have hrunActor : IsRunActor actor := by
    rw [validateRunActor] at hactor
    by_contra hnot
    rw [if_neg hnot] at hactor
    cases hactor
  obtain ⟨c₂, c₃, hbegin, hbody, -⟩ := h.of_transaction
  obtain ⟨row, c₄, hrow, hbody⟩ := hbody.of_bind
  obtain ⟨hrow, hrowStore⟩ := requireRow_runs hrow
  obtain ⟨landed, c₅, hlanded, hbody⟩ := hbody.of_bind
  obtain ⟨⟨hstatus, hhash, hmissing⟩, hbody⟩ := hbody.of_ensure_bind
  obtain ⟨latest, c₇, hlatest, hbody⟩ := hbody.of_bind
  obtain ⟨hlatest, hlatestStore⟩ := requireRow_runs hlatest
  obtain ⟨⟨hclaim, hlast⟩, hbody⟩ := hbody.of_ensure_bind
  obtain ⟨_, c₉, hreview, -⟩ := hbody.of_bind
  have hreview := inspects_requireReview.returns _ _ _ hreview
  have hlandedStore := readOnly_missingIsLandingArchive.store_eq hlanded
  rw [missingIsLandingArchive_runs hlanded, hrowStore, hbegin] at hmissing
  rw [hlandedStore, hrowStore, hbegin] at hlatest
  rw [hlatestStore, hlandedStore, hrowStore, hbegin] at hreview
  rw [hbegin] at hrow
  refine ⟨⟨⟨hrunActor, ⟨row, hrow, hstatus, hhash⟩, latest, hlatest, hclaim, hlast⟩, ?_⟩, hreview⟩
  rintro ⟨missingRow, hmissingRow, hm⟩
  obtain rfl := some.inj (hrow.symm.trans hmissingRow)
  exact (Bool.and_eq_true_iff.1 (hmissing hm)).2

/-- **Claims are exclusive.** In every interleaving of the operations: a claim succeeds only on a
pending PRD that may be run; while the events of a claimed PRD stay as the claim has left them, no other
claim of it succeeds; and a completion succeeds only for the actor of the last claim. -/
theorem claims_exclusive (sha256 : Sha256)
    (parseRequest : List Char → Except String ReviewRequest) (steps : List BacklogStep) :
    (∀ repository discovered target actor faults entry c',
      (claimRun repository discovered target actor).Runs
          ⟨Database.run sha256 parseRequest .empty steps, faults⟩ entry c' →
        ClaimedPrd repository discovered target
            (Database.run sha256 parseRequest .empty steps).backlog c'.store.backlog ∧
          ∀ later discovered' target' actor' faults' entry' c'',
            repository.prdKey target'.path = repository.prdKey target.path →
            (c'.store.run sha256 parseRequest later).backlog.history
                (repository.prdKey target.path) =
              c'.store.backlog.history (repository.prdKey target.path) →
            ¬(claimRun repository discovered' target' actor').Runs
              ⟨c'.store.run sha256 parseRequest later, faults'⟩ entry' c'') ∧
      ∀ repository target executionId actor requiredChecks faults entry c',
        (completeRun sha256 parseRequest repository target executionId actor requiredChecks).Runs
            ⟨Database.run sha256 parseRequest .empty steps, faults⟩ entry c' →
          lastClaim sha256 parseRequest (repository.prdKey target.path) .empty none steps =
            some actor := by
  have hsound : (Database.run sha256 parseRequest .empty steps).backlog.Sound :=
    Database.sound_run .empty steps
  constructor
  · intro repository discovered target actor faults entry c' h
    obtain ⟨hclaimed, event, hlast, hclaim, -⟩ := claimRun_runs h
    refine ⟨hclaimed, ?_⟩
    intro later discovered' target' actor' faults' entry' c'' hkey hhistory h'
    -- as long as the events are the same, the status is where they end
    have hrespects : (claimRun repository discovered target actor).Respects
        (Database.Evolves fun _ _ ↦ True) := respects_claimRun trivial
    have hsound' : c'.store.backlog.Sound := hsound.evolves (hrespects.of_runs h)
    have hsound'' : (c'.store.run sha256 parseRequest later).backlog.Sound :=
      Database.sound_run hsound' later
    rw [hsound'.inOrder.history_eq] at hhistory
    rw [← hhistory] at hlast
    obtain ⟨row, hrow, hstatus⟩ := hsound''.status_of_getLast hlast
    obtain ⟨row', hrow', hpending, -⟩ := (claimRun_runs h').1.pending
    rw [hkey] at hrow'
    obtain rfl := some.inj (hrow.symm.trans hrow')
    rw [hstatus, hclaim.2] at hpending
    cases hpending
  · intro repository target executionId actor requiredChecks faults entry c' h
    obtain ⟨event, hlatest, hclaim, rfl⟩ := (completeRunWith_gates h).1.claim
    have howns : OwnsClaim (Database.run sha256 parseRequest .empty steps).backlog
        (repository.prdKey target.path)
        (lastClaim sha256 parseRequest (repository.prdKey target.path) .empty none steps) :=
      ownsClaim_run steps nofun
    have hlatest : ((Database.run sha256 parseRequest .empty steps).backlog.history
        (repository.prdKey target.path)).getLast? = some event := hlatest
    rw [hsound.inOrder.history_eq] at hlatest
    exact howns event hlatest hclaim

end FamiliarAi
