import FamiliarAi.Relational.Trail
import FamiliarAi.Storage.Backlog
import FamiliarAi.Storage.Gate

/-!
# What the operations of the backlog store do to it

An operation of the store writes the status of a PRD and its event by different statements. We show
that the two belong together: whatever an operation does to the database, it **evolves** the backlog,
which means that the events of every PRD account for what became of its status, that they are numbered
in the order in which they are written, and that none of them is a claim that the operation may not
make.

The claims an operation may make are a parameter. Only `claimRun` makes any, so for everything else the
parameter is the empty one, and who has claimed a PRD can be read off its events.
-/

namespace FamiliarAi

open Relational List Option

def Backlog.eventsOf (b : Backlog) (key : PrdKey) : List StatusEventRow :=
  b.statusEvents.rows.filter (·.key = key)

def StatusEventRow.transition (event : StatusEventRow) : Transition BacklogStatus :=
  ⟨event.old, event.new⟩

/-- The backlog as a store with trails. A PRD is first recorded as pending, or as completed when it is
archived, and what is completed stays so. -/
def backlogAudit : Audited Backlog PrdKey BacklogStatus where
  value b key := (b.row key).map (·.status)
  trail b key := (b.eventsOf key).map (·.transition)
  Initial status := status = .pending ∨ status = .completed
  Permits old _ := old ≠ .completed

/-- The events are numbered in the order in which they were written. -/
def Backlog.InOrder (b : Backlog) : Prop :=
  b.statusEvents.rows.Pairwise (·.eventId < ·.eventId)

theorem Backlog.InOrder.history_eq {b : Backlog} (h : b.InOrder) (key : PrdKey) :
    b.history key = b.eventsOf key := by
  refine List.Pairwise.insertionSort_eq ?_
  exact (h.filter _).imp Nat.le_of_lt

/-- What an operation that makes no other claims than those given may do to the backlog. -/
structure Backlog.Evolves (claims : PrdKey → String → Prop) (b b' : Backlog) : Prop where
  /-- The events account for what became of every PRD. -/
  extends_ : backlogAudit.Extends b b'
  inOrder : b.InOrder → b'.InOrder
  appends : ∃ events, b'.statusEvents.rows = b.statusEvents.rows ++ events ∧
    ∀ event ∈ events, event.IsClaim → claims event.key event.actor

/-- What an operation may do to the database, as far as the backlog is concerned. -/
def Database.Evolves (claims : PrdKey → String → Prop) (db db' : Database) : Prop :=
  db.backlog.Evolves claims db'.backlog

variable {claims : PrdKey → String → Prop} {b b' : Backlog} {db db' : Database}

namespace Backlog

variable {row : PrdRow}

theorem Evolves.refl (b : Backlog) : b.Evolves claims b where
  extends_ := Std.Refl.refl b
  inOrder := id
  appends := ⟨[], by simp, by simp⟩

theorem Evolves.trans {b'' : Backlog} (h : b.Evolves claims b') (h' : b'.Evolves claims b'') :
    b.Evolves claims b'' where
  extends_ := IsTrans.trans _ _ _ h.extends_ h'.extends_
  inOrder := h'.inOrder ∘ h.inOrder
  appends := by
    obtain ⟨events, hrows, hevents⟩ := h.appends
    obtain ⟨events', hrows', hevents'⟩ := h'.appends
    refine ⟨events ++ events', by rw [hrows', hrows, append_assoc], fun event hevent ↦ ?_⟩
    rcases mem_append.1 hevent with hevent | hevent
    · exact hevents event hevent
    · exact hevents' event hevent

theorem Evolves.of_rows (hevents : b'.statusEvents = b.statusEvents)
    (hrow : ∀ key, backlogAudit.Follows ((b.row key).map (·.status)) []
      ((b'.row key).map (·.status))) : b.Evolves claims b' where
  extends_ key := ⟨[], by simp [backlogAudit, eventsOf, hevents], hrow key⟩
  inOrder h := by
    rw [InOrder, hevents]
    exact h
  appends := ⟨[], by rw [hevents, append_nil], by simp⟩

theorem row_eq_some {key : PrdKey} (h : b.row key = some row) :
    row ∈ b.prds.rows ∧ row.key = key := by
  obtain ⟨hmem, hkey⟩ := Table.find_some h
  exact ⟨hmem, by simpa using hkey⟩

theorem row_of_mem (h : row ∈ b.prds.rows) : b.row row.key = some row :=
  Table.find_eq_of_key h (by simp) fun r _ hr ↦ by simpa [prdSchema] using hr

theorem lt_nextEventId {event : StatusEventRow} (h : event ∈ b.statusEvents.rows) :
    event.eventId < b.nextEventId :=
  Nat.lt_succ_of_le (le_max_of_le' 0 (List.mem_map_of_mem h) le_rfl)

end Backlog

instance : Std.Refl (Database.Evolves claims) :=
  ⟨fun db ↦ .refl db.backlog⟩

instance : IsTrans Database (Database.Evolves claims) :=
  ⟨fun _ _ _ h h' ↦ h.trans h'⟩

section Statements

variable {c c' c₁ c₂ : Connection Database BacklogStoreError} {key : PrdKey} {row : PrdRow}
  {p : PrdRow → Bool} {next : BacklogStatus} {n : ℕ} {u : Unit} {actor : String}

theorem onPrds_runs {α : Type} {f : Table prdSchema → Option (α × Table prdSchema)} {a : α}
    (h : (onPrds f).Runs c a c') :
    ∃ prds, f c.store.backlog.prds = some (a, prds) ∧
      c'.store = { c.store with backlog := { c.store.backlog with prds } } :=
  h.of_changePart

theorem setStatus_runs (h : (setStatus p next).Runs c n c') :
    n = c.store.backlog.prds.count p ∧ c'.store.checkpoints = c.store.checkpoints ∧
      c'.store.reviews = c.store.reviews ∧
      c'.store.backlog.statusEvents = c.store.backlog.statusEvents ∧
      ∀ key, c'.store.backlog.row key =
        (c.store.backlog.row key).map fun r ↦ if p r then { r with status := next } else r := by
  obtain ⟨prds, hprds, hstore⟩ := onPrds_runs h
  obtain ⟨hupdate, rfl⟩ := Table.modify_eq_some hprds
  rw [hstore]
  exact ⟨rfl, rfl, rfl, rfl, fun key ↦ Table.find_update hupdate fun _ ↦ rfl⟩

theorem recordTransition_runs {old new : BacklogStatus}
    (h : (recordTransition key old new actor).Runs c n c') :
    n = c.store.backlog.nextEventId ∧ c'.store.checkpoints = c.store.checkpoints ∧
      c'.store.reviews = c.store.reviews ∧ c'.store.backlog.prds = c.store.backlog.prds ∧
      c'.store.backlog.statusEvents.rows =
        c.store.backlog.statusEvents.rows ++ [⟨n, key, old, new, actor⟩] := by
  have hchange := Query.Runs.of_change h
  split at hchange
  · obtain ⟨events, hinsert, hpair⟩ := map_eq_some_iff.1 hchange
    obtain ⟨rfl, hstore⟩ := Prod.mk.inj hpair
    rw [← hstore]
    exact ⟨rfl, rfl, rfl, rfl, Table.rows_insert hinsert⟩
  · cases hchange

theorem evolves_transition (hset : (setStatus p next).Runs c n c₁)
    (hp : ∀ r, p r = true → r.key = key) (hrow : c.store.backlog.row key = some row)
    (hprow : p row = true) (hstatus : row.status ≠ .completed)
    (hclaims : row.status = .pending → next = .inProgress → claims key actor) {id : ℕ}
    (hrecord : (recordTransition key row.status next actor).Runs c₁ id c₂) :
    c.store.Evolves claims c₂.store := by
  obtain ⟨-, -, -, hevents, hrows⟩ := setStatus_runs hset
  obtain ⟨hid, -, -, hprds, hevents₂⟩ := recordTransition_runs hrecord
  rw [hevents] at hevents₂
  have hrow₂ (k : PrdKey) : c₂.store.backlog.row k =
      (c.store.backlog.row k).map fun r ↦ if p r then { r with status := next } else r := by
    rw [← hrows k]
    exact congrArg (·.find fun r ↦ r.key = k) hprds
  refine ⟨fun k ↦ ?_, fun hinOrder ↦ ?_, ?_⟩
  · refine ⟨(([⟨id, key, row.status, next, actor⟩] : List StatusEventRow).filter
      (·.key = k)).map (·.transition), ?_, ?_⟩
    · show ((c₂.store.backlog.statusEvents.rows.filter _).map _) = _
      rw [hevents₂, filter_append, map_append]
      rfl
    · show backlogAudit.Follows ((c.store.backlog.row k).map _) _ ((c₂.store.backlog.row k).map _)
      rw [hrow₂ k]
      by_cases hk : key = k
      · subst hk
        rw [hrow]
        simp only [map_some, hprow, if_true, filter_cons, decide_true, filter_nil,
          map_cons, map_nil]
        exact Leads.single hstatus
      · -- another PRD keeps its row and gets no event
        have hsame : (c.store.backlog.row k).map (fun r ↦ if p r then { r with status := next } else r)
            = c.store.backlog.row k := by
          rcases hr : c.store.backlog.row k with _ | r
          · rfl
          rw [map_some, if_neg fun hpr ↦
            hk ((hp r hpr).symm.trans (Backlog.row_eq_some hr).2)]
        rw [hsame, filter_cons_of_neg (by simpa using hk)]
        exact Audited.follows_refl _
  · show List.Pairwise _ _
    rw [hevents₂]
    refine pairwise_append.2 ⟨hinOrder, pairwise_singleton _ _, ?_⟩
    intro event hevent new hnew
    rw [mem_singleton.1 hnew]
    have hlt := Backlog.lt_nextEventId (hevents ▸ hevent : event ∈ c₁.store.backlog.statusEvents.rows)
    rw [← hid] at hlt
    exact hlt
  · refine ⟨[⟨id, key, row.status, next, actor⟩], hevents₂, fun event hevent hclaim ↦ ?_⟩
    obtain rfl := mem_singleton.1 hevent
    exact hclaims hclaim.1 hclaim.2

theorem exists_row_of_setStatus (hset : (setStatus p next).Runs c 1 c₁)
    (hp : ∀ r, p r = true → r.key = key) :
    ∃ row, c.store.backlog.row key = some row ∧ p row = true := by
  obtain ⟨hcount, -⟩ := setStatus_runs hset
  obtain ⟨row, hmem, hprow⟩ := Table.count_pos_iff.1 (by omega : 0 < c.store.backlog.prds.count p)
  exact ⟨row, hp row hprow ▸ Backlog.row_of_mem hmem, hprow⟩

end Statements

section Reconciliation

variable {repository : RepositoryIdentity} {c c' : Connection Database BacklogStoreError}
  {prds prds' : Table prdSchema}

theorem row_update_status {p : PrdRow → Bool} {f : PrdRow → PrdRow}
    (h : prds.update p f = some prds') (hkey : ∀ r, (f r).key = r.key)
    (hstatus : ∀ r, (f r).status = r.status) (key : PrdKey) :
    (prds'.find (·.key = key)).map (·.status) = (prds.find (·.key = key)).map (·.status) := by
  rw [Table.find_update h fun r ↦ by rw [hkey], Option.map_map]
  refine congrArg (Option.map · _) (funext fun r ↦ ?_)
  show (if p r then f r else r).status = r.status
  split
  · exact hstatus r
  · rfl

theorem upsertPrd_follows {key : PrdKey} {prd : DiscoveredPrd}
    (h : upsertPrd key prd prds = some prds') (k : PrdKey) :
    backlogAudit.Follows ((prds.find (·.key = k)).map (·.status)) []
      ((prds'.find (·.key = k)).map (·.status)) := by
  rw [upsertPrd] at h
  split at h
  · rw [row_update_status h (fun _ ↦ rfl) fun _ ↦ rfl]
    exact Audited.follows_refl _
  · rw [Table.find_insert h]
    cases hfind : prds.find (·.key = k) with
    | some r => exact Audited.follows_refl (some r.status)
    | none =>
      rw [none_or]
      split
      · refine ⟨_, ?_, rfl⟩
        show initialStatus prd.location = .pending ∨ initialStatus prd.location = .completed
        cases prd.location with
        | active => exact .inl rfl
        | archived => exact .inr rfl
      · rfl

theorem carries_markMissing : (markMissing repository).Carries (Database.Evolves claims) := by
  intro c u c' h
  obtain ⟨n, -, hprds⟩ := h.of_bind_pure
  obtain ⟨prds, hmodify, hstore⟩ := onPrds_runs hprds
  obtain ⟨hupdate, -⟩ := Table.modify_eq_some hmodify
  rw [hstore]
  refine Backlog.Evolves.of_rows rfl fun key ↦ ?_
  show backlogAudit.Follows ((c.store.backlog.prds.find _).map _) [] ((prds.find _).map _)
  rw [row_update_status hupdate (fun _ ↦ rfl) fun _ ↦ rfl]
  exact Audited.follows_refl _

theorem carries_reconcilePrd (prd : DiscoveredPrd) :
    (reconcilePrd repository prd).Carries (Database.Evolves claims) := by
  refine .bind (fun c u c' h ↦ ?_) fun _ ↦ ?_
  · obtain ⟨prds, hprds, hstore⟩ := onPrds_runs h
    obtain ⟨prds', hupsert, hpair⟩ := map_eq_some_iff.1 hprds
    rw [hstore, ← (Prod.mk.inj hpair).2]
    exact Backlog.Evolves.of_rows rfl (upsertPrd_follows hupsert)
  · -- what is archived is moved to completed, from whatever it was found to be
    intro c u c' h
    rcases Query.runs_when.1 h with ⟨-, h⟩ | ⟨-, rfl⟩
    · obtain ⟨row, c₁, hrow, h⟩ := h.of_bind
      obtain ⟨hrow, hstore⟩ := requireRow_runs hrow
      rcases Query.runs_when.1 h with ⟨hstatus, h⟩ | ⟨-, rfl⟩
      · obtain ⟨n, c₂, hset, h⟩ := h.of_bind
        obtain ⟨id, -, hrecord⟩ := h.of_bind_pure
        rw [← hstore] at hrow ⊢
        have hkey := (Backlog.row_eq_some hrow).2
        exact evolves_transition hset (by simp) hrow (by simp [hkey]) hstatus nofun hrecord
      · rw [hstore]
        exact Std.Refl.refl _
    · exact Std.Refl.refl _

theorem carries_reconcile (discovered : List DiscoveredPrd) :
    (reconcile repository discovered).Carries (Database.Evolves claims) :=
  carries_markMissing.bind fun _ ↦ .forEach carries_reconcilePrd discovered

theorem readOnly_readEntry (prd : DiscoveredPrd) : (readEntry repository prd).ReadOnly :=
  inspects_requireRow.readOnly.bind fun _ ↦ .pure

theorem readOnly_readEntries (prds : List DiscoveredPrd) :
    (readEntries repository prds).ReadOnly := by
  induction prds with
  | nil => exact .pure
  | cons prd prds ih =>
    exact (readOnly_readEntry prd).bind fun _ ↦ ih.bind fun _ ↦ .pure

theorem readEntries_runs {prds : List DiscoveredPrd} {entries : List BacklogEntry}
    (h : (readEntries repository prds).Runs c entries c') :
    c'.store = c.store ∧ ∀ entry ∈ entries, entry.prd ∈ prds ∧
      ∃ row, c.store.backlog.row (repository.prdKey entry.prd.path) = some row ∧
        row.status = entry.status ∧ row.missing = false := by
  refine ⟨(readOnly_readEntries prds).store_eq h, ?_⟩
  induction prds generalizing c c' entries with
  | nil =>
    obtain ⟨rfl, -⟩ := h.of_pure
    exact nofun
  | cons prd prds ih =>
    obtain ⟨entry, c₁, hentry, h⟩ := h.of_bind
    obtain ⟨rest, c₂, hrest, hpure⟩ := h.of_bind
    obtain ⟨rfl, -⟩ := hpure.of_pure
    obtain ⟨row, c₃, hrow, hpure⟩ := hentry.of_bind
    obtain ⟨hrow, hstore⟩ := requireRow_runs hrow
    obtain ⟨rfl, rfl⟩ := hpure.of_pure
    obtain ⟨hrow, hmissing⟩ := filter_eq_some_iff.1 hrow
    have hrest := ih hrest
    rw [hstore] at hrest
    intro entry hentry
    rcases mem_cons.1 hentry with rfl | hentry
    · exact ⟨mem_cons_self, row, hrow, rfl, by simpa using hmissing⟩
    · obtain ⟨hmem, hentry⟩ := hrest entry hentry
      exact ⟨mem_cons_of_mem _ hmem, hentry⟩

end Reconciliation

/-! ### The operations -/

section Operations

variable {sha256 : Sha256} {parseRequest : List Char → Except String ReviewRequest}
  {repository : RepositoryIdentity} {target : DiscoveredPrd} {discovered : List DiscoveredPrd}
  {key : PrdKey} {actor reason : String} {α : Type}

theorem carries_of_backlog {m : DatabaseQuery α}
    (h : m.Carries fun db db' ↦ db'.backlog = db.backlog) :
    m.Carries (Database.Evolves claims) := by
  intro c a c' hm
  show c.store.backlog.Evolves claims c'.store.backlog
  rw [h c a c' hm]
  exact .refl _

theorem carries_recordRecovery (eventId : ℕ) (action : BacklogRecoveryAction) :
    (recordRecovery eventId action reason).Carries (Database.Evolves claims) := by
  intro c u c' h
  have hwrite := Query.Runs.of_write h
  split at hwrite
  · obtain ⟨recoveryEvents, -, hstore⟩ := map_eq_some_iff.1 hwrite
    rw [← hstore]
    exact Backlog.Evolves.of_rows rfl fun key ↦ Audited.follows_refl _
  · cases hwrite

theorem carries_onCheckpoints {f : Table checkpointSchema → Option (α × Table checkpointSchema)} :
    (onCheckpoints f).Carries (Database.Evolves claims) := by
  refine carries_of_backlog fun c a c' h ↦ ?_
  obtain ⟨rows, -, hstore⟩ := Query.Runs.of_changePart h
  rw [hstore]

theorem carries_recordCheckpointEvent (checkpointId eventType : String)
    (priorPhase : Option CheckpointPhase) (resultingPhase : CheckpointPhase) (detail : String) :
    (recordCheckpointEvent checkpointId eventType priorPhase resultingPhase detail).Carries
      (Database.Evolves claims) := by
  refine .readOnly_bind .read fun sequence ↦ carries_of_backlog fun c u c' h ↦ ?_
  have hwrite := Query.Runs.of_write h
  split at hwrite
  · obtain ⟨events, -, hstore⟩ := map_eq_some_iff.1 hwrite
    rw [← hstore]
  · cases hwrite

theorem carries_transition {p : PrdRow → Bool} {old next : BacklogStatus} {e : BacklogStoreError}
    {f : ℕ → DatabaseQuery α} (hp : ∀ r, p r = true → r.key = key ∧ r.status = old)
    (hold : old ≠ .completed) (hclaims : old = .pending → next = .inProgress → claims key actor)
    (hf : ∀ id, (f id).Carries (Database.Evolves claims)) :
    (setStatus p next >>= fun changed ↦ Query.ensure (changed = 1) e >>= fun _ ↦
      recordTransition key old next actor >>= f).Carries (Database.Evolves claims) := by
  intro c a c' h
  obtain ⟨changed, c₁, hset, h⟩ := h.of_bind
  obtain ⟨rfl, hensured⟩ := h.of_ensure_bind
  obtain ⟨id, c₃, hrecord, hrest⟩ := hensured.of_bind
  obtain ⟨row, hrow, hprow⟩ := exists_row_of_setStatus hset fun r hr ↦ (hp r hr).1
  obtain ⟨-, rfl⟩ := hp row hprow
  have hevolves : c.store.Evolves claims c₃.store :=
    evolves_transition hset (fun r hr ↦ (hp r hr).1) hrow hprow hold hclaims hrecord
  exact hevolves.trans (hf id c₃ a c' hrest)

theorem readOnly_requireIdentityRow : (requireIdentityRow repository target).ReadOnly :=
  inspects_requireRow.readOnly.bind fun _ ↦ .bind .ensure fun _ ↦ .pure

theorem respects_recoverPrd (action : BacklogRecoveryAction) :
    (recoverPrd repository target action actor reason).Respects (Database.Evolves claims) := by
  refine Query.Respects.bind (.of_readOnly Query.ReadOnly.ofExcept) fun attribution ↦ ?_
  refine Query.Carries.transaction ?_
  refine .readOnly_bind readOnly_requireIdentityRow fun row ↦ ?_
  refine .readOnly_bind Query.ReadOnly.ensure fun _ ↦ ?_
  refine .readOnly_bind Query.ReadOnly.read fun latest ↦ ?_
  refine .readOnly_bind Query.ReadOnly.ensure fun _ ↦ ?_
  refine carries_transition (fun r hr ↦ ?_) nofun nofun fun id ↦ ?_
  · simp only [decide_eq_true_eq] at hr
    exact ⟨hr.1, hr.2.1⟩
  · exact (carries_recordRecovery id action).bind fun _ ↦ .of_readOnly Query.ReadOnly.pure

theorem respects_recordComplete :
    (recordComplete repository discovered target actor reason).Respects
      (Database.Evolves claims) := by
  refine .bind (.of_readOnly .ofExcept) fun attribution ↦ ?_
  refine Query.Carries.transaction ?_
  refine .readOnly_bind readOnly_requireIdentityRow fun row ↦ ?_
  refine .readOnly_bind Query.ReadOnly.ensure fun _ ↦ ?_
  refine (carries_reconcile discovered).bind fun _ ↦ ?_
  refine .readOnly_bind (readOnly_readEntries discovered) fun entries ↦ ?_
  refine .readOnly_bind Query.ReadOnly.ensure fun _ ↦ ?_
  refine carries_transition (fun r hr ↦ ?_) nofun nofun fun id ↦ ?_
  · simp only [decide_eq_true_eq] at hr
    exact ⟨hr.1, hr.2.1⟩
  · exact (carries_recordRecovery id _).bind fun _ ↦ .of_readOnly Query.ReadOnly.pure

theorem respects_approveAndComplete (approvedDiffHash commit : String) :
    (approveAndComplete repository target actor reason approvedDiffHash commit).Respects
      (Database.Evolves claims) := by
  refine .bind (.of_readOnly .ofExcept) fun attribution ↦ ?_
  refine .bind (.of_readOnly .ensure) fun _ ↦ ?_
  refine Query.Carries.transaction ?_
  refine .readOnly_bind inspects_requireRow.readOnly fun row ↦ ?_
  intro c a c' h
  -- what the row was found to be decides that it is not completed already
  obtain ⟨⟨hstatus, -⟩, h⟩ := h.of_ensure_bind
  have hold : row.status ≠ .completed := by
    rintro hcompleted
    rw [hcompleted] at hstatus
    rcases hstatus with hstatus | hstatus <;> cases hstatus
  refine Query.Carries.readOnly_bind inspects_requireRow.readOnly (fun checkpoint ↦ ?_) c a c' h
  refine .readOnly_bind Query.ReadOnly.ensure fun _ ↦ ?_
  refine .readOnly_bind Query.ReadOnly.ensure fun _ ↦ ?_
  refine carries_transition (fun r hr ↦ ?_) hold nofun fun id ↦ ?_
  · simp only [decide_eq_true_eq] at hr
    exact ⟨hr.1, hr.2.1⟩
  · refine (carries_recordRecovery id _).bind fun _ ↦ carries_onCheckpoints.bind fun changed ↦ ?_
    refine .readOnly_bind .ensure fun _ ↦ ?_
    exact (carries_recordCheckpointEvent _ _ _ _ _).bind fun _ ↦
      .of_readOnly .pure

theorem respects_claimRun (hclaims : claims (repository.prdKey target.path) actor) :
    (claimRun repository discovered target actor).Respects (Database.Evolves claims) := by
  refine Query.Respects.bind (.of_readOnly Query.ReadOnly.ofExcept) fun _ ↦ ?_
  refine Query.Carries.transaction ?_
  refine .readOnly_bind Query.ReadOnly.read fun persisted ↦ ?_
  refine .readOnly_bind Query.ReadOnly.ensure fun _ ↦ ?_
  refine (carries_reconcile discovered).bind fun _ ↦ ?_
  refine .readOnly_bind (readOnly_readEntries discovered) fun entries ↦ ?_
  refine .readOnly_bind Query.ReadOnly.ofExcept fun _ ↦ ?_
  refine carries_transition (fun r hr ↦ ?_) nofun (fun _ _ ↦ hclaims) fun id ↦ ?_
  · simp only [decide_eq_true_eq] at hr
    exact ⟨hr.1, hr.2.2.2⟩
  · exact .of_readOnly Query.ReadOnly.pure

theorem readOnly_missingIsLandingArchive {row : PrdRow} :
    (missingIsLandingArchive repository target row).ReadOnly := by
  rw [missingIsLandingArchive]
  split
  · exact .read
  · exact .pure

theorem respects_completeRunWith {finalize : DatabaseQuery Unit}
    (hfinalize : finalize.Carries (Database.Evolves claims)) (executionId : String)
    (requiredChecks : List String) :
    (completeRunWith sha256 parseRequest repository target executionId actor requiredChecks
      finalize).Respects (Database.Evolves claims) := by
  refine .bind (.of_readOnly .ofExcept) fun _ ↦ ?_
  refine Query.Carries.transaction ?_
  refine .readOnly_bind inspects_requireRow.readOnly fun row ↦ ?_
  refine .readOnly_bind readOnly_missingIsLandingArchive fun landed ↦ ?_
  refine .readOnly_bind Query.ReadOnly.ensure fun _ ↦ ?_
  refine .readOnly_bind inspects_requireRow.readOnly fun latest ↦ ?_
  refine .readOnly_bind Query.ReadOnly.ensure fun _ ↦ ?_
  refine .readOnly_bind inspects_requireReview.readOnly fun _ ↦ ?_
  refine carries_transition (fun r hr ↦ ?_) nofun nofun fun id ↦ ?_
  · simpa using hr
  · exact hfinalize.bind fun _ ↦ .of_readOnly Query.ReadOnly.pure

def BacklogCall.claim? (key : PrdKey) : BacklogCall → Option String
  | .claimRun repository _ target actor =>
    if repository.prdKey target.path = key then some actor else none
  | _ => none

/-- **Every call evolves the backlog**, whether it succeeds or fails. -/
theorem respects_query (call : BacklogCall) :
    (call.query sha256 parseRequest).Respects
      (Database.Evolves fun key actor ↦ call.claim? key = some actor) := by
  cases call with
  | reconcile repository discovered =>
    refine .bind ?_ fun _ ↦ .of_readOnly .pure
    refine .transaction ((carries_reconcile discovered).bind fun _ ↦ ?_)
    exact .of_readOnly (readOnly_readEntries discovered)
  | reconcilePrd repository prd =>
    refine .bind ?_ fun _ ↦ .of_readOnly .pure
    exact .transaction (carries_reconcilePrd prd)
  | claimRun repository discovered target actor =>
    exact (respects_claimRun (if_pos rfl)).bind fun _ ↦ .of_readOnly .pure
  | completeRun repository target executionId actor requiredChecks =>
    refine .bind ?_ fun _ ↦ .of_readOnly .pure
    exact respects_completeRunWith (.of_readOnly .pure) executionId requiredChecks
  | recover repository target action actor reason =>
    exact (respects_recoverPrd action).bind fun _ ↦ .of_readOnly .pure
  | recordComplete repository discovered target actor reason =>
    exact respects_recordComplete.bind fun _ ↦ .of_readOnly .pure
  | approveAndComplete repository target actor reason approvedDiffHash commit =>
    exact (respects_approveAndComplete approvedDiffHash commit).bind fun _ ↦
      .of_readOnly .pure

end Operations

end FamiliarAi
