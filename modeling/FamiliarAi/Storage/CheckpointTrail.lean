import FamiliarAi.Storage.Checkpoints
import FamiliarAi.Storage.History

/-!
# The trail of a checkpoint

The events of a checkpoint are numbered without a gap, each one is the trace of a change that was made
with it, and **between two re-freezes or scope decisions the events lead from the phase of the checkpoint
to its phase**: each begins with the phase that the one before it ended with, and the last one ended with
the phase in the row. A re-freeze and a scope decision set the phase and leave no event, so the trail is
not continued over them.

A completed checkpoint stays completed as long as nobody transitions it, freezes it again or decides its
scope: the approval of a completed checkpoint is refused.
-/

namespace FamiliarAi

open Relational List Option

/-! ### Trails -/

def Checkpoints.eventsOf (checkpoints : Checkpoints) (checkpointId : String) :
    List CheckpointEventRow :=
  checkpoints.events.rows.filter (·.checkpointId = checkpointId)

def Checkpoints.phaseOf (checkpoints : Checkpoints) (checkpointId : String) : Option CheckpointPhase :=
  (checkpoints.row checkpointId).map (·.phase)

def CheckpointEventRow.transition (event : CheckpointEventRow) :
    Transition (Option CheckpointPhase) :=
  ⟨event.priorPhase, some event.resultingPhase⟩

/-- The changes that are recorded of a checkpoint. -/
def Checkpoints.trail (checkpoints : Checkpoints) (checkpointId : String) :
    List (Transition (Option CheckpointPhase)) :=
  (checkpoints.eventsOf checkpointId).map (·.transition)

def checkpointAudit (P : Option CheckpointPhase → Option CheckpointPhase → Prop) :
    Audited Checkpoints String (Option CheckpointPhase) where
  value checkpoints checkpointId := some (checkpoints.phaseOf checkpointId)
  trail := Checkpoints.trail
  Initial _ := True
  Permits := P

/-- The events of each checkpoint are numbered from zero on. -/
def Checkpoints.InOrder (checkpoints : Checkpoints) : Prop :=
  ∀ checkpointId, (checkpoints.eventsOf checkpointId).map (·.sequence) =
    List.range (checkpoints.eventsOf checkpointId).length

theorem Checkpoints.InOrder.nextSequence_eq {checkpoints : Checkpoints} (h : checkpoints.InOrder)
    (checkpointId : String) :
    checkpoints.nextSequence checkpointId = (checkpoints.eventsOf checkpointId).length := by
  have hrange (n : ℕ) : ((List.range n).map (· + 1)).foldr max 0 = n := by
    induction n with
    | zero => rfl
    | succ n ih =>
      rw [range_succ, map_append, foldr_append]
      have hfold (l : List ℕ) (a b : ℕ) : l.foldr max (max a b) = max (l.foldr max a) b := by
        induction l with
        | nil => rfl
        | cons c l ih => rw [foldr_cons, ih, foldr_cons, max_assoc]
      show List.foldr max (max (n + 1) 0) _ = n + 1
      rw [max_comm, hfold, ih]
      omega
  have hmap : (checkpoints.eventsOf checkpointId).map (·.sequence + 1) =
      ((checkpoints.eventsOf checkpointId).map (·.sequence)).map (· + 1) := by
    rw [List.map_map]
    rfl
  show ((checkpoints.eventsOf checkpointId).map (·.sequence + 1)).foldr max 0 = _
  rw [hmap, h checkpointId, hrange]

theorem Checkpoints.InOrder.empty : Checkpoints.empty.InOrder :=
  fun _ ↦ rfl

theorem Checkpoints.InOrder.of_events {checkpoints checkpoints' : Checkpoints}
    (h : checkpoints.InOrder) (hevents : checkpoints'.events = checkpoints.events) :
    checkpoints'.InOrder := by
  intro id
  have hid := h id
  rw [eventsOf, ← hevents] at hid
  exact hid

/-- What recording an event does. -/
structure Checkpoints.Appends (checkpoints checkpoints' : Checkpoints) (checkpointId : String)
    (priorPhase : Option CheckpointPhase) (resultingPhase : CheckpointPhase) : Prop where
  rows : checkpoints'.rows = checkpoints.rows
  events : ∃ event, checkpoints'.events.rows = checkpoints.events.rows ++ [event] ∧
    event.checkpointId = checkpointId ∧ event.sequence = checkpoints.nextSequence checkpointId ∧
    event.priorPhase = priorPhase ∧ event.resultingPhase = resultingPhase

section Appends

variable {checkpoints checkpoints' : Checkpoints} {checkpointId : String}
  {priorPhase : Option CheckpointPhase} {resultingPhase : CheckpointPhase}
  {P : Option CheckpointPhase → Option CheckpointPhase → Prop} {eventType detail : String}
  {u : Unit}

theorem appendCheckpointEvent_runs {c c' : Connection Database FamiliarError}
    (h : (appendCheckpointEvent checkpointId eventType priorPhase resultingPhase detail).Runs c u c')
    :
    c.store.checkpoints.Appends c'.store.checkpoints checkpointId priorPhase resultingPhase := by
  obtain ⟨c₁, hstore, hwrite⟩ := h.of_read_bind
  have hwrite := hwrite.of_write
  rw [hstore] at hwrite
  split_ifs at hwrite
  obtain ⟨events, hinsert, hstore'⟩ := map_eq_some_iff.1 hwrite
  rw [← hstore']
  exact ⟨rfl, _, Table.rows_insert hinsert, rfl, rfl, rfl, rfl⟩

theorem recordCheckpointEvent_runs {c c' : Connection Database BacklogStoreError}
    (h : (recordCheckpointEvent checkpointId eventType priorPhase resultingPhase detail).Runs c u c')
    :
    c.store.checkpoints.Appends c'.store.checkpoints checkpointId priorPhase resultingPhase := by
  obtain ⟨c₁, hstore, hwrite⟩ := h.of_read_bind
  have hwrite := hwrite.of_write
  rw [hstore] at hwrite
  split_ifs at hwrite
  obtain ⟨events, hinsert, hstore'⟩ := map_eq_some_iff.1 hwrite
  rw [← hstore']
  exact ⟨rfl, _, Table.rows_insert hinsert, rfl, rfl, rfl, rfl⟩

theorem Checkpoints.Appends.exists_event
    (h : checkpoints.Appends checkpoints' checkpointId priorPhase resultingPhase) :
    ∃ event, event.sequence = checkpoints.nextSequence checkpointId ∧
      event.priorPhase = priorPhase ∧ event.resultingPhase = resultingPhase ∧
      checkpoints'.eventsOf checkpointId = checkpoints.eventsOf checkpointId ++ [event] ∧
      ∀ other, other ≠ checkpointId → checkpoints'.eventsOf other = checkpoints.eventsOf other := by
  obtain ⟨event, hevents, hid, hsequence, hprior, hresulting⟩ := h.events
  refine ⟨event, hsequence, hprior, hresulting, ?_, fun other hother ↦ ?_⟩
  · rw [eventsOf, hevents, filter_append, filter_cons_of_pos (by simpa using hid),
      filter_nil]
    rfl
  · have hne : event.checkpointId ≠ other := hid ▸ Ne.symm hother
    rw [eventsOf, hevents, filter_append, filter_cons_of_neg (by simpa using hne),
      filter_nil, append_nil]
    rfl

theorem Checkpoints.InOrder.appends (hinOrder : checkpoints.InOrder)
    (h : checkpoints.Appends checkpoints' checkpointId priorPhase resultingPhase) :
    checkpoints'.InOrder := by
  intro other
  obtain ⟨event, hsequence, -, -, hevents, hothers⟩ := h.exists_event
  by_cases hother : other = checkpointId
  · rw [hother, hevents, map_append, hinOrder, length_append, length_singleton,
      range_succ, map_singleton, hsequence, hinOrder.nextSequence_eq]
  · rw [hothers other hother]
    exact hinOrder other

theorem Checkpoints.Appends.extendsAt {before : Checkpoints}
    (h : checkpoints.Appends checkpoints' checkpointId priorPhase resultingPhase)
    (hevents : checkpoints.events = before.events) {other : String}
    (hP : other = checkpointId → P priorPhase (some resultingPhase))
    (hbefore : before.phaseOf checkpointId = priorPhase)
    (hafter : checkpoints.phaseOf checkpointId = some resultingPhase)
    (hothers : ∀ other, other ≠ checkpointId → checkpoints.phaseOf other = before.phaseOf other) :
    (checkpointAudit P).ExtendsAt other before checkpoints' := by
  obtain ⟨event, -, hprior, hresulting, hown, hkept⟩ := h.exists_event
  have hbeforeEvents (id : String) : before.eventsOf id = checkpoints.eventsOf id := by
    rw [Checkpoints.eventsOf, Checkpoints.eventsOf, hevents]
  have hphase (id : String) : checkpoints'.phaseOf id = checkpoints.phaseOf id := by
    rw [Checkpoints.phaseOf, Checkpoints.phaseOf, Checkpoints.row, Checkpoints.row, h.rows]
  by_cases hother : other = checkpointId
  · subst hother
    refine ⟨[⟨priorPhase, some resultingPhase⟩], ?_, ?_⟩
    · show checkpoints'.trail other = before.trail other ++ _
      rw [Checkpoints.trail, Checkpoints.trail, hown, hbeforeEvents, map_append,
        map_singleton, CheckpointEventRow.transition, hprior, hresulting]
    · show Leads P (before.phaseOf other) _ (checkpoints'.phaseOf other)
      rw [hbefore, hphase, hafter]
      exact Leads.single (hP rfl)
  · refine Audited.extendsAt_of_eq (congrArg some ?_) ?_
    · rw [hphase, hothers other hother]
    · show checkpoints'.trail other = before.trail other
      rw [Checkpoints.trail, Checkpoints.trail, hkept other hother, hbeforeEvents]

end Appends

/-! ### What the operations do -/

/-- The events stay in order, and the trail of the checkpoint goes on. -/
structure Database.Records (P : Option CheckpointPhase → Option CheckpointPhase → Prop)
    (checkpointId : String) (db db' : Database) : Prop where
  inOrder : db.checkpoints.InOrder → db'.checkpoints.InOrder
  extends_at : (checkpointAudit P).ExtendsAt checkpointId db.checkpoints db'.checkpoints

instance {P : Option CheckpointPhase → Option CheckpointPhase → Prop}
    {checkpointId : String} :
    Std.Refl (Database.Records P checkpointId) :=
  ⟨fun _ ↦ ⟨id, Std.Refl.refl _⟩⟩

instance {P : Option CheckpointPhase → Option CheckpointPhase → Prop}
    {checkpointId : String} :
    IsTrans Database (Database.Records P checkpointId) :=
  ⟨fun _ _ _ h h' ↦ ⟨h'.inOrder ∘ h.inOrder, IsTrans.trans _ _ _ h.extends_at h'.extends_at⟩⟩

section Operations

variable {P : Option CheckpointPhase → Option CheckpointPhase → Prop} {checkpointId : String}
  {u : Unit} {c c' : Connection Database FamiliarError} {checkpoints : Checkpoints}
  {rows : Table checkpointSchema} {f : CheckpointRow → CheckpointRow} {value : ExecutionCheckpoint}
  {p : CheckpointRow → Bool} {row : CheckpointRow} {approve : Bool} {other : String} {id : String}
  {α : Type}

theorem onCheckpointRows_runs {f : Table checkpointSchema → Option (α × Table checkpointSchema)}
    {a : α} (h : (onCheckpointRows f).Runs c a c') :
    ∃ rows, f c.store.checkpoints.rows = some (a, rows) ∧
      c'.store = { c.store with checkpoints := { c.store.checkpoints with rows } } :=
  Query.Runs.of_changePart h

theorem onScopeDecisions_runs
    {f : Table scopeDecisionSchema → Option (α × Table scopeDecisionSchema)} {a : α}
    (h : (onScopeDecisions f).Runs c a c') : ∃ scopeDecisions,
      f c.store.orchestration.scopeDecisions = some (a, scopeDecisions) ∧
        c'.store =
          { c.store with orchestration := { c.store.orchestration with scopeDecisions } } :=
  Query.Runs.of_changePart h

theorem checkpoint_of_mem (h : row ∈ checkpoints.rows.rows) :
    checkpoints.row row.checkpointId = some row := by
  refine Table.find_eq_of_key h (decide_eq_true rfl) fun other _ hother ↦ ?_
  show (decide _ || decide _) = true
  rw [decide_eq_true (of_decide_eq_true hother), Bool.true_or]

theorem checkpoint_update (h : checkpoints.rows.update p f = some rows)
    (hf : ∀ row, (f row).checkpointId = row.checkpointId) (id : String) :
    Checkpoints.row { checkpoints with rows } id =
      (checkpoints.row id).map fun row ↦ if p row then f row else row := by
  refine Table.find_update h fun row ↦ ?_
  rw [hf]

theorem checkpoint_update_of_ne (h : checkpoints.rows.update p f = some rows)
    (hf : ∀ row, (f row).checkpointId = row.checkpointId)
    (hp : ∀ row ∈ checkpoints.rows.rows, p row = true → row.checkpointId = checkpointId)
    (hid : id ≠ checkpointId) :
    Checkpoints.row { checkpoints with rows } id = checkpoints.row id := by
  rw [checkpoint_update h hf]
  rcases hrow : checkpoints.row id with _ | row
  · rfl
  · obtain ⟨hmem, hrowId⟩ := Table.find_some hrow
    rw [map_some, if_neg]
    intro hprow
    exact hid ((of_decide_eq_true hrowId).symm.trans (hp row hmem hprow))

theorem extendsAt_of_phases {checkpoints checkpoints' : Checkpoints}
    (hevents : checkpoints'.events = checkpoints.events)
    (hphase : checkpoints'.phaseOf id = checkpoints.phaseOf id) :
    (checkpointAudit P).ExtendsAt id checkpoints checkpoints' := by
  refine Audited.extendsAt_of_eq (congrArg some hphase) ?_
  show checkpoints'.trail id = checkpoints.trail id
  rw [Checkpoints.trail, Checkpoints.trail, Checkpoints.eventsOf, Checkpoints.eventsOf, hevents]

theorem phase_moved {prior phase : CheckpointPhase} {n : ℕ}
    (h : checkpoints.rows.modify (fun row ↦ row.checkpointId = checkpointId ∧ row.phase = prior) f = some (n, rows))
    (hn : n = 1) (hf : ∀ row, (f row).checkpointId = row.checkpointId)
    (hphase : ∀ row, (f row).phase = phase) :
    checkpoints.phaseOf checkpointId = some prior ∧
      Checkpoints.phaseOf { checkpoints with rows } checkpointId = some phase ∧
      ∀ other, other ≠ checkpointId →
        Checkpoints.phaseOf { checkpoints with rows } other = checkpoints.phaseOf other := by
  obtain ⟨hupdate, rfl⟩ := Table.modify_eq_some h
  obtain ⟨row, hrow, hp⟩ := Table.count_pos_iff.1 (hn.symm ▸ Nat.one_pos)
  obtain ⟨hid, hprior⟩ := of_decide_eq_true hp
  have hfound : checkpoints.row checkpointId = some row := hid ▸ checkpoint_of_mem hrow
  refine ⟨?_, ?_, fun other hother ↦ ?_⟩
  · rw [Checkpoints.phaseOf, hfound, map_some, hprior]
  · rw [Checkpoints.phaseOf, checkpoint_update hupdate hf, hfound, map_some, if_pos hp,
      map_some, hphase]
  · rw [Checkpoints.phaseOf, checkpoint_update_of_ne hupdate hf
      (fun row _ hp ↦ (of_decide_eq_true hp).1) hother]
    rfl

/-- **A transition** records what it does. -/
theorem transition_runs {phase : CheckpointPhase} {detail : String}
    (h : (CheckpointRepository.transition checkpointId phase detail).Runs c u c')
    (hP : other = checkpointId → ∀ prior, prior ≠ phase → P (some prior) (some phase)) :
    c.store.Records P other c'.store := by
  rcases h.of_transactionWith with ⟨c₁, c₂, hbegin, hbody, hend⟩ | ⟨c₁, c₂, -, -, hend⟩
  · obtain ⟨c₃, hstore₃, hbody⟩ := hbody.of_read_bind
    split at hbody
    · exact absurd hbody Query.not_runs_fail
    rename_i prior hprior
    split_ifs at hbody with hsame
    · cases (Query.runs_pure.1 hbody).1
    obtain ⟨changed, c₄, hupdate, hbody⟩ := hbody.of_bind
    obtain ⟨hchanged, hbody⟩ := hbody.of_ensure_bind
    obtain ⟨_, -, happend⟩ := hbody.of_bind_pure
    obtain ⟨rows, hmodify, hstore₄⟩ := onCheckpointRows_runs hupdate
    rw [hstore₃, hbegin] at hmodify hstore₄
    have happends := appendCheckpointEvent_runs happend
    rw [hstore₄, ← hend] at happends
    obtain ⟨hbefore, hafter, hothers⟩ := phase_moved hmodify hchanged (fun _ ↦ rfl) fun _ ↦ rfl
    refine ⟨fun hinOrder ↦ ?_, ?_⟩
    · refine (hinOrder.of_events ?_).appends happends
      rfl
    · refine happends.extendsAt ?_ (fun hother ↦ hP hother prior hsame) hbefore hafter hothers
      rfl
  · rw [hend]
    exact Std.Refl.refl _

theorem recordRecovery_runs {eventId : ℕ} {action : BacklogRecoveryAction} {reason : String}
    {c c' : Connection Database BacklogStoreError}
    (h : (recordRecovery eventId action reason).Runs c u c') :
    c'.store.checkpoints = c.store.checkpoints := by
  have hwrite := Query.Runs.of_write h
  split_ifs at hwrite
  obtain ⟨recoveryEvents, -, hstore⟩ := map_eq_some_iff.1 hwrite
  rw [← hstore]

/-- **An approval** completes a checkpoint that is not completed, and records it. -/
theorem approveAndComplete_runs {repository : RepositoryIdentity} {target : DiscoveredPrd}
    {actor reason approvedDiffHash commit : String} {entry : BacklogEntry}
    {c c' : Connection Database BacklogStoreError}
    (h : (approveAndComplete repository target actor reason approvedDiffHash commit).Runs c entry c')
    (hP : ∀ prior, prior ≠ .completed → P (some prior) (some .completed)) (other : String) :
    c.store.Records P other c'.store := by
  obtain ⟨⟨actor, reason⟩, -, h⟩ := h.of_ofExcept_bind
  obtain ⟨-, h⟩ := h.of_ensure_bind
  obtain ⟨c₃, c₄, hbegin, hbody, hend⟩ := h.of_transaction
  obtain ⟨row, c₅, hrow, hbody⟩ := hbody.of_bind
  obtain ⟨-, hbody⟩ := hbody.of_ensure_bind
  obtain ⟨checkpoint, c₇, hcheckpoint, hbody⟩ := hbody.of_bind
  obtain ⟨hopen, hbody⟩ := hbody.of_ensure_bind
  obtain ⟨-, hbody⟩ := hbody.of_ensure_bind
  obtain ⟨changed, c₁₀, hset, hbody⟩ := hbody.of_bind
  obtain ⟨-, hbody⟩ := hbody.of_ensure_bind
  obtain ⟨eventId, c₁₂, htransition, hbody⟩ := hbody.of_bind
  obtain ⟨_, c₁₃, hrecovery, hbody⟩ := hbody.of_bind
  obtain ⟨changed, c₁₄, hupdate, hbody⟩ := hbody.of_bind
  obtain ⟨hchanged, hbody⟩ := hbody.of_ensure_bind
  obtain ⟨_, -, hrecord⟩ := hbody.of_bind_pure
  -- what is written before the checkpoint is in the tables of the backlog
  obtain ⟨-, hset, -⟩ := setStatus_runs hset
  obtain ⟨-, htransition, -⟩ := recordTransition_runs htransition
  have hbacklog : c₁₃.store.checkpoints = c.store.checkpoints := by
    rw [recordRecovery_runs hrecovery, htransition, hset, (requireRow_runs hcheckpoint).2,
      (requireRow_runs hrow).2, hbegin]
  obtain ⟨rows, hmodify, hstore⟩ := Query.Runs.of_changePart hupdate
  rw [hbacklog] at hmodify
  have hcheckpoints : c₁₄.store.checkpoints = { c.store.checkpoints with rows } := by
    rw [hstore, hbacklog]
  have happends := recordCheckpointEvent_runs hrecord
  rw [hcheckpoints, ← hend] at happends
  obtain ⟨hbefore, hafter, hothers⟩ := phase_moved hmodify hchanged (fun _ ↦ rfl) fun _ ↦ rfl
  refine ⟨fun hinOrder ↦ ?_, ?_⟩
  · refine (hinOrder.of_events ?_).appends happends
    rfl
  · refine happends.extendsAt ?_ (fun _ ↦ hP _ hopen) hbefore hafter hothers
    rfl

theorem respects_updateCheckpoints (hf : ∀ row, (f row).checkpointId = row.checkpointId)
    (hphase : ∀ row, (f row).phase = row.phase) (other : String) :
    (onCheckpointRows fun rows ↦ rows.modify p f).Respects (Database.Records P other) := by
  refine .of_atomic .changePart fun c n c' h ↦ ?_
  obtain ⟨rows, hmodify, hstore⟩ := onCheckpointRows_runs h
  rw [hstore]
  refine ⟨fun hinOrder ↦ hinOrder.of_events rfl, extendsAt_of_phases rfl ?_⟩
  show (Checkpoints.row { c.store.checkpoints with rows } other).map (·.phase) = _
  rw [checkpoint_update (Table.modify_eq_some hmodify).1 hf, Checkpoints.phaseOf]
  rcases c.store.checkpoints.row other with _ | row
  · rfl
  · rw [map_some, map_some, map_some]
    split_ifs
    · rw [hphase]
    · rfl

theorem respects_rebindCandidate (checkpointId oldHash newHash commit other : String) :
    (CheckpointRepository.rebindCandidate checkpointId oldHash newHash commit).Respects
      (Database.Records P other) := by
  refine .bind ?_ fun _ ↦ .of_readOnly .ensure
  refine respects_updateCheckpoints (fun row ↦ ?_) (fun row ↦ ?_) other
  · rfl
  · rfl

theorem respects_recordRebind (hrefl : ∀ phase, P (some phase) (some phase)) (checkpointId detail other : String) :
    (CheckpointRepository.recordRebind checkpointId detail).Respects (Database.Records P other) := by
  refine .transaction fun c u c' h ↦ ?_
  obtain ⟨found, c₁, hread, h⟩ := h.of_bind
  obtain ⟨hfound, hstore⟩ := hread.of_read
  rcases found with _ | phase
  · exact absurd h Query.not_runs_fail
  have happends := appendCheckpointEvent_runs h
  rw [hstore] at happends
  exact ⟨fun hinOrder ↦ hinOrder.appends happends,
    happends.extendsAt rfl (fun _ ↦ hrefl _) hfound.symm hfound.symm fun _ _ ↦ rfl⟩

theorem respects_recordScopeFinding
    (repository checkpointId prd candidateHash findingHash other : String) :
    (OrchestrationRepository.recordScopeFinding repository checkpointId prd candidateHash
      findingHash).Respects (Database.Records P other) := by
  refine .write fun db db' h ↦ ?_
  split_ifs at h
  obtain rfl := Option.some.inj h
  exact ⟨id, Std.Refl.refl _⟩

/-- **What freezing a checkpoint does.** The first one of a PRD begins its trail; a later one leaves the
trails, and the phases of the other checkpoints. -/
theorem put_runs {u : Unit} (h : (CheckpointRepository.put value).Runs c u c') :
    (∃ row, c.store.checkpoints.ofPrd value.repositoryKey value.prdId = some row ∧
        c'.store.checkpoints.events = c.store.checkpoints.events ∧
        ∀ id, id ≠ row.checkpointId → c'.store.checkpoints.row id = c.store.checkpoints.row id) ∨
      c.store.checkpoints.ofPrd value.repositoryKey value.prdId = none ∧
        ∃ rows, c.store.checkpoints.rows.insert ⟨value.checkpointId, value.repositoryKey, value.prdId,
            value.phase, value.diffHash, value.invalidReason, none, none⟩ = some rows ∧
          Checkpoints.Appends { c.store.checkpoints with rows } c'.store.checkpoints
            value.checkpointId none value.phase := by
  obtain ⟨c₁, c₂, hbegin, hbody, hend⟩ := h.of_transaction
  obtain ⟨c₃, hstore₃, hbody⟩ := hbody.of_read_bind
  obtain ⟨_, c₄, hupsert, hbody⟩ := hbody.of_bind
  obtain ⟨rows, hrows, hstore₄⟩ := onCheckpointRows_runs hupsert
  obtain ⟨rows', hupsert, hpair⟩ := map_eq_some_iff.1 hrows
  obtain ⟨-, rfl⟩ := Prod.mk.inj hpair
  rw [hstore₃, hbegin] at hupsert hstore₄
  rw [hbegin] at hbody
  have hsame : c.store.checkpoints.rows.find value.sameKey =
      c.store.checkpoints.ofPrd value.repositoryKey value.prdId := rfl
  rw [upsertCheckpoint, hsame] at hupsert
  rcases hsurviving : c.store.checkpoints.ofPrd value.repositoryKey value.prdId with _ | row
  · rw [hsurviving, if_neg (by simp)] at hupsert
    simp only [hsurviving] at hbody
    have happends := appendCheckpointEvent_runs hbody
    rw [hstore₄, ← hend] at happends
    exact .inr ⟨rfl, rows', hupsert, happends⟩
  · rw [hsurviving, if_pos isSome_some] at hupsert
    simp only [hsurviving] at hbody
    obtain ⟨decisions, -, hstore⟩ := onScopeDecisions_runs hbody
    obtain ⟨hmem, hkey⟩ := Table.find_some (hsame.trans hsurviving)
    rw [hend, hstore, hstore₄]
    refine .inl ⟨row, rfl, rfl, fun id hid ↦ ?_⟩
    refine checkpoint_update_of_ne hupsert (fun _ ↦ rfl) (fun other hother hp ↦ ?_) hid
    -- two rows of the PRD are one
    obtain ⟨hrepository, hprd⟩ := of_decide_eq_true hp
    obtain ⟨hrepository', hprd'⟩ := of_decide_eq_true hkey
    have hclash : checkpointSchema.clash other row = true := by
      show (decide _ || decide _) = true
      rw [decide_eq_true (p := other.repositoryKey = row.repositoryKey ∧ other.prdId = row.prdId)
        ⟨hrepository.trans hrepository'.symm, hprd.trans hprd'.symm⟩, Bool.or_true]
    rw [Table.eq_of_clash hother hmem hclash]

theorem checkpoint_free_of_insert (h : checkpoints.rows.insert row = some rows) :
    checkpoints.row row.checkpointId = none := by
  rcases hfound : checkpoints.row row.checkpointId with _ | found
  · rfl
  · obtain ⟨hmem, hid⟩ := Table.find_some hfound
    have hclash : checkpointSchema.clash found row = true := by
      show (decide _ || decide _) = true
      rw [decide_eq_true (of_decide_eq_true hid), Bool.true_or]
    rw [Table.not_clash_of_insert h hmem] at hclash
    cases hclash

theorem checkpoint_insert (h : checkpoints.rows.insert row = some rows) (id : String) :
    Checkpoints.row { checkpoints with rows } id =
      if row.checkpointId = id then some row else checkpoints.row id := by
  have hfind : Checkpoints.row { checkpoints with rows } id = (checkpoints.row id).or
      (if decide (row.checkpointId = id) then some row else none) := Table.find_insert h
  rw [hfind]
  by_cases hid : row.checkpointId = id
  · rw [if_pos hid, if_pos (decide_eq_true hid), ← hid, checkpoint_free_of_insert h, none_or]
  · rw [if_neg hid, if_neg (by simpa using hid), or_none]

theorem inOrder_put (h : (CheckpointRepository.put value).Runs c u c')
    (hinOrder : c.store.checkpoints.InOrder) :
    c'.store.checkpoints.InOrder := by
  rcases put_runs h with ⟨_, -, hevents, -⟩ | ⟨-, rows, -, happends⟩
  · exact hinOrder.of_events hevents
  · refine (hinOrder.of_events ?_).appends happends
    rfl

theorem put_records (h : (CheckpointRepository.put value).Runs c u c')
    (hP : ∀ phase, P none (some phase))
    (hother : (c.store.checkpoints.ofPrd value.repositoryKey value.prdId).map (·.checkpointId) ≠ some other) :
    c.store.Records P other c'.store := by
  refine ⟨inOrder_put h, ?_⟩
  rcases put_runs h with ⟨row, hrow, hevents, hrows⟩ | ⟨-, rows, hinsert, happends⟩
  · rw [hrow] at hother
    have hne : other ≠ row.checkpointId := fun heq ↦ hother (congrArg some heq.symm)
    refine extendsAt_of_phases hevents ?_
    rw [Checkpoints.phaseOf, hrows other hne]
    rfl
  · have hinserted := checkpoint_insert hinsert
    refine happends.extendsAt ?_ (fun _ ↦ hP _) ?_ ?_ fun id hid ↦ ?_
    · rfl
    · rw [Checkpoints.phaseOf, checkpoint_free_of_insert hinsert]
      rfl
    · rw [Checkpoints.phaseOf, hinserted, if_pos rfl]
      rfl
    · rw [Checkpoints.phaseOf, hinserted, if_neg (Ne.symm hid)]
      rfl

/-- What a decision on a finding rules. -/
def ScopeRuling.of (approve : Bool) : ScopeRuling :=
  if approve then .approved else .rejected

def phaseAfter (db' : Database) (checkpointId candidateHash : String) (approve : Bool) :
    CheckpointPhase :=
  if approve = true ∧
      db'.orchestration.countDecisions checkpointId candidateHash (some .rejected) = 0
  then .implemented
  else .blocked

/-- What is left by a decision on a finding of the checkpoint. -/
structure ScopeDecided (repository findingHash candidateHash : String) (approve : Bool)
    (db : Database) (checkpointId : String) (db' : Database) : Prop where
  events : db'.checkpoints.events = db.checkpoints.events
  pending : ∃ row,
    db.orchestration.pendingDecision repository findingHash candidateHash = some row ∧
      row.checkpointId = checkpointId
  decided : db.orchestration.scopeDecisions.update
    (fun row ↦ row.findingHash = findingHash ∧ row.decision = none)
    (fun row ↦ { row with decision := some (.of approve) }) = some db'.orchestration.scopeDecisions
  moves : (approve = false ∨
      db'.orchestration.countDecisions checkpointId candidateHash none = 0) ∧
      db.checkpoints.rows.update (·.checkpointId = checkpointId) (fun row ↦ { row with
        phase := phaseAfter db' checkpointId candidateHash approve }) = some db'.checkpoints.rows ∨
    ¬(approve = false ∨ db'.orchestration.countDecisions checkpointId candidateHash none = 0) ∧
      db'.checkpoints.rows = db.checkpoints.rows

/-- **What deciding a scope does.** -/
theorem decideScope_runs {repository findingHash candidateHash checkpointId : String}
    (h : (OrchestrationRepository.decideScope repository findingHash candidateHash approve).Runs c checkpointId c')
    :
    ScopeDecided repository findingHash candidateHash approve c.store checkpointId c'.store := by
  obtain ⟨c₁, c₂, hbegin, hbody, hend⟩ := h.of_transaction
  obtain ⟨found, c₃, hread, hbody⟩ := hbody.of_bind
  obtain ⟨hfound, hstore₃⟩ := hread.of_read
  rw [hbegin] at hfound hstore₃
  rcases found with _ | row
  · exact absurd hbody Query.not_runs_fail
  obtain ⟨changed, c₄, hdecide, hbody⟩ := hbody.of_bind
  obtain ⟨decisions, hmodify, hstore₄⟩ := onScopeDecisions_runs hdecide
  rw [hstore₃] at hmodify hstore₄
  obtain ⟨hdecisions, -⟩ := Table.modify_eq_some hmodify
  obtain ⟨c₅, hstore₅, hbody⟩ := hbody.of_read_bind
  obtain ⟨c₆, hstore₆, hbody⟩ := hbody.of_read_bind
  obtain ⟨_, rfl, hwhen⟩ := hbody.of_bind_pure
  have hstore : c₆.store =
      { c.store with
        orchestration := { c.store.orchestration with scopeDecisions := decisions } } := by
    rw [hstore₆, hstore₅, hstore₄]
  rw [hstore₅, hstore₄] at hwhen
  rcases Query.runs_when.1 hwhen with ⟨hmoves, hupdate⟩ | ⟨hstays, rfl⟩
  · obtain ⟨changed, -, hset⟩ := hupdate.of_bind_pure
    obtain ⟨rows, hmodify, hstore₈⟩ := onCheckpointRows_runs hset
    rw [hstore] at hmodify hstore₈
    obtain ⟨hrows, -⟩ := Table.modify_eq_some hmodify
    rw [hend, hstore₈]
    exact ⟨rfl, ⟨row, hfound.symm, rfl⟩, hdecisions, .inl ⟨hmoves, hrows⟩⟩
  · rw [hend, hstore]
    exact ⟨rfl, ⟨row, hfound.symm, rfl⟩, hdecisions, .inr ⟨hstays, rfl⟩⟩

theorem ScopeDecided.row_eq {repository findingHash candidateHash checkpointId : String}
    {db db' : Database}
    (h : ScopeDecided repository findingHash candidateHash approve db checkpointId db')
    (other : String) :
    db'.checkpoints.row other = db.checkpoints.row other ∨
      other = checkpointId ∧
        (approve = false ∨ db'.orchestration.countDecisions checkpointId candidateHash none = 0) ∧
        db'.checkpoints.row other = (db.checkpoints.row other).map fun row ↦
          { row with phase := phaseAfter db' checkpointId candidateHash approve } := by
  rcases h.moves with ⟨hmoves, hupdate⟩ | ⟨-, hstays⟩
  · have hrow : db'.checkpoints.row other = (db.checkpoints.row other).map fun row ↦
        if decide (row.checkpointId = checkpointId) then
          { row with phase := phaseAfter db' checkpointId candidateHash approve } else row :=
      checkpoint_update hupdate (fun _ ↦ rfl) other
    rw [hrow]
    rcases hfound : db.checkpoints.row other with _ | row
    · exact .inl rfl
    · have hid : row.checkpointId = other := of_decide_eq_true (Table.find_some hfound).2
      by_cases hother : other = checkpointId
      · refine .inr ⟨hother, hmoves, ?_⟩
        rw [map_some, map_some, if_pos (decide_eq_true (hid.trans hother))]
      · refine .inl ?_
        rw [map_some, if_neg fun hsame ↦ hother (hid.symm.trans (of_decide_eq_true hsame))]
  · exact .inl (by rw [Checkpoints.row, hstays, Checkpoints.row])

theorem decideScope_records {repository findingHash candidateHash id other : String}
    (h : (OrchestrationRepository.decideScope repository findingHash candidateHash approve).Runs c id c')
    (hother : (c.store.orchestration.pendingDecision repository findingHash candidateHash).map (·.checkpointId) ≠ some other) :
    c.store.Records P other c'.store := by
  have hdecided := decideScope_runs h
  obtain ⟨row, hrow, rfl⟩ := hdecided.pending
  rw [hrow] at hother
  have hne : other ≠ row.checkpointId := fun heq ↦ hother (congrArg some heq.symm)
  refine ⟨fun hinOrder ↦ hinOrder.of_events hdecided.events, extendsAt_of_phases hdecided.events ?_⟩
  rw [Checkpoints.phaseOf, (hdecided.row_eq other).resolve_right fun hmoved ↦ hne hmoved.1,
    Checkpoints.phaseOf]

end Operations

/-! ### Runs -/

/-- The checkpoint whose phase the call may set without an event. -/
def CheckpointStep.rewrites? (db : Database) : CheckpointStep → Option String
  | .call (.put value) _ =>
    (db.checkpoints.ofPrd value.repositoryKey value.prdId).map (·.checkpointId)
  | .call (.decideScope repository findingHash candidateHash _) _ =>
    (db.orchestration.pendingDecision repository findingHash candidateHash).map (·.checkpointId)
  | _ => none

def CheckpointStep.transitions? : CheckpointStep → Option String
  | .call (.transition checkpointId _ _) _ => some checkpointId
  | _ => none

/-- None of the calls freezes the checkpoint again or decides its scope. -/
def Database.Undisturbed (checkpointId : String) (db : Database) : List CheckpointStep → Prop
  | [] => True
  | step :: steps => step.rewrites? db ≠ some checkpointId ∧
      (db.checkpointStep step).Undisturbed checkpointId steps

section Runs

variable {P : Option CheckpointPhase → Option CheckpointPhase → Prop} {checkpointId : String}
  {db : Database}

theorem checkpointCall_records {call : CheckpointCall} {faults : List (Option FamiliarError)}
    (hnew : ∀ phase, P none (some phase)) (hrefl : ∀ phase, P (some phase) (some phase))
    (htransitions : (CheckpointStep.call call faults).transitions? = some checkpointId → ∀ prior phase, P (some prior) (some phase))
    (hrewrites : (CheckpointStep.call call faults).rewrites? db ≠ some checkpointId) :
    db.Records P checkpointId (db.checkpointStep (.call call faults)) := by
  show Database.Records P checkpointId (Connection.mk db faults).store _
  cases call with
  | put value =>
    refine Query.Atomic.transaction.relates fun _ c' h ↦ ?_
    exact put_records h hnew hrewrites
  | transition moved phase detail =>
    refine Query.Atomic.transactionWith.relates fun _ c' h ↦ ?_
    refine transition_runs h fun hmoved prior _ ↦ ?_
    exact htransitions (congrArg some hmoved.symm) prior phase
  | rebindCandidate rebound oldHash newHash commit =>
    exact respects_rebindCandidate rebound oldHash newHash commit checkpointId ⟨db, faults⟩
  | recordRebind rebound detail =>
    exact respects_recordRebind hrefl rebound detail checkpointId ⟨db, faults⟩
  | recordScopeFinding repository found prd candidateHash findingHash =>
    exact respects_recordScopeFinding repository found prd candidateHash findingHash checkpointId
      ⟨db, faults⟩
  | decideScope repository findingHash candidateHash approve =>
    refine Query.Atomic.relates Query.Atomic.transaction.bind_pure fun _ c' h ↦ ?_
    have hbind : (OrchestrationRepository.decideScope repository findingHash candidateHash approve >>=
      fun _ ↦ pure ()).Runs ⟨db, faults⟩ _ c' := h
    obtain ⟨id, -, hdecide⟩ := hbind.of_bind_pure
    exact decideScope_records hdecide hrewrites

theorem checkpointStep_records {step : CheckpointStep} (hnew : ∀ phase, P none (some phase))
    (hrefl : ∀ phase, P (some phase) (some phase))
    (hcompleted : ∀ prior, P (some prior) (some .completed))
    (htransitions : step.transitions? = some checkpointId → ∀ prior phase, P (some prior) (some phase))
    (hrewrites : step.rewrites? db ≠ some checkpointId) :
    db.Records P checkpointId (db.checkpointStep step) := by
  cases step with
  | call call faults => exact checkpointCall_records hnew hrefl htransitions hrewrites
  | approveAndComplete repository target actor reason approvedDiffHash commit faults =>
    show Database.Records P checkpointId (Connection.mk db faults).store _
    refine (approveAndComplete_atomic repository target actor reason approvedDiffHash commit).relates
      fun _ c' h ↦ ?_
    exact approveAndComplete_runs h (fun prior _ ↦ hcompleted prior) checkpointId
  | elsewhere tables => exact ⟨id, extendsAt_of_phases rfl rfl⟩

theorem inOrder_checkpointStep (step : CheckpointStep) (h : db.checkpoints.InOrder) :
    (db.checkpointStep step).checkpoints.InOrder := by
  -- the step rewrites at most one checkpoint
  obtain ⟨other, hother⟩ : ∃ other, step.rewrites? db ≠ some other := by
    by_cases hrewrites : step.rewrites? db = some "first"
    · exact ⟨"second", by rw [hrewrites]; decide⟩
    · exact ⟨"first", hrewrites⟩
  have hrecords : db.Records (fun _ _ ↦ True) other (db.checkpointStep step) :=
    checkpointStep_records (fun _ ↦ trivial) (fun _ ↦ trivial) (fun _ ↦ trivial)
      (fun _ _ _ ↦ trivial) hother
  exact hrecords.inOrder h

theorem inOrder_checkpointRun (steps : List CheckpointStep) :
    (Database.checkpointRun .empty steps).checkpoints.InOrder := by
  have hrun : ∀ db : Database, db.checkpoints.InOrder →
      (db.checkpointRun steps).checkpoints.InOrder := by
    induction steps with
    | nil => exact fun _ h ↦ h
    | cons step steps ih => exact fun db h ↦ ih _ (inOrder_checkpointStep step h)
  exact hrun _ Checkpoints.InOrder.empty

theorem checkpointRun_records (hnew : ∀ phase, P none (some phase))
    (hrefl : ∀ phase, P (some phase) (some phase))
    (hcompleted : ∀ prior, P (some prior) (some .completed)) (steps : List CheckpointStep)
    (hundisturbed : db.Undisturbed checkpointId steps)
    (htransitions : ∀ step ∈ steps, step.transitions? = some checkpointId → ∀ prior phase, P (some prior) (some phase))
    :
    db.Records P checkpointId (db.checkpointRun steps) := by
  induction steps generalizing db with
  | nil => exact Std.Refl.refl _
  | cons step steps ih =>
    obtain ⟨hstep, hsteps⟩ := hundisturbed
    refine IsTrans.trans _ _ _ (checkpointStep_records hnew hrefl hcompleted
      (htransitions step mem_cons_self) hstep) ?_
    exact ih hsteps fun step' hstep' ↦ htransitions step' (mem_cons_of_mem _ hstep')

/-- **The trail of a checkpoint replays its phase.** Over any sequence of calls, with engine faults at
any statement and whatever the other stores write in between: the events of each checkpoint are
numbered from zero on without a gap. From any point on, as long as the checkpoint is not frozen again
and its scope not decided, the new events lead from its phase at that point to its phase, each from
what the one before it has resulted in; the first one of all begins with no phase. A completed
checkpoint stays completed, unless it is transitioned by its id. -/
theorem checkpoint_trail (steps : List CheckpointStep) (checkpointId : String) :
    (((Database.checkpointRun .empty steps).checkpoints.eventsOf checkpointId).map (·.sequence) =
        List.range
          ((Database.checkpointRun .empty steps).checkpoints.eventsOf checkpointId).length) ∧
      ∀ later, (Database.checkpointRun .empty steps).Undisturbed checkpointId later →
        (∃ changes,
          ((Database.checkpointRun .empty steps).checkpointRun later).checkpoints.trail checkpointId =
            (Database.checkpointRun .empty steps).checkpoints.trail checkpointId ++ changes ∧
          Leads (fun _ _ ↦ True)
            ((Database.checkpointRun .empty steps).checkpoints.phaseOf checkpointId) changes
            (((Database.checkpointRun .empty steps).checkpointRun later).checkpoints.phaseOf
              checkpointId)) ∧
        ((Database.checkpointRun .empty steps).checkpoints.phaseOf checkpointId = some .completed →
          (∀ step ∈ later, step.transitions? ≠ some checkpointId) →
          ((Database.checkpointRun .empty steps).checkpointRun later).checkpoints.phaseOf
            checkpointId = some .completed) := by
  refine ⟨inOrder_checkpointRun steps checkpointId, fun later hundisturbed ↦ ⟨?_, ?_⟩⟩
  · have hrecords := checkpointRun_records (P := fun _ _ ↦ True) (fun _ ↦ trivial) (fun _ ↦ trivial)
      (fun _ ↦ trivial) later hundisturbed fun _ _ _ _ _ ↦ trivial
    obtain ⟨changes, htrail, hleads⟩ := hrecords.extends_at
    exact ⟨changes, htrail, hleads⟩
  · intro hcompleted htransitions
    have hrecords := checkpointRun_records (P := fun a b ↦ a = some .completed → b = some .completed)
      (fun _ ↦ nofun) (fun _ ↦ id) (fun _ _ ↦ rfl) later hundisturbed
      fun step hstep hmoves ↦ absurd hmoves (htransitions step hstep)
    obtain ⟨changes, -, hleads⟩ := hrecords.extends_at
    refine Leads.invariant (I := (· = some CheckpointPhase.completed)) hleads (fun a b hpermits ↦ ?_)
      hcompleted
    exact hpermits

def frozenAgain : List CheckpointStep :=
  [.call (.put ⟨"checkpoint", "repo", "PRD-1", .implemented, "hash", none⟩) [],
    .call (.transition "checkpoint" .completed "landed") [],
    .call (.put ⟨"another", "repo", "PRD-1", .implemented, "hash'", none⟩) []]

/-- A re-freeze leaves no event: the last one has resulted in another phase than that of the row, and
the completed checkpoint is moved back. -/
theorem checkpoint_frozenAgain :
    (Database.checkpointRun .empty (frozenAgain.take 2)).checkpoints.phaseOf "checkpoint" =
        some .completed ∧
      (Database.checkpointRun .empty frozenAgain).checkpoints.phaseOf "checkpoint" =
        some .implemented ∧
      ((Database.checkpointRun .empty frozenAgain).checkpoints.trail "checkpoint").map (·.new) =
        [some .implemented, some .completed] := by
  decide +kernel

end Runs

end FamiliarAi
