import FamiliarAi.Storage.SummaryWork

/-!
# Scan reconciliation

A reconciliation goes over the files that its scan has staged, and then over the active summaries. It
**overlooks** the files that were observed since the scan began: each file is looked up in the
observations before anything is done about it, and what the reconciliation does about other files does
not touch it. It **retires only** summaries of files that were not staged as eligible, and each summary
that it retires lies in a tombstone afterwards, whole: its id was never given to another summary, so the
tombstone collides with none that is there.
-/

namespace FamiliarAi

open Relational List Table

variable {inventory inventory' : Inventory} {p : FileKey → Prop}

/-! ### Retiring summaries -/

/-- The ids that come next are free. -/
structure Inventory.Fresh (inventory : Inventory) : Prop where
  summaries : ∀ row ∈ inventory.summaries.rows, row.id ≤ inventory.sequences.summaries
  tombstones : ∀ row ∈ inventory.tombstones.rows, row.id ≤ inventory.sequences.tombstones
  originals : ∀ row ∈ inventory.tombstones.rows, row.original.id ≤ inventory.sequences.summaries
  retired : ∀ row ∈ inventory.tombstones.rows, ∀ active ∈ inventory.summaries.rows,
    row.original.id ≠ active.id

/-- Summaries are retired of files that meet the condition only, and each of them is preserved. -/
structure Inventory.RetiresOnly (p : FileKey → Prop) (inventory inventory' : Inventory) : Prop where
  fresh : inventory.Fresh → inventory'.Fresh
  tombstones : inventory.tombstones.rows ⊆ inventory'.tombstones.rows
  absent : ∀ key, inventory.summary key = none → inventory'.summary key = none
  retired : inventory.Fresh → ∀ key row, inventory.summary key = some row →
    inventory'.summary key = some row ∨
      inventory'.summary key = none ∧ p key ∧ ∃ tombstone ∈ inventory'.tombstones.rows,
        tombstone.original = row

instance {p : FileKey → Prop} : Std.Refl (Inventory.RetiresOnly p) :=
  ⟨fun _ ↦ ⟨id, Subset.refl _, fun _ ↦ id, fun _ _ _ ↦ .inl⟩⟩

instance {p : FileKey → Prop} : IsTrans Inventory (Inventory.RetiresOnly p) := by
  refine ⟨fun _ _ _ h h' ↦ ⟨h'.fresh ∘ h.fresh, Subset.trans h.tombstones h'.tombstones,
    fun key ↦ h'.absent key ∘ h.absent key, fun hfresh key row hrow ↦ ?_⟩⟩
  rcases h.retired hfresh key row hrow with hkept | ⟨hnone, hp, tombstone, hmem, horiginal⟩
  · exact h'.retired (h.fresh hfresh) key row hkept
  · exact .inr ⟨h'.absent key hnone, hp, tombstone, h'.tombstones hmem, horiginal⟩

theorem Inventory.RetiresOnly.of_same (hsummaries : inventory'.summaries = inventory.summaries)
    (htombstones : inventory'.tombstones = inventory.tombstones)
    (hsequence : inventory'.sequences.summaries = inventory.sequences.summaries)
    (hsequence' : inventory'.sequences.tombstones = inventory.sequences.tombstones) :
    inventory.RetiresOnly p inventory' := by
  have hsummary (key : FileKey) : inventory'.summary key = inventory.summary key := by
    rw [Inventory.summary, Inventory.summary, hsummaries]
  refine ⟨fun h ↦ ⟨?_, ?_, ?_, ?_⟩, ?_, fun key h ↦ ?_, fun _ key row h ↦ .inl ?_⟩
  · rw [hsummaries, hsequence]
    exact h.summaries
  · rw [htombstones, hsequence']
    exact h.tombstones
  · rw [htombstones, hsequence]
    exact h.originals
  · rw [htombstones, hsummaries]
    exact h.retired
  · rw [htombstones]
    exact Subset.refl _
  · rw [hsummary]
    exact h
  · rw [hsummary]
    exact h

theorem Inventory.SameFiles.retiresOnly (h : inventory.SameFiles inventory') :
    inventory.RetiresOnly p inventory' :=
  .of_same h.summaries h.tombstones h.summarySequence h.tombstoneSequence

theorem Inventory.RetiresOnly.mono {p q : FileKey → Prop} (h : inventory.RetiresOnly p inventory')
    (hpq : ∀ key, p key → q key) :
    inventory.RetiresOnly q inventory' where
  fresh := h.fresh
  tombstones := h.tombstones
  absent := h.absent
  retired hfresh key row hrow := by
    rcases h.retired hfresh key row hrow with hkept | ⟨hnone, hp, htombstone⟩
    · exact .inl hkept
    · exact .inr ⟨hnone, hpq key hp, htombstone⟩

section Retirement

variable {c c' : Connection Inventory FamiliarError} {key : FileKey} {order : ℕ}

theorem entomb_eq {inventory : Inventory} (hfresh : inventory.Fresh) {row : FileSummaryRow}
    (hrow : inventory.summary key = some row) (reason : RetirementReason) (source : String)
    (causeId : Option ℕ) (related : Option String) (order : ℕ) :
    ∃ tombstones, inventory.tombstones.insert
        ⟨inventory.sequences.tombstones + 1, row, reason, source, causeId, related, order⟩ =
        some tombstones ∧
      inventory.entomb key reason source causeId related order =
        { inventory with
          tombstones
          sequences :=
            { inventory.sequences with tombstones := inventory.sequences.tombstones + 1 } } := by
  obtain ⟨hmem, -⟩ := Table.find_some hrow
  obtain ⟨tombstones, hinsert⟩ := Table.exists_insert (T := inventory.tombstones)
    (r := ⟨inventory.sequences.tombstones + 1, row, reason, source, causeId, related, order⟩) rfl
    fun other hother ↦ by
      have hid := hfresh.tombstones other hother
      have horiginal := hfresh.retired other hother row hmem
      refine decide_eq_false ?_
      rintro (heq | ⟨-, heq, -⟩)
      · have hnew : other.id = inventory.sequences.tombstones + 1 := heq
        omega
      · exact horiginal heq
  refine ⟨tombstones, hinsert, ?_⟩
  rw [Inventory.entomb, hrow]
  show { inventory with
    tombstones := inventory.tombstones.insertOrIgnore _, sequences := _ } = _
  rw [Table.insertOrIgnore, hinsert]
  rfl

/-- **A summary that is deleted is preserved.** -/
theorem preserveAndDelete_retires {reason : RetirementReason} {source : String} {causeId : Option ℕ}
    {related : Option String} {tombstone : Option ℕ}
    (h : (preserveAndDelete key reason source causeId related order).Runs c tombstone c') :
    c.store.RetiresOnly (· = key) c'.store := by
  have hstore := preserveAndDelete_runs h
  have hsummary (other : FileKey) :
      c'.store.summary other = if other = key then none else c.store.summary other := by
    rw [hstore, ← summary_delete]
    rfl
  have hrest : c'.store.summaries.rows = c.store.summaries.rows.filter fun row ↦ !decide (row.key = key) := by
    rw [hstore]
    rfl
  have hremaining {row : FileSummaryRow} (hrow : row ∈ c'.store.summaries.rows) :
      row ∈ c.store.summaries.rows ∧ row.key ≠ key := by
    rw [hrest, mem_filter] at hrow
    exact ⟨hrow.1, by simpa using hrow.2⟩
  refine ⟨fun hfresh ↦ ?_, ?_, fun other hother ↦ ?_, fun hfresh other row hrow ↦ ?_⟩
  · cases hactive : c.store.summary key with
    | none =>
      have hsame : c.store.entomb key reason source causeId related order = c.store := by
        rw [Inventory.entomb, hactive]
      rw [hsame] at hstore
      refine ⟨fun row hrow ↦ ?_, ?_, ?_, fun row hrow active hactive ↦ ?_⟩
      · rw [hstore]
        exact hfresh.summaries row (hremaining hrow).1
      · rw [hstore]
        exact hfresh.tombstones
      · rw [hstore]
        exact hfresh.originals
      · rw [hstore] at hrow
        exact hfresh.retired row hrow active (hremaining hactive).1
    | some row =>
      obtain ⟨tombstones, hinsert, hentomb⟩ :=
        entomb_eq hfresh hactive reason source causeId related order
      obtain ⟨hmem, hkey⟩ := Table.find_some hactive
      have htombstones : c'.store.tombstones = tombstones := by
        rw [hstore, hentomb]
      refine ⟨fun other hother ↦ ?_, fun other hother ↦ ?_, fun other hother ↦ ?_,
        fun other hother active hactive' ↦ ?_⟩
      · rw [hstore, hentomb]
        exact hfresh.summaries other (hremaining hother).1
      · rw [htombstones] at hother
        rw [hstore, hentomb]
        rcases (Table.mem_insert hinsert).1 hother with hold | rfl
        · exact Nat.le_succ_of_le (hfresh.tombstones other hold)
        · exact Nat.le_refl _
      · rw [htombstones] at hother
        rw [hstore, hentomb]
        rcases (Table.mem_insert hinsert).1 hother with hold | rfl
        · exact hfresh.originals other hold
        · exact hfresh.summaries row hmem
      · rw [htombstones] at hother
        obtain ⟨hactiveMem, hne⟩ := hremaining hactive'
        rcases (Table.mem_insert hinsert).1 hother with hold | rfl
        · exact hfresh.retired other hold active hactiveMem
        · -- another summary has another id
          intro heq
          have hclash : fileSummarySchema.clash row active = true := decide_eq_true (.inl heq)
          have hsame := Table.eq_of_clash hmem hactiveMem hclash
          exact hne (hsame ▸ of_decide_eq_true hkey)
  · rw [hstore]
    show c.store.tombstones.rows ⊆ (c.store.entomb key reason source causeId related order).tombstones.rows
    rw [Inventory.entomb]
    cases c.store.summary key with
    | none => exact Subset.refl _
    | some row => exact Table.subset_insertOrIgnore
  · rw [hsummary]
    split_ifs
    · rfl
    · exact hother
  · rw [hsummary]
    split_ifs with hother
    · subst hother
      obtain ⟨tombstones, hinsert, hentomb⟩ :=
        entomb_eq hfresh hrow reason source causeId related order
      refine .inr ⟨rfl, rfl, ⟨c.store.sequences.tombstones + 1, row, reason, source, causeId, related,
        order⟩, ?_, rfl⟩
      rw [hstore, hentomb]
      exact (Table.mem_insert hinsert).2 (.inr rfl)
    · exact .inl hrow

theorem nextOrder_retires {projectId : ℤ} {p : FileKey → Prop}
    (h : (nextOrder projectId).Runs c order c') : c.store.RetiresOnly p c'.store := by
  obtain ⟨-, ⟨orders, hstore⟩, -⟩ := nextOrder_runs h
  rw [hstore]
  exact .of_same rfl rfl rfl rfl

theorem upsertPending_retires (key : FileKey) (kind : LifecycleChange) (order : ℕ) (deferred : Bool)
    (p : FileKey → Prop) : (upsertPending key kind order deferred).Respects (Inventory.RetiresOnly p) := by
  refine .bind (.write fun inventory inventory' h ↦ ?_) fun _ ↦ ?_
  · obtain ⟨pendingWork, -, rfl⟩ := Option.map_eq_some_iff.1 h
    exact .of_same rfl rfl rfl rfl
  · refine .bind (.of_readOnly .read) fun found ↦ ?_
    rcases found with _ | id
    · exact .of_readOnly .fail
    · exact .of_readOnly .pure

theorem recordObservation_retires (row : ObservationRow) (p : FileKey → Prop) :
    (recordObservation row).Respects (Inventory.RetiresOnly p) :=
  .changePart fun _ _ ↦ .of_same rfl rfl rfl rfl

theorem onPendingWork_retires (f : Table pendingWorkSchema → Option (Table pendingWorkSchema))
    (p : FileKey → Prop) : (onPendingWork f).Respects (Inventory.RetiresOnly p) :=
  .changePart fun _ _ ↦ .of_same rfl rfl rfl rfl

theorem onScanRuns_retires (f : Table scanRunSchema → Option (Table scanRunSchema))
    (p : FileKey → Prop) : (onScanRuns f).Respects (Inventory.RetiresOnly p) :=
  (sameFiles_onScanRuns f).mono fun _ _ h ↦ h.retiresOnly

theorem observeChange_retires (change : LifecycleChange) (source : String) (deferred : Bool) :
    (observeChange key change source deferred).Respects
      (Inventory.RetiresOnly fun other ↦ change = .modify ∧ other = key) := by
  refine .bind (.of_readOnly (validateKey_readOnly key)) fun _ ↦ ?_
  refine Query.Carries.transaction (Query.Carries.readOnly_bind
    (ensureProjectReady_readOnly key.projectId) fun _ ↦ ?_)
  refine Query.Carries.bind (fun c order c' h ↦ nextOrder_retires h) fun order ↦ ?_
  refine .bind (fun c tombstone c' h ↦ ?_) fun tombstone ↦ ?_
  · split_ifs at h with hchange
    · exact (preserveAndDelete_retires h).mono fun other hother ↦ ⟨hchange, hother⟩
    · obtain ⟨-, rfl⟩ := h.of_pure
      exact Std.Refl.refl _
  · refine .bind (upsertPending_retires _ _ _ _ _).carries fun id ↦ ?_
    exact .bind (recordObservation_retires _ _).carries fun _ ↦
      .of_readOnly .pure

theorem retireAbsent_retires (reason : RetirementReason) (source : String) (causeId : Option ℕ) :
    (retireAbsent key reason source causeId).Respects (Inventory.RetiresOnly (· = key)) := by
  refine .bind (.of_readOnly (validateKey_readOnly key)) fun _ ↦ ?_
  refine Query.Carries.transaction (Query.Carries.readOnly_bind
    (ensureProjectReady_readOnly key.projectId) fun _ ↦ ?_)
  refine Query.Carries.bind (fun c order c' h ↦ nextOrder_retires h) fun order ↦ ?_
  refine .bind (fun c tombstone c' h ↦ preserveAndDelete_retires h) fun tombstone ↦ ?_
  refine .bind (onPendingWork_retires _ _).carries fun _ ↦ ?_
  exact .bind (recordObservation_retires _ _).carries fun _ ↦
    .of_readOnly .pure

theorem observeExactRename_retires (projectId : ℤ) (oldPath newPath source : String)
    (deferred : Bool) : (observeExactRename projectId oldPath newPath source deferred).Respects
      (Inventory.RetiresOnly (· = ⟨projectId, oldPath⟩)) := by
  refine .bind (.of_readOnly (validateKey_readOnly _)) fun _ ↦ ?_
  refine .bind (.of_readOnly (validateKey_readOnly _)) fun _ ↦ ?_
  refine .bind (.of_readOnly .ensure) fun _ ↦ ?_
  refine Query.Carries.transaction (Query.Carries.readOnly_bind
    (ensureProjectReady_readOnly projectId) fun _ ↦ ?_)
  refine Query.Carries.bind (fun c order c' h ↦ nextOrder_retires h) fun order ↦ ?_
  refine .readOnly_bind .read fun count ↦ ?_
  refine .readOnly_bind .ensure fun _ ↦ ?_
  refine .bind (fun c tombstone c' h ↦ preserveAndDelete_retires h) fun tombstone ↦ ?_
  refine .bind (onPendingWork_retires _ _).carries fun _ ↦ ?_
  refine .bind (upsertPending_retires _ _ _ _ _).carries fun id ↦ ?_
  refine .bind (recordObservation_retires _ _).carries fun _ ↦ ?_
  refine .bind (fun c order c' h ↦ nextOrder_retires h) fun arrival ↦ ?_
  exact .bind (recordObservation_retires _ _).carries fun _ ↦
    .of_readOnly .pure

end Retirement

/-! ### Overlooking -/

def Inventory.ObservedSince (inventory : Inventory) (key : FileKey) (order : ℕ) : Prop :=
  ∃ row ∈ ofKey key inventory.observations.rows, order < row.order

theorem countLater_ne_zero {inventory : Inventory} {key : FileKey} {order : ℕ} :
    inventory.countLater key order ≠ 0 ↔ inventory.ObservedSince key order := by
  rw [← Nat.pos_iff_ne_zero, Inventory.countLater, Table.count_pos_iff]
  constructor
  · rintro ⟨row, hrow, hp⟩
    obtain ⟨hkey, hlt⟩ := of_decide_eq_true hp
    exact ⟨row, mem_filter.2 ⟨hrow, decide_eq_true hkey⟩, hlt⟩
  · rintro ⟨row, hrow, hlt⟩
    obtain ⟨hmem, hkey⟩ := mem_filter.1 hrow
    exact ⟨row, hmem, decide_eq_true ⟨of_decide_eq_true hkey, hlt⟩⟩

def Inventory.Overlooks (key : FileKey) (order : ℕ) (inventory inventory' : Inventory) : Prop :=
  inventory.ObservedSince key order →
    inventory'.summary key = inventory.summary key ∧ inventory'.work key = inventory.work key ∧
      ofKey key inventory'.observations.rows = ofKey key inventory.observations.rows

instance {key : FileKey} {order : ℕ} : Std.Refl (Inventory.Overlooks key order) :=
  ⟨fun _ _ ↦ ⟨rfl, rfl, rfl⟩⟩

instance {key : FileKey} {order : ℕ} : IsTrans Inventory (Inventory.Overlooks key order) := by
  refine ⟨fun _ _ _ h h' hsince ↦ ?_⟩
  obtain ⟨hsummary, hwork, hobservations⟩ := h hsince
  rw [Inventory.ObservedSince, ← hobservations] at hsince
  obtain ⟨hsummary', hwork', hobservations'⟩ := h' hsince
  exact ⟨hsummary'.trans hsummary, hwork'.trans hwork, hobservations'.trans hobservations⟩

section Overlooking

variable {key : FileKey} {order : ℕ} {other : FileKey}

theorem Inventory.Observes.overlooks {inventory inventory' : Inventory} {news : List ObservationRow}
    (h : inventory.Observes news inventory') (hnews : ∀ row ∈ news, row.key ≠ key) :
    inventory.Overlooks key order inventory' := by
  have hnone : ofKey key news = [] :=
    filter_eq_nil_iff.2 fun row hrow ↦ by simpa using hnews row hrow
  obtain ⟨hwork, hsummary⟩ := h.untouched key hnone
  refine fun _ ↦ ⟨hsummary, hwork, ?_⟩
  rw [h.observations, ofKey, filter_append]
  exact (congrArg (_ ++ ·) hnone).trans (append_nil _)

theorem onScanRuns_overlooks (f : Table scanRunSchema → Option (Table scanRunSchema)) :
    (onScanRuns f).Respects (Inventory.Overlooks key order) :=
  .changePart fun _ _ _ ↦ ⟨rfl, rfl, rfl⟩

theorem observeChange_overlooks (hother : other ≠ key) (change : LifecycleChange) (source : String)
    (deferred : Bool) :
    (observeChange other change source deferred).Respects (Inventory.Overlooks key order) := by
  refine .of_atomic (observeChange_atomic other change source deferred) fun c outcome c' h ↦ ?_
  refine (observeChange_runs h).overlooks fun row hrow ↦ ?_
  rw [mem_singleton.1 hrow]
  exact hother

theorem retireAbsent_overlooks (hother : other ≠ key) (reason : RetirementReason) (source : String)
    (causeId : Option ℕ) :
    (retireAbsent other reason source causeId).Respects (Inventory.Overlooks key order) := by
  refine .of_atomic (retireAbsent_atomic other reason source causeId) fun c outcome c' h ↦ ?_
  refine (retireAbsent_runs h).overlooks fun row hrow ↦ ?_
  rw [mem_singleton.1 hrow]
  exact hother

theorem reconcileStaged_overlooks (run : ScanRun) (path : String) :
    (reconcileStaged run path).Respects (Inventory.Overlooks key run.startObservationOrder) := by
  intro c
  by_cases hkey : (⟨run.projectId, path⟩ : FileKey) = key
  · subst hkey
    refine Query.relates_read_bind fun c' hc' ↦ ?_
    split_ifs with hlater
    · rw [← hc']
      exact onScanRuns_overlooks _ c'
    · exact fun hsince ↦ absurd (countLater_ne_zero.2 hsince) hlater
  · refine Query.Respects.bind (.of_readOnly Query.ReadOnly.read) (fun later ↦ ?_) c
    split_ifs
    · exact onScanRuns_overlooks _
    · refine Query.Respects.bind (.of_readOnly Query.ReadOnly.read) fun active ↦ ?_
      split_ifs
      · exact onScanRuns_overlooks _
      · exact .bind (observeChange_overlooks hkey _ _ _) fun _ ↦
          onScanRuns_overlooks _

theorem reconcileActive_overlooks (run : ScanRun) (staged : List String)
    (host : String → HostEntry) (path : String) :
    (reconcileActive run staged host path).Respects
      (Inventory.Overlooks key run.startObservationOrder) := by
  intro c
  rw [reconcileActive]
  split_ifs
  · exact Std.Refl.refl _
  by_cases hkey : (⟨run.projectId, path⟩ : FileKey) = key
  · subst hkey
    refine Query.relates_read_bind fun c' hc' ↦ ?_
    split_ifs with hlater
    · rw [← hc']
      exact Std.Refl.refl _
    · exact fun hsince ↦ absurd (countLater_ne_zero.2 hsince) hlater
  · refine Query.Respects.bind (.of_readOnly Query.ReadOnly.read) (fun later ↦ ?_) c
    split_ifs
    · exact .of_readOnly Query.ReadOnly.pure
    · cases host path with
      | absent =>
        exact .bind (retireAbsent_overlooks hkey _ _ _) fun _ ↦ onScanRuns_overlooks _
      | notFile =>
        exact .bind (retireAbsent_overlooks hkey _ _ _) fun _ ↦ onScanRuns_overlooks _
      | file => exact .of_readOnly .pure
      | error message =>
        exact .bind (onScanRuns_overlooks _) fun _ ↦ .of_readOnly .fail

theorem reconcileRepositoryScan_overlooks (run : ScanRun) (host : String → HostEntry) :
    (reconcileRepositoryScan run host).Respects
      (Inventory.Overlooks key run.startObservationOrder) := by
  refine .bind (.of_readOnly .read) fun state ↦ ?_
  refine .bind (.of_readOnly .ensure) fun _ ↦ ?_
  refine .bind (.of_readOnly .read) fun staged ↦ ?_
  refine .bind (.forEach (reconcileStaged_overlooks run) staged) fun _ ↦ ?_
  refine .bind (.of_readOnly .read) fun active ↦ ?_
  refine .bind (.forEach (reconcileActive_overlooks run staged host) active) fun _ ↦ ?_
  exact onScanRuns_overlooks _

end Overlooking

def HostEntry.IsGone : HostEntry → Prop
  | .absent | .notFile => True
  | .file | .error _ => False

section Reconciliation

variable (run : ScanRun) (host : String → HostEntry)

theorem reconcileStaged_retires (path : String) (p : FileKey → Prop) :
    (reconcileStaged run path).Respects (Inventory.RetiresOnly p) := by
  refine .bind (.of_readOnly .read) fun later ↦ ?_
  split_ifs
  · exact onScanRuns_retires _ _
  · refine .bind (.of_readOnly .read) fun active ↦ ?_
    split_ifs
    · exact onScanRuns_retires _ _
    · refine .bind (fun c ↦ ?_) fun _ ↦ onScanRuns_retires _ _
      exact (observeChange_retires .create "scan" true c).mono fun _ h ↦ nomatch h.1

theorem reconcileActive_retires (staged : List String) (path : String) :
    (reconcileActive run staged host path).Respects (Inventory.RetiresOnly fun key ↦
      key.projectId = run.projectId ∧ key.path ∉ staged ∧ (host key.path).IsGone) := by
  rw [reconcileActive]
  split_ifs with hstaged
  · exact .of_readOnly .pure
  · refine .bind (.of_readOnly .read) fun later ↦ ?_
    split_ifs
    · exact .of_readOnly .pure
    · cases hhost : host path with
      | absent =>
        refine .bind (fun c ↦ ?_) fun _ ↦ onScanRuns_retires _ _
        refine (retireAbsent_retires .deleted "scan" (some run.id) c).mono fun key hkey ↦ ?_
        rw [hkey]
        exact ⟨rfl, hstaged, by rw [hhost]; trivial⟩
      | notFile =>
        refine .bind (fun c ↦ ?_) fun _ ↦ onScanRuns_retires _ _
        refine (retireAbsent_retires .ineligible "scan" (some run.id) c).mono fun key hkey ↦ ?_
        rw [hkey]
        exact ⟨rfl, hstaged, by rw [hhost]; trivial⟩
      | file => exact .of_readOnly .pure
      | error message =>
        exact .bind (onScanRuns_retires _ _) fun _ ↦ .of_readOnly .fail

/-- **What a reconciliation retires.** Nothing, unless the enumeration is complete; and then summaries of
files of the project only that were not staged as eligible and are gone. -/
theorem reconcileRepositoryScan_retires (c : Connection Inventory FamiliarError) :
    c.store.RetiresOnly (fun key ↦
        (∃ row, c.store.scanRun run.id = some row ∧ row.status = .enumerationComplete) ∧
          key.projectId = run.projectId ∧ key.path ∉ c.store.stagedPaths run.id ∧
            (host key.path).IsGone)
      ((reconcileRepositoryScan run host).run c).2.store := by
  refine Query.relates_read_bind fun c₁ hc₁ ↦ ?_
  rw [← hc₁]
  refine Query.relates_ensure_bind fun hstate ↦ ?_
  have hcomplete : ∃ row, c₁.store.scanRun run.id = some row ∧ row.status = .enumerationComplete := by
    obtain ⟨row, hfound, hstatus⟩ := Option.map_eq_some_iff.1 hstate
    obtain ⟨hmem, hkey⟩ := Table.find_some hfound
    obtain ⟨hid, -⟩ := of_decide_eq_true hkey
    refine ⟨row, Table.find_eq_of_key hmem (decide_eq_true hid) fun other _ hother ↦ ?_, hstatus⟩
    exact decide_eq_true ((of_decide_eq_true hother).trans hid.symm)
  refine Query.relates_read_bind fun c₂ hc₂ ↦ ?_
  rw [← hc₂] at hcomplete ⊢
  have hloops : (do
      Query.forEach (c₂.store.stagedPaths run.id) (reconcileStaged run)
      let active ← Query.read (·.activePaths run.projectId)
      Query.forEach active (reconcileActive run (c₂.store.stagedPaths run.id) host)
      onScanRuns (·.update (·.id = run.id) fun row ↦
        { row with status := .reconciliationComplete, reconciliationStatus := .complete }) :
          LifecycleQuery Unit).Respects (Inventory.RetiresOnly fun key ↦
            key.projectId = run.projectId ∧ key.path ∉ c₂.store.stagedPaths run.id ∧
              (host key.path).IsGone) := by
    refine .bind (.forEach (fun path ↦ reconcileStaged_retires run path _) _) fun _ ↦ ?_
    refine .bind (.of_readOnly .read) fun active ↦ ?_
    refine .bind (.forEach (reconcileActive_retires run host _) active) fun _ ↦ ?_
    exact onScanRuns_retires _ _
  exact (hloops c₂).mono fun key hkey ↦ ⟨hcomplete, hkey⟩

theorem mem_stagedPaths {inventory : Inventory} {runId : ℕ} {path : String} :
    path ∈ inventory.stagedPaths runId ↔ ∃ entry ∈ inventory.scanEntries.rows,
      entry.scanRunId = runId ∧ entry.classification = .eligible ∧ entry.key.path = path := by
  rw [Inventory.stagedPaths, mem_mergeSort, List.mem_map]
  constructor
  · rintro ⟨entry, hentry, hpath⟩
    obtain ⟨hmem, hp⟩ := mem_filter.1 hentry
    obtain ⟨hrun, heligible⟩ := of_decide_eq_true hp
    exact ⟨entry, hmem, hrun, heligible, hpath⟩
  · rintro ⟨entry, hmem, hrun, heligible, hpath⟩
    exact ⟨entry, mem_filter.2 ⟨hmem, decide_eq_true ⟨hrun, heligible⟩⟩, hpath⟩

end Reconciliation

/-! ### Runs -/

/-- The observations go on, each under an order that is later than all before. -/
def Inventory.Advances (inventory inventory' : Inventory) : Prop :=
  (∀ projectId, inventory.lastOrder projectId ≤ inventory'.lastOrder projectId) ∧
    ∃ news, inventory'.observations.rows = inventory.observations.rows ++ news ∧
      ∀ row ∈ news, inventory.lastOrder row.key.projectId < row.order

instance : Std.Refl Inventory.Advances :=
  ⟨fun _ ↦ ⟨fun _ ↦ Nat.le_refl _, [], (append_nil _).symm, fun _ h ↦ by cases h⟩⟩

instance : IsTrans Inventory Inventory.Advances := by
  refine ⟨fun _ _ _ h h' ↦ ?_⟩
  obtain ⟨hle, news, hnews, hlater⟩ := h
  obtain ⟨hle', news', hnews', hlater'⟩ := h'
  refine ⟨fun projectId ↦ (hle projectId).trans (hle' projectId), news ++ news', ?_, fun row hrow ↦ ?_⟩
  · rw [hnews', hnews, append_assoc]
  · rcases mem_append.1 hrow with hold | hnew
    · exact hlater row hold
    · exact (hle _).trans_lt (hlater' row hnew)

theorem Inventory.Proceeds.advances (h : inventory.Proceeds inventory') :
    inventory.Advances inventory' := by
  obtain ⟨news, hobserves⟩ := h
  refine ⟨fun projectId ↦ ?_, news, hobserves.observations, fun row hrow ↦ ?_⟩
  · rw [hobserves.lastOrder]
    exact Nat.le_add_right _ _
  · have hproject : row ∈ ofProject row.key.projectId news :=
      mem_filter.2 ⟨hrow, decide_eq_true rfl⟩
    have hdrawn := List.mem_map_of_mem (f := (·.order)) hproject
    rw [hobserves.orders, mem_range'_1] at hdrawn
    exact hdrawn.1

theorem Inventory.SameOrders.advances (h : inventory.SameOrders inventory') :
    inventory.Advances inventory' := by
  refine ⟨fun projectId ↦ ?_, [], ?_, fun _ hrow ↦ by cases hrow⟩
  · rw [Inventory.lastOrder, Inventory.lastOrder, h.orders]
  · rw [h.observations, append_nil]

theorem Inventory.Fresh.upsertSummary (h : inventory.Fresh) {value : NewFileSummary} {now : String}
    (hupsert : inventory.upsertSummary value now = some inventory') : inventory'.Fresh := by
  rw [Inventory.upsertSummary] at hupsert
  split_ifs at hupsert
  obtain ⟨summaries, hwritten, rfl⟩ := Option.map_eq_some_iff.1 hupsert
  rw [Table.upsert] at hwritten
  have hid {row : FileSummaryRow} (hrow : row ∈ summaries.rows) :
      row.id = inventory.sequences.summaries + 1 ∨ ∃ old ∈ inventory.summaries.rows, row.id = old.id := by
    split_ifs at hwritten
    · obtain ⟨old, hold, heq⟩ := (Table.mem_update hwritten).1 hrow
      refine .inr ⟨old, hold, ?_⟩
      rw [← heq]
      split_ifs
      · rfl
      · rfl
    · rcases (Table.mem_insert hwritten).1 hrow with hold | hnew
      · exact .inr ⟨row, hold, rfl⟩
      · exact .inl (by rw [hnew])
  refine ⟨fun row hrow ↦ ?_, h.tombstones, fun row hrow ↦ ?_, fun row hrow active hactive ↦ ?_⟩
  · rcases hid hrow with hnew | ⟨old, hold, heq⟩
    · exact hnew.le
    · exact heq.trans_le (Nat.le_succ_of_le (h.summaries old hold))
  · exact Nat.le_succ_of_le (h.originals row hrow)
  · rcases hid hactive with hnew | ⟨old, hold, heq⟩
    · have hle := h.originals row hrow
      omega
    · exact heq ▸ h.retired row hrow old hold

theorem commitSummaryWork_fresh (value : NewFileSummary) (now : String) :
    (commitSummaryWork value now).Preserves Inventory.Fresh := by
  have hatomic : (commitSummaryWork value now).Atomic :=
    .bind (validateKey_readOnly value.key) fun _ ↦ .transaction
  have : Std.Refl fun inventory inventory' : Inventory ↦ inventory.Fresh → inventory'.Fresh :=
    ⟨fun _ ↦ id⟩
  refine .of_atomic hatomic fun c u c' h hfresh ↦ ?_
  obtain ⟨_, c₁, hvalidate, h⟩ := h.of_bind
  obtain ⟨c₂, c₃, hbegin, h, hend⟩ := h.of_transaction
  obtain ⟨_, c₄, hupsert, h⟩ := h.of_bind
  obtain ⟨pendingWork, -, hstore⟩ := onPendingWork_runs h
  have hupsert := hupsert.of_write
  rw [hbegin, (validateKey_readOnly value.key).store_eq hvalidate] at hupsert
  have hwritten := hfresh.upsertSummary hupsert
  rw [hend, hstore]
  exact ⟨hwritten.summaries, hwritten.tombstones, hwritten.originals, hwritten.retired⟩

theorem onPendingWork_fresh (f : Table pendingWorkSchema → Option (Table pendingWorkSchema)) :
    (onPendingWork f).Preserves Inventory.Fresh :=
  fun c ↦ (onPendingWork_retires f (fun _ ↦ True) c).fresh

theorem lifecycleCall_fresh (call : LifecycleCall) :
    call.query.Preserves Inventory.Fresh := by
  have hretires : call.query.Respects (Inventory.RetiresOnly fun _ ↦ True) := by
    cases call with
    | observeChange key change source deferred =>
      refine .bind (fun c ↦ ?_) fun _ ↦ .of_readOnly .pure
      exact (observeChange_retires change source deferred c).mono fun _ _ ↦ trivial
    | retireAbsent key reason source causeId =>
      refine .bind (fun c ↦ ?_) fun _ ↦ .of_readOnly .pure
      exact (retireAbsent_retires reason source causeId c).mono fun _ _ ↦ trivial
    | observeExactRename projectId oldPath newPath source deferred =>
      refine .bind (fun c ↦ ?_) fun _ ↦ .of_readOnly .pure
      exact (observeExactRename_retires projectId oldPath newPath source deferred c).mono
        fun _ _ ↦ trivial
    | startRepositoryScan projectId root =>
      exact ((sameFiles_startRepositoryScan projectId root).mono fun _ _ h ↦ h.retiresOnly).bind
        fun _ ↦ .of_readOnly .pure
    | stageScanEntry run path classification detail =>
      exact ((sameFiles_stageScanEntry run path classification detail).mono fun _ _ h ↦
        h.retiresOnly).bind fun _ ↦ .of_readOnly .pure
    | failRepositoryScan runId =>
      exact (onScanRuns_retires _ _).bind fun _ ↦ .of_readOnly .pure
    | markScanEnumerationComplete runId =>
      exact (onScanRuns_retires _ _).bind fun _ ↦ .of_readOnly .pure
    | reconcileRepositoryScan run host =>
      refine .bind (fun c ↦ ?_) fun _ ↦ .of_readOnly .pure
      exact (reconcileRepositoryScan_retires run host c).mono fun _ _ ↦ trivial
  exact fun c ↦ (hretires c).fresh

namespace Workshop

variable {workshop : Workshop}

theorem step_advances (workshop : Workshop) (step : Step) :
    workshop.inventory.Advances (workshop.step step).inventory := by
  cases step with
  | lifecycle step =>
    exact (respects_lifecycleCall step.call ⟨workshop.inventory, step.faults⟩).advances
  | take key limit =>
    rw [Workshop.step]
    split
    · exact Std.Refl.refl _
    · exact Std.Refl.refl _
  | commit index value now faults =>
    rw [Workshop.step]
    split
    · rename_i work hwork
      have hsame := respects_commitSummaryWork { value with key := work.work.key } now
        ⟨workshop.inventory, faults⟩
      rw [Workshop.commit]
      split
      · rename_i u c hrun
        rw [hrun] at hsame
        exact hsame.advances
      · rename_i e c hrun
        rw [hrun] at hsame
        exact hsame.advances
    · exact Std.Refl.refl _
  | complete key faults =>
    exact (respects_completeSummaryWork key ⟨workshop.inventory, faults⟩).advances
  | fail key faults =>
    exact (respects_failSummaryWork key ⟨workshop.inventory, faults⟩).advances

theorem run_advances (workshop : Workshop) (steps : List Step) :
    workshop.inventory.Advances (workshop.run steps).inventory := by
  induction steps generalizing workshop with
  | nil => exact Std.Refl.refl _
  | cons step steps ih =>
    exact IsTrans.trans _ _ _ (step_advances workshop step) (ih (workshop.step step))

theorem step_fresh (step : Step) (h : workshop.inventory.Fresh) :
    (workshop.step step).inventory.Fresh := by
  cases step with
  | lifecycle step => exact lifecycleCall_fresh step.call ⟨workshop.inventory, step.faults⟩ h
  | take key limit =>
    rw [Workshop.step]
    split
    · exact h
    · exact h
  | commit index value now faults =>
    rw [Workshop.step]
    split
    · rename_i work hwork
      have hfresh := commitSummaryWork_fresh { value with key := work.work.key } now
        ⟨workshop.inventory, faults⟩ h
      rw [Workshop.commit]
      split
      · rename_i u c hrun
        rw [hrun] at hfresh
        exact hfresh
      · rename_i e c hrun
        rw [hrun] at hfresh
        exact hfresh
    · exact h
  | complete key faults =>
    refine Query.Respects.bind (R := Inventory.RetiresOnly fun _ ↦ True)
      (.of_readOnly (validateKey_readOnly key)) (fun _ ↦ ?_) ⟨workshop.inventory, faults⟩ |>.fresh h
    exact onPendingWork_retires _ _
  | fail key faults => exact onPendingWork_fresh _ ⟨workshop.inventory, faults⟩ h

theorem run_fresh (steps : List Step) (h : workshop.inventory.Fresh) :
    (workshop.run steps).inventory.Fresh := by
  induction steps generalizing workshop with
  | nil => exact h
  | cons step steps ih => exact ih (step_fresh step h)

end Workshop

theorem fresh_initial (projects : List RegisteredProjectRow)
    (legacyIdentities : List LegacyIdentityRow) :
    (Inventory.initial projects legacyIdentities).Fresh where
  summaries _ h := by cases h
  tombstones _ h := by cases h
  originals _ h := by cases h
  retired _ h := by cases h

theorem startRepositoryScan_runs {projectId : ℤ} {root : String} {run : ScanRun}
    {c c' : Connection Inventory FamiliarError}
    (h : (startRepositoryScan projectId root).Runs c run c') :
    run.projectId = projectId ∧ run.startObservationOrder = c'.store.lastOrder projectId := by
  obtain ⟨c₁, c₂, hbegin, hbody, hend⟩ := h.of_transaction
  obtain ⟨_, c₃, hready, hbody⟩ := hbody.of_bind
  obtain ⟨found, c₄, hread, hbody⟩ := hbody.of_bind
  rcases found with _ | registered
  · exact absurd hbody Query.not_runs_fail
  obtain ⟨-, hbody⟩ := hbody.of_ensure_bind
  obtain ⟨_, c₆, hinterrupt, hbody⟩ := hbody.of_bind
  obtain ⟨boundary, c₇, hboundary, hbody⟩ := hbody.of_bind
  obtain ⟨id, rfl, hinsert⟩ := hbody.of_bind_pure
  obtain ⟨rfl, hc₇⟩ := hboundary.of_read
  obtain ⟨scanRuns, -, hwritten⟩ := Option.map_eq_some_iff.1 hinsert.of_change
  refine ⟨rfl, ?_⟩
  rw [hend, ← (Prod.mk.inj hwritten).2, hc₇]
  rfl

def Workshop.since (workshop : Workshop) (inventory : Inventory) (later : List Workshop.Step) :
    Workshop :=
  Workshop.run { workshop with inventory } later

def Inventory.reconciled (inventory : Inventory) (run : ScanRun) (host : String → HostEntry)
    (faults : List (Option FamiliarError)) : Inventory :=
  ((reconcileRepositoryScan run host).run ⟨inventory, faults⟩).2.store

/-- **Reconciliation undoes no later observation and loses no summary.** A scan is started, anything may
happen before it is reconciled, and engine faults may come at any statement. A file of the project that
was observed since the scan began keeps its summary, its work and its observations. A summary that is
retired is one of a file that was not staged as eligible and is gone; the enumeration was complete; and
the summary lies in a tombstone with everything that it said. -/
theorem reconciliation_spares (projects : List RegisteredProjectRow)
    (legacyIdentities : List LegacyIdentityRow) (steps later : List Workshop.Step) {projectId : ℤ}
    {root : String} {run : ScanRun} {faults : List (Option FamiliarError)}
    {c : Connection Inventory FamiliarError}
    (hstart : (startRepositoryScan projectId root).Runs
      ⟨((Workshop.initial projects legacyIdentities).run steps).inventory, faults⟩ run c)
    (host : String → HostEntry) (faults' : List (Option FamiliarError)) (before : Inventory)
    (hbefore : before =
      (((Workshop.initial projects legacyIdentities).run steps).since c.store later).inventory) :
    (∀ row ∈ before.observations.rows.drop c.store.observations.rows.length,
      row.key.projectId = projectId →
        (before.reconciled run host faults').summary row.key = before.summary row.key ∧
        (before.reconciled run host faults').work row.key = before.work row.key ∧
        ofKey row.key (before.reconciled run host faults').observations.rows =
          ofKey row.key before.observations.rows) ∧
    ∀ key summary, before.summary key = some summary →
      (before.reconciled run host faults').summary key = some summary ∨
        (before.reconciled run host faults').summary key = none ∧
          (∃ row, before.scanRun run.id = some row ∧ row.status = .enumerationComplete) ∧
          (∀ entry ∈ before.scanEntries.rows, entry.scanRunId = run.id →
            entry.key.path = key.path → entry.classification ≠ .eligible) ∧
          (host key.path).IsGone ∧
          ∃ tombstone ∈ (before.reconciled run host faults').tombstones.rows,
            tombstone.original = summary := by
  obtain ⟨hproject, hboundary⟩ := startRepositoryScan_runs hstart
  refine ⟨fun row hrow hrowProject ↦ ?_, fun key summary hsummary ↦ ?_⟩
  · obtain ⟨-, news, hnews, hlater⟩ := Workshop.run_advances
      { (Workshop.initial projects legacyIdentities).run steps with inventory := c.store } later
    have hrows : before.observations.rows = c.store.observations.rows ++ news := by
      rw [hbefore]
      exact hnews
    rw [hrows, drop_left] at hrow
    have hlt : run.startObservationOrder < row.order := by
      rw [hboundary, ← hrowProject]
      exact hlater row hrow
    have hsince : before.ObservedSince row.key run.startObservationOrder := by
      refine ⟨row, mem_filter.2 ⟨?_, decide_eq_true rfl⟩, hlt⟩
      rw [hrows]
      exact mem_append_right _ hrow
    exact reconcileRepositoryScan_overlooks run host ⟨before, faults'⟩ hsince
  · have hfresh : before.Fresh := by
      have hstarted := @Workshop.run_fresh (.initial projects legacyIdentities) steps
        (fresh_initial projects legacyIdentities)
      have hscanned := ((sameFiles_startRepositoryScan projectId root).of_runs hstart).retiresOnly
        (p := fun _ ↦ True)
      rw [hbefore]
      exact Workshop.run_fresh later (hscanned.fresh hstarted)
    rcases (reconcileRepositoryScan_retires run host ⟨before, faults'⟩).retired hfresh key summary
      hsummary with hkept | ⟨hnone, ⟨hcomplete, -, hstaged, hgone⟩, htombstone⟩
    · exact .inl hkept
    · refine .inr ⟨hnone, hcomplete, fun entry hentry hrun hpath heligible ↦ ?_, hgone, htombstone⟩
      exact hstaged (mem_stagedPaths.2 ⟨entry, hentry, hrun, heligible, hpath⟩)

namespace Workshop

/-- A project with a file that has a summary. -/
def summarized : Workshop :=
  takenOnce.run [.commit 0 (summaryOf "text") "t1" []]

def scanned : Except FamiliarError ScanRun × Connection Inventory FamiliarError :=
  (startRepositoryScan 1 "/repo").run ⟨summarized.inventory, []⟩

/-- The file is observed after the scan has begun, and the scan finds nothing. -/
def observedSince : List Step :=
  [.lifecycle ⟨.observeChange ⟨1, "a.rs"⟩ .modify "watcher" false, []⟩,
    .lifecycle ⟨.markScanEnumerationComplete 1, []⟩]

/-- The work of the observed file stays pending. -/
theorem reconciliation_spares_observedSince :
    ((summarized.since scanned.2.store observedSince).inventory.reconciled ⟨1, 1, "/repo", 1⟩
      (fun _ ↦ .absent) []).work ⟨1, "a.rs"⟩ =
        (summarized.since scanned.2.store observedSince).inventory.work ⟨1, "a.rs"⟩ := by
  have hstart : (startRepositoryScan 1 "/repo").Runs ⟨summarized.inventory, []⟩ ⟨1, 1, "/repo", 1⟩
      scanned.2 := Prod.ext (by decide +kernel) rfl
  obtain ⟨hspared, -⟩ := reconciliation_spares [⟨1, "/repo", true⟩] []
    [.lifecycle ⟨.observeChange ⟨1, "a.rs"⟩ .create "watcher" false, []⟩, .take ⟨1, "a.rs"⟩ 10,
      .commit 0 (summaryOf "text") "t1" []] observedSince hstart (fun _ ↦ .absent) [] _ rfl
  exact (hspared ⟨⟨1, "a.rs"⟩, 2, .modified, "watcher", none, "pending"⟩ (by decide +kernel) rfl).2.1

/-- The scan has staged the file as excluded. -/
def excluded : List Step :=
  [.lifecycle ⟨.stageScanEntry ⟨1, 1, "/repo", 1⟩ "a.rs" "excluded" none, []⟩,
    .lifecycle ⟨.markScanEnumerationComplete 1, []⟩]

/-- A file that was staged is retired, when it was staged as excluded and is gone. -/
theorem reconciliation_excluded :
    (summarized.since scanned.2.store excluded).inventory.scanEntries.rows.map (·.key.path) =
        ["a.rs"] ∧
      ((summarized.since scanned.2.store excluded).inventory.summary ⟨1, "a.rs"⟩).isSome = true ∧
      ((summarized.since scanned.2.store excluded).inventory.reconciled ⟨1, 1, "/repo", 1⟩
        (fun _ ↦ .absent) []).summary ⟨1, "a.rs"⟩ = none := by
  decide +kernel

end Workshop

end FamiliarAi
