import FamiliarAi.Storage.IdentityRecords

/-!
# Rolling a run back

A rollback that is refused changes no summary. One that succeeds takes back what the open records of
the run say and marks them, which keeps the store consistent (`consistent_of_reachable`).

No assumption on the writers in between is needed for this: the rollback writes the rows of its
records only, and no other open record is about one of them.
-/

namespace FamiliarAi

open Relational Query Transition List

section Rollback

variable {c c' : Connection IdentityStore FamiliarError} {projectId : ℤ} {runId : ℕ} {now : String}
  {repoRoot : String} {store store' : IdentityStore} {record : ReconciliationRecord}
  {records : List ReconciliationRecord} {u : Unit}
  {answer : Except String FileSummaryRollbackResult}

/-! ### Rollbacks of any store -/

/-- What a rollback leaves behind. -/
structure RolledBack (runId : ℕ) (now : String) (store store' : IdentityStore) : Prop where
  summaries : ∀ row ∈ store'.summaries.rows, row ∈ store.summaries.rows ∨
    ∃ record ∈ store.runReconciliations runId, row.id = record.original.id
  records : store'.records.rows = store.records.rows.map fun record ↦
    if record.runId = runId ∧ record.rolledBackAt = none then
      { record with rolledBackAt := some now } else record
  summaryIds : store'.sequences.summaries = store.sequences.summaries
  runIds : store.sequences.runs ≤ store'.sequences.runs
  rollbackIds : store.NumbersRollbacks → store'.NumbersRollbacks

theorem runs_restoreRecord (h : (restoreRecord projectId record).Runs c u c') :
    ∃ summaries, c'.store = { c.store with summaries } ∧
      ∀ row ∈ summaries.rows, row ∈ c.store.summaries.rows ∨ row.id = record.original.id := by
  unfold restoreRecord at h
  split at h
  · obtain ⟨summaries, hupdate, hstore⟩ := h.of_writePart
    refine ⟨summaries, hstore, fun row hrow ↦ ?_⟩
    obtain ⟨row', hrow', rfl⟩ := (Table.mem_update hupdate).1 hrow
    split
    · rename_i hid
      exact .inr (of_decide_eq_true hid).1
    · exact .inl hrow'
  · obtain ⟨summaries, hinsert, hstore⟩ := h.of_writePart
    refine ⟨summaries, hstore, fun row hrow ↦ ?_⟩
    exact ((Table.mem_insert hinsert).1 hrow).imp_right (congrArg FileSummaryRow.id)
  · obtain ⟨-, rfl⟩ := runs_pure.1 h
    exact ⟨c.store.summaries, rfl, fun row hrow ↦ .inl hrow⟩

theorem runs_restoreRecords (h : (forEach records (restoreRecord projectId)).Runs c u c') :
    ∃ summaries, c'.store = { c.store with summaries } ∧
      ∀ row ∈ summaries.rows, row ∈ c.store.summaries.rows ∨
        ∃ record ∈ records, row.id = record.original.id := by
  refine h.of_forEach (P := fun done store ↦ ∃ summaries, store = { c.store with summaries } ∧
    ∀ row ∈ summaries.rows, row ∈ c.store.summaries.rows ∨
      ∃ record ∈ done, row.id = record.original.id)
    ⟨c.store.summaries, rfl, fun row hrow ↦ .inl hrow⟩ ?_
  rintro done record rest c₁ c₂ - ⟨summaries, hstore, hrows⟩ hrun
  obtain ⟨summaries', hstore', hrows'⟩ := runs_restoreRecord hrun
  rw [hstore] at hstore' hrows'
  refine ⟨summaries', hstore', fun row hrow ↦ ?_⟩
  rcases hrows' row hrow with hold | hid
  · refine (hrows row hold).imp_right fun ⟨record', hrecord', hid⟩ ↦ ?_
    exact ⟨record', mem_append_left _ hrecord', hid⟩
  · exact .inr ⟨record, mem_append_right _ (mem_singleton.2 rfl), hid⟩

theorem quiet_of_insertRollback {conflict : Option String} {rollbackId : ℕ}
    (h : (insertRollback runId projectId conflict).Runs c rollbackId c') :
    Quiet c.store c'.store := by
  obtain ⟨rollbacks, hinsert, hstore⟩ := Option.map_eq_some_iff.1 h.of_change
  rw [← (Prod.mk.inj hstore).2]
  refine ⟨rfl, rfl, rfl, rfl, le_rfl, fun hids row hrow ↦ ?_⟩
  rcases (Table.mem_insert hinsert).1 hrow with hold | rfl
  · exact (hids row hold).trans (Nat.le_succ _)
  · exact le_rfl

theorem quiet_of_recordRollbackConflict {message : String}
    (h : (recordRollbackConflict runId projectId message).Runs c answer c') :
    answer = .error message ∧ Quiet c.store c'.store := by
  obtain ⟨rollbackId, rfl, hinsert⟩ := h.of_bind_pure
  exact ⟨rfl, quiet_of_insertRollback hinsert⟩

theorem readOnly_rollbackConflict : (rollbackConflict projectId record).ReadOnly := by
  unfold rollbackConflict
  split
  · exact ReadOnly.pure
  · refine ReadOnly.read.bind fun current ↦ ?_
    split
    · exact ReadOnly.pure
    · exact ReadOnly.read.bind fun _ ↦ ReadOnly.pure

/-- The validation comes before every change. -/
theorem readOnly_firstRollbackConflict (records : List ReconciliationRecord) :
    (firstRollbackConflict projectId records).ReadOnly := by
  induction records with
  | nil => exact ReadOnly.pure
  | cons record records ih =>
    refine readOnly_rollbackConflict.bind fun conflict ↦ ?_
    cases conflict with
    | some reason => exact ReadOnly.pure
    | none => exact ih

/-- What a rollback has to find before it restores anything, and what it has done when it ends. -/
inductive RollbackRun (runId : ℕ) (now : String) (c c' : Connection IdentityStore FamiliarError) :
    Except String FileSummaryRollbackResult → Prop
  | refused {message : String} : Quiet c.store c'.store →
      RollbackRun runId now c c' (.error message)
  | restored {projectId : ℤ} {answer : Except String FileSummaryRollbackResult}
      {c₁ : Connection IdentityStore FamiliarError} : c₁.store = c.store →
      (restoreRun runId projectId (c.store.runReconciliations runId) now).Runs c₁ answer c' →
      (∃ run, c.store.runs.find (fun row ↦ row.id = runId ∧ row.status = .completed) = some run ∧
        run.projectId = projectId) →
      RollbackRun runId now c c' answer

theorem runs_rollbackRun (h : (rollbackRun runId now).Runs c answer c') :
    RollbackRun runId now c c' answer := by
  obtain ⟨project?, c₁, hread, h⟩ := h.of_bind
  obtain ⟨hproject, hc₁⟩ := hread.of_read
  rcases project? with _ | projectId
  · exact absurd h not_runs_fail
  obtain ⟨run, hrun, hid⟩ := Option.map_eq_some_iff.1 hproject.symm
  obtain ⟨records, c₂, hread, h⟩ := h.of_bind
  obtain ⟨hrecords, hc₂⟩ := hread.of_read
  rw [hc₁] at hrecords hc₂
  have hrefused {message : String}
      (h : (recordRollbackConflict runId projectId message).Runs c₂ answer c') :
      RollbackRun runId now c c' answer := by
    obtain ⟨rfl, hquiet⟩ := quiet_of_recordRollbackConflict h
    rw [hc₂] at hquiet
    exact .refused hquiet
  split at h
  · exact hrefused h
  · split at h
    · exact hrefused h
    · obtain ⟨conflict, c₃, hvalidate, h⟩ := h.of_bind
      have hc₃ := (readOnly_firstRollbackConflict records).store_eq hvalidate
      rw [hc₂] at hc₃
      rcases conflict with _ | reason
      · rw [hrecords] at h
        exact .restored hc₃ h ⟨run, hrun, hid⟩
      obtain ⟨rfl, hquiet⟩ := quiet_of_recordRollbackConflict h
      rw [hc₃] at hquiet
      exact .refused hquiet

theorem runs_restoreRun
    (h : (restoreRun runId projectId (c.store.runReconciliations runId) now).Runs c answer c') :
    (∃ result, answer = .ok result) ∧ RolledBack runId now c.store c'.store ∧
      ∃ c₁, (forEach (c.store.runReconciliations runId) (restoreRecord projectId)).Runs c () c₁ ∧
        c'.store.summaries = c₁.store.summaries := by
  obtain ⟨_, c₁, hrestore, h⟩ := h.of_bind
  obtain ⟨_, c₂, hmark, h⟩ := h.of_bind
  obtain ⟨rollbackId, rfl, hinsert⟩ := h.of_bind_pure
  obtain ⟨summaries, hstore₁, hrows⟩ := runs_restoreRecords hrestore
  obtain ⟨records, hupdate, hstore₂⟩ := hmark.of_writePart
  have hquiet := quiet_of_insertRollback hinsert
  rw [hstore₁] at hupdate hstore₂
  rw [hstore₂] at hquiet
  refine ⟨⟨_, rfl⟩, ⟨?_, ?_, ?_, ?_, hquiet.rollbackIds⟩, c₁, hrestore, ?_⟩
  · rw [hquiet.summaries]
    exact hrows
  · rw [hquiet.records]
    refine (Table.rows_update hupdate).trans (map_congr_left fun record _ ↦ ?_)
    simp only [decide_eq_true_eq]
  · exact hquiet.summaryIds
  · exact hquiet.runIds
  · rw [hquiet.summaries, hstore₁]

theorem exists_of_mem_rolledBack (h : RolledBack runId now store store')
    (hrecord : record ∈ store'.records.rows) :
    ∃ record' ∈ store.records.rows, record.original = record'.original ∧
      record.runId = record'.runId ∧
      (record.rolledBackAt = none →
        record = record' ∧ record ∉ store.runReconciliations runId) := by
  rw [h.records] at hrecord
  obtain ⟨record', hmem, rfl⟩ := List.mem_map.1 hrecord
  split
  · exact ⟨record', hmem, rfl, rfl, nofun⟩
  · rename_i hother
    refine ⟨record', hmem, rfl, rfl, fun hopen ↦ ⟨rfl, fun hrun ↦ hother ?_⟩⟩
    exact of_decide_eq_true (mem_filter.1 hrun).2

theorem IdentityStore.Consistent.of_rolledBack (h : store.Consistent)
    (hrollback : RolledBack runId now store store') : store'.Consistent where
  rowIds row hrow := by
    rw [hrollback.summaryIds]
    rcases hrollback.summaries row hrow with hold | ⟨record, hrecord, hid⟩
    · exact h.rowIds row hold
    · rw [hid]
      exact h.originalIds record (mem_filter.1 hrecord).1
  originalIds record hrecord := by
    obtain ⟨record', hmem, hsame, -, -⟩ := exists_of_mem_rolledBack hrollback hrecord
    rw [hsame, hrollback.summaryIds]
    exact h.originalIds record' hmem
  runIds record hrecord := by
    obtain ⟨record', hmem, -, hsame, -⟩ := exists_of_mem_rolledBack hrollback hrecord
    rw [hsame]
    exact (h.runIds record' hmem).trans hrollback.runIds
  legacy record hrecord hopen := by
    obtain ⟨record', hmem, -, -, hsame⟩ := exists_of_mem_rolledBack hrollback hrecord
    obtain ⟨rfl, -⟩ := hsame hopen
    exact h.legacy record hmem hopen
  stands record hrecord hopen := by
    obtain ⟨record', hmem, -, -, hsame⟩ := exists_of_mem_rolledBack hrollback hrecord
    obtain ⟨rfl, hother⟩ := hsame hopen
    refine (h.stands record hmem hopen).mono fun row hrow hid ↦ ?_
    refine (hrollback.summaries row hrow).resolve_right fun ⟨record', hrecord', hid'⟩ ↦ hother ?_
    -- a row has one open record only, and this one was not rolled back
    obtain ⟨hmem', hopen'⟩ := mem_filter.1 hrecord'
    rw [h.once record hmem record' hmem' hopen (of_decide_eq_true hopen').2 (hid.symm.trans hid')]
    exact hrecord'
  once record hrecord record' hrecord' hopen hopen' hid := by
    obtain ⟨r, hmem, -, -, hsame⟩ := exists_of_mem_rolledBack hrollback hrecord
    obtain ⟨r', hmem', -, -, hsame'⟩ := exists_of_mem_rolledBack hrollback hrecord'
    obtain ⟨rfl, -⟩ := hsame hopen
    obtain ⟨rfl, -⟩ := hsame' hopen'
    exact h.once record hmem record' hmem' hopen hopen' hid
  rollbackIds := hrollback.rollbackIds h.rollbackIds

/-- **A rollback that fails, or is refused, changes no summary.** -/
theorem fails_rollback {e : FamiliarError}
    (h : (rollbackFileSummaryReconciliation runId now).Fails c e c') : Quiet c.store c'.store := by
  rcases fails_bind h with h | ⟨answer, c₁, hrun, h⟩
  · rw [Atomic.transaction c e c' h]
    exact Std.Refl.refl _
  · obtain ⟨c₂, c₃, hc₂, hbody, hc₁⟩ := hrun.of_transaction
    cases answer with
    | ok result => cases h
    | error message =>
      cases h
      cases runs_rollbackRun hbody with
      | refused hquiet =>
        rw [hc₁, ← hc₂]
        exact hquiet
      | restored hc₄ hrestore _ =>
        rw [← hc₄] at hrestore
        obtain ⟨⟨result, hresult⟩, -⟩ := runs_restoreRun hrestore
        cases hresult

theorem runs_rollback {result : FileSummaryRollbackResult}
    (h : (rollbackFileSummaryReconciliation runId now).Runs c result c') :
    RolledBack runId now c.store c'.store ∧
      ∃ projectId run c₁ c₂, c.store.runs.find (fun row ↦
        row.id = runId ∧ row.status = .completed) = some run ∧ run.projectId = projectId ∧
        c₁.store = c.store ∧
        (forEach (c.store.runReconciliations runId) (restoreRecord projectId)).Runs c₁ () c₂ ∧
        c'.store.summaries = c₂.store.summaries := by
  obtain ⟨answer, c₁, hrun, h⟩ := h.of_bind
  obtain ⟨c₂, c₃, hc₂, hbody, hc₁⟩ := hrun.of_transaction
  rcases answer with message | result'
  · exact absurd h not_runs_fail
  obtain ⟨-, rfl⟩ := runs_pure.1 h
  cases runs_rollbackRun hbody with
  | restored hc₄ hrestore hcompleted =>
    rename_i projectId c₄
    obtain ⟨run, hfind, hid⟩ := hcompleted
    rw [← hc₄] at hrestore
    obtain ⟨-, hrolled, c₅, hloop, hsummaries⟩ := runs_restoreRun hrestore
    rw [hc₄] at hrolled hloop
    rw [hc₂] at hfind
    rw [hc₁]
    rw [hc₂] at hrolled hloop
    exact ⟨hrolled, projectId, run, c₄, c₅, hfind, hid, hc₄.trans hc₂, hloop, hsummaries⟩

end Rollback

/-! ### The reachable stores -/

section Reachable

variable {store : IdentityStore} {store' : IdentityStore}

theorem consistent_of_fresh (h : store.Fresh) : store.Consistent := by
  have hrecords (record : ReconciliationRecord) : record ∉ store.records.rows := by
    rw [h.records]
    exact not_mem_nil
  refine ⟨h.summaries, ?_, ?_, ?_, ?_, ?_, ?_⟩
  · exact fun record hrecord ↦ absurd hrecord (hrecords record)
  · exact fun record hrecord ↦ absurd hrecord (hrecords record)
  · exact fun record hrecord ↦ absurd hrecord (hrecords record)
  · exact fun record hrecord ↦ absurd hrecord (hrecords record)
  · exact fun record hrecord ↦ absurd hrecord (hrecords record)
  · intro row hrow
    rw [h.rollbacks] at hrow
    exact absurd hrow not_mem_nil

/-- A new row is under an id that no record speaks of. -/
theorem consistent_of_insertSummary (h : store.Consistent) {key : FileKey}
    {content : SummaryContent} {lastUpdatedAt createdAt updatedAt : String}
    (hstore : store.insertSummary key content lastUpdatedAt createdAt updatedAt = some store') :
    store'.Consistent := by
  rw [IdentityStore.insertSummary] at hstore
  split at hstore
  · obtain ⟨summaries, hinsert, rfl⟩ := Option.map_eq_some_iff.1 hstore
    refine h.of_records (fun _ hrecord ↦ hrecord) (Nat.le_succ _) le_rfl ?_ ?_ h.rollbackIds
    · intro row hrow
      rcases (Table.mem_insert hinsert).1 hrow with hold | rfl
      · exact (h.rowIds row hold).trans (Nat.le_succ _)
      · exact le_rfl
    · intro record hrecord hopen hstands
      refine hstands.mono fun row hrow hid ↦ ?_
      rcases (Table.mem_insert hinsert).1 hrow with hold | rfl
      · exact hold
      · have hle := h.originalIds record hrecord
        rw [← hid] at hle
        exact absurd hle (Nat.not_succ_le_self _)
  · cases hstore

theorem consistent_of_createOrUpdate (h : store.Consistent) {value : NewFileSummary} {now : String}
    (hstore : store.createOrUpdate value now = some store') : store'.Consistent := by
  rw [IdentityStore.createOrUpdate] at hstore
  split at hstore
  · rename_i hcanonical
    split at hstore
    · obtain ⟨summaries, hupdate, rfl⟩ := Option.map_eq_some_iff.1 hstore
      refine h.of_records (fun _ hrecord ↦ hrecord) le_rfl le_rfl ?_ ?_ h.rollbackIds
      · intro row hrow
        obtain ⟨row', hrow', rfl⟩ := (Table.mem_update hupdate).1 hrow
        split
        · exact h.rowIds row' hrow'
        · exact h.rowIds row' hrow'
      · intro record hrecord hopen hstands
        have hwritten := hstands.write
          (f := fun row ↦ { row with
            content := value.content, lastUpdatedAt := now, updatedAt := now })
          (h.legacy record hrecord hopen) hcanonical (fun _ ↦ rfl) fun _ ↦ rfl
        refine hwritten.mono fun row hrow _ ↦ ?_
        rw [Table.rows_update hupdate] at hrow
        simpa only [decide_eq_true_eq] using hrow
    · exact consistent_of_insertSummary h hstore
  · cases hstore

theorem consistent_of_deleteFileSummary (h : store.Consistent) (id : ℕ) :
    (store.deleteFileSummary id).Consistent := by
  have hrows (row : FileSummaryRow) (hrow : row ∈ (store.deleteFileSummary id).summaries.rows) :
      row ∈ store.summaries.rows := mem_of_mem_filter hrow
  exact h.of_records (fun _ hrecord ↦ hrecord) le_rfl le_rfl (fun row hrow ↦ h.rowIds row
    (hrows row hrow)) (fun _ _ _ hstands ↦ hstands.mono fun row hrow _ ↦ hrows row hrow)
    h.rollbackIds

theorem consistent_of_deleteProject (h : store.Consistent) (projectId : ℤ) :
    (store.deleteProject projectId).Consistent := by
  have hrows (row : FileSummaryRow)
      (hrow : row ∈ (store.deleteProject projectId).summaries.rows) :
      row ∈ store.summaries.rows := mem_of_mem_filter hrow
  exact h.of_records (fun _ hrecord ↦ mem_of_mem_filter hrecord) le_rfl le_rfl
    (fun row hrow ↦ h.rowIds row (hrows row hrow))
    (fun _ _ _ hstands ↦ hstands.mono fun row hrow _ ↦ hrows row hrow)
    fun row hrow ↦ h.rollbackIds row (mem_of_mem_filter hrow)

theorem consistent_of_reconcile (h : store.Consistent) (projectId : ℤ)
    (faults : List (Option FamiliarError)) :
    ((reconcileFileSummaryIdentities projectId).run ⟨store, faults⟩).2.store.Consistent := by
  cases hrun : (reconcileFileSummaryIdentities projectId).run ⟨store, faults⟩ with
  | mk answer c' =>
    rcases answer with e | result
    · exact h.of_quiet (fails_reconcileFileSummaryIdentities hrun)
    obtain ⟨-, project, -, hreconciled, hsequence, -⟩ :=
      runs_reconcileFileSummaryIdentities hrun
    exact h.of_reconciled hreconciled (Nat.lt_succ_self _) hsequence.ge

theorem consistent_of_rollback (h : store.Consistent) (runId : ℕ) (now : String)
    (faults : List (Option FamiliarError)) :
    ((rollbackFileSummaryReconciliation runId now).run ⟨store, faults⟩).2.store.Consistent := by
  cases hrun : (rollbackFileSummaryReconciliation runId now).run ⟨store, faults⟩ with
  | mk answer c' =>
    cases answer with
    | ok result => exact h.of_rolledBack (runs_rollback hrun).1
    | error e => exact h.of_quiet (fails_rollback hrun)

/-- What leaves the summaries and the records alone. -/
theorem consistent_of_projects (h : store.Consistent) (projects : List RegisteredProjectRow) :
    ({ store with projects } : IdentityStore).Consistent :=
  ⟨h.rowIds, h.originalIds, h.runIds, h.legacy, h.stands, h.once, h.rollbackIds⟩

theorem consistent_getD (h : store.Consistent) {result : Option IdentityStore}
    (hresult : ∀ store', result = some store' → store'.Consistent) :
    (result.getD store).Consistent := by
  cases result with
  | none => exact h
  | some store' => exact hresult store' rfl

/-- **Every store that is reached is consistent.** -/
theorem consistent_of_reachable (h : identitySystem.Reachable store) : store.Consistent := by
  refine h.invariant (fun _ hfresh ↦ consistent_of_fresh hfresh) ?_
  intro store event store' h _ hstep
  obtain rfl := Option.some.inj hstep
  cases event with
  | createOrUpdate value now =>
    exact consistent_getD h fun _ hstore ↦ consistent_of_createOrUpdate h hstore
  | insertLegacy key content lastUpdatedAt createdAt updatedAt =>
    exact consistent_getD h fun _ hstore ↦ consistent_of_insertSummary h hstore
  | deleteFileSummary id => exact consistent_of_deleteFileSummary h id
  | registerProject row => exact consistent_of_projects h _
  | updateProject row => exact consistent_of_projects h _
  | deleteProject projectId => exact consistent_of_deleteProject h projectId
  | reconcile projectId faults => exact consistent_of_reconcile h projectId faults
  | rollback runId now faults => exact consistent_of_rollback h runId now faults

end Reachable

end FamiliarAi
