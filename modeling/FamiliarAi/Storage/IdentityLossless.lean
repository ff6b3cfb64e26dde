import FamiliarAi.Storage.IdentityRollback

/-!
# Reconciling without loss, and back

What a successful run has done from any store that is reached, and what a second run and a rollback
right behind it do. The shape that a run leaves (`Reconciled`) says all of it.

* The row that a summary had is where its path says, or in a record. A summary is lost in no case.
* A second run meets only canonical rows and rows with a record that stands, so it keeps all of
  them.
* A rollback meets no conflict: every converted row is where its record says, every conflicting row
  is gone, and the paths that they had are free. Taking the records back one by one leads through
  tables that hold each row either as it was or as it was settled, and no two such rows collide
  (`admits_restoredAfter`).
-/

namespace FamiliarAi

open Relational Query Transition List Option

section Behind

variable {store store' : IdentityStore} {projectId : ℤ} {runId : ℕ} {repoRoot : String}
  {row row' : FileSummaryRow} {record : ReconciliationRecord} {done : List ReconciliationRecord}
  {c c' : Connection IdentityStore FamiliarError} {u : Unit} {news : List ReconciliationRecord}
  {rows : List FileSummaryRow} {path : String}

theorem exists_news_of_outcome
    (hentries : news.map (·.entry) = (store.projectRows projectId).filterMap fun row ↦ (store.outcome projectId repoRoot row).record runId row)
    (hrow : row ∈ store.summaries.rows) (hproject : row.key.projectId = projectId)
    (h : store.outcome projectId repoRoot row ≠ .kept) :
    ∃ record ∈ news,
      (store.outcome projectId repoRoot row).record runId row = some record.entry := by
  have hsome : ∃ entry, (store.outcome projectId repoRoot row).record runId row = some entry := by
    cases houtcome : store.outcome projectId repoRoot row with
    | kept => exact absurd houtcome h
    | unresolved reason => exact ⟨_, rfl⟩
    | converted path => exact ⟨_, rfl⟩
    | conflict path owner => exact ⟨_, rfl⟩
  obtain ⟨entry, hentry⟩ := hsome
  have hmem : entry ∈ news.map (·.entry) := by
    rw [hentries]
    exact mem_filterMap.2 ⟨row, mem_projectRows.2 ⟨hrow, hproject⟩, hentry⟩
  obtain ⟨record, hrecord, rfl⟩ := List.mem_map.1 hmem
  exact ⟨record, hrecord, hentry⟩

theorem exists_record_of_outcome (hrun : Reconciled projectId runId repoRoot store store')
    (hrow : row ∈ store.summaries.rows) (hproject : row.key.projectId = projectId)
    (h : store.outcome projectId repoRoot row ≠ .kept) :
    ∃ record ∈ store'.records.rows,
      (store.outcome projectId repoRoot row).record runId row = some record.entry := by
  obtain ⟨news, hnews, hentries⟩ := hrun.records
  obtain ⟨record, hrecord, hentry⟩ := exists_news_of_outcome hentries hrow hproject h
  exact ⟨record, by rw [hnews]; exact mem_append_right _ hrecord, hentry⟩

theorem kept_cases (h : store.Consistent) (hrow : row ∈ store.summaries.rows)
    (hkept : store.outcome projectId repoRoot row = .kept) :
    validateStored row.key.path = .ok () ∨
      ∃ record ∈ store.records.rows, record.rolledBackAt = none ∧
        record.classification = .unresolved ∧ record.original = row := by
  by_cases hprevious : PreviouslyReconciled (store.priorReconciliations projectId) row
  · exact previous_iff h hrow hprevious
  · have hcanonical : classifyIdentity (some repoRoot) row.key.path = .canonical := by
      rw [IdentityStore.outcome, if_neg hprevious] at hkept
      split at hkept
      · assumption
      · cases hkept
      · split at hkept
        · cases hkept
        · cases hkept
    exact .inl (classifyIdentity_eq_canonical_iff.1 hcanonical)

theorem mem_records_of_reconciled (hrun : Reconciled projectId runId repoRoot store store')
    (hrecord : record ∈ store.records.rows) : record ∈ store'.records.rows := by
  obtain ⟨news, hnews, -⟩ := hrun.records
  rw [hnews]
  exact mem_append_left _ hrecord

/-- **Whatever a run leaves, the next run keeps.** -/
theorem outcome_of_reconciled (h : store.Consistent) (h' : store'.Consistent)
    (hrun : Reconciled projectId runId repoRoot store store')
    (hrow' : row' ∈ store'.summaries.rows) (hproject : row'.key.projectId = projectId) :
    store'.outcome projectId repoRoot row' = .kept := by
  obtain ⟨row, hrow, hsettled⟩ := (mem_settled hrun).1 hrow'
  have hid := settled_id hsettled
  have hrowProject : row.key.projectId = projectId := by
    by_contra hne
    rw [IdentityStore.settled, if_neg hne] at hsettled
    rw [← some.inj hsettled] at hproject
    exact hne hproject
  by_cases hkept : store.outcome projectId repoRoot row = .kept
  · rw [settled_of_kept fun _ ↦ hkept] at hsettled
    obtain rfl := some.inj hsettled
    rcases kept_cases h hrow hkept with hcanonical | ⟨record, hrecord, hopen, -, horiginal⟩
    · exact outcome_of_canonical hcanonical
    · refine outcome_of_open h' hrow' hproject (mem_records_of_reconciled hrun hrecord) hopen ?_
      rw [horiginal]
  · obtain ⟨record, hrecord, hentry⟩ := exists_record_of_outcome hrun hrow hrowProject hkept
    obtain ⟨horiginal, -, hopen, -⟩ := record_eq_some hentry
    refine outcome_of_open h' hrow' hproject hrecord hopen ?_
    rw [hid]
    exact congrArg FileSummaryRow.id horiginal

/-- **A second run changes no summary.** -/
theorem summaries_of_second {store'' : IdentityStore} {runId' : ℕ} (h : store.Consistent)
    (h' : store'.Consistent) (hrun : Reconciled projectId runId repoRoot store store')
    (hrun' : Reconciled projectId runId' repoRoot store' store'') :
    store''.summaries = store'.summaries := by
  refine Table.ext_rows ?_
  rw [hrun'.summaries]
  refine (filterMap_congr fun row hrow ↦ ?_).trans filterMap_some
  exact settled_of_kept fun hproject ↦ outcome_of_reconciled h h' hrun hrow hproject

/-! ### The rollback -/

/-- The table while the records are taken back. -/
def IdentityStore.restoredAfter (store : IdentityStore) (projectId : ℤ) (repoRoot : String)
    (done : List ReconciliationRecord) (row : FileSummaryRow) : Option FileSummaryRow :=
  if row ∈ done.map (·.original) then some row else store.settled projectId repoRoot row

theorem restoredAfter_eq_some
    (h : store.restoredAfter projectId repoRoot done row = some row') :
    row' = row ∨ ∃ path, row.key.projectId = projectId ∧
      store.outcome projectId repoRoot row = .converted path ∧ row' = row.withPath path := by
  rw [IdentityStore.restoredAfter] at h
  split at h
  · exact .inl (some.inj h).symm
  · rw [IdentityStore.settled] at h
    split at h
    · rename_i hproject
      rcases settle_eq_some h with heq | ⟨path, houtcome, heq⟩
      · exact .inl heq
      · exact .inr ⟨path, hproject, houtcome, heq⟩
    · exact .inl (some.inj h).symm

theorem key_ne_of_restoredAfter {x x' : FileSummaryRow} (hrow : row ∈ store.summaries.rows)
    (hrow' : row' ∈ store.summaries.rows) (hne : row ≠ row')
    (hx : store.restoredAfter projectId repoRoot done row = some x)
    (hx' : store.restoredAfter projectId repoRoot done row' = some x') : x.key ≠ x'.key := by
  intro hkey
  rcases restoredAfter_eq_some hx with rfl | ⟨path, hproject, houtcome, rfl⟩
  · rcases restoredAfter_eq_some hx' with rfl | ⟨path', hproject', houtcome', rfl⟩
    · exact hne (eq_of_key hrow hrow' hkey)
    · rw [FileSummaryRow.withPath_key, hproject'] at hkey
      exact ownerOf_eq_none (outcome_eq_converted houtcome').2 hrow hkey
  · rcases restoredAfter_eq_some hx' with rfl | ⟨path', hproject', houtcome', rfl⟩
    · rw [FileSummaryRow.withPath_key, hproject] at hkey
      exact ownerOf_eq_none (outcome_eq_converted houtcome).2 hrow' hkey.symm
    · obtain rfl : path = path' := congrArg FileKey.path hkey
      exact hne (eq_of_key hrow hrow' (key_eq_of_mapped (outcome_eq_converted houtcome).1
        (outcome_eq_converted houtcome').1 (hproject.trans hproject'.symm)))

theorem restoredAfter_id (h : store.restoredAfter projectId repoRoot done row = some row') :
    row'.id = row.id := by
  rcases restoredAfter_eq_some h with rfl | ⟨path, -, -, rfl⟩
  · rfl
  · rfl

/-- **Every table on the way back is a table.** -/
theorem admits_restoredAfter : fileSummarySchema.Admits
    (store.summaries.rows.filterMap (store.restoredAfter projectId repoRoot done)) := by
  refine ⟨fun _ _ ↦ rfl, pairwise_filterMap.2 ?_⟩
  refine store.summaries.nodup.imp_of_mem ?_
  intro row row' hrow hrow' hne x hx x' hx'
  refine decide_eq_false (not_or.2 ⟨fun hid ↦ hne (eq_of_id hrow hrow' ?_), ?_⟩)
  · rw [← restoredAfter_id hx, ← restoredAfter_id hx', hid]
  · exact key_ne_of_restoredAfter hrow hrow' hne hx hx'

theorem runReconciliations_of_reconciled (h : store.Consistent)
    (hrun : Reconciled projectId runId repoRoot store store')
    (hnew : store.sequences.runs < runId) :
    store'.records.rows = store.records.rows ++ store'.runReconciliations runId ∧
      (store'.runReconciliations runId).map (·.entry) =
        (store.projectRows projectId).filterMap fun row ↦
          (store.outcome projectId repoRoot row).record runId row := by
  obtain ⟨news, hnews, hentries⟩ := hrun.records
  have hopen : store'.runReconciliations runId = news := by
    have hold : (store.records.rows.filter fun record ↦
        record.runId = runId ∧ record.rolledBackAt = none) = [] := by
      rw [filter_eq_nil_iff]
      intro record hrecord hmeets
      have hle := h.runIds record hrecord
      rw [(of_decide_eq_true hmeets).1] at hle
      exact absurd hnew hle.not_gt
    have hall : (news.filter fun record ↦
        record.runId = runId ∧ record.rolledBackAt = none) = news := by
      rw [filter_eq_self]
      intro record hrecord
      obtain ⟨row, -, -, heq⟩ := exists_of_mem_news hentries hrecord
      exact decide_eq_true ⟨(record_eq_some heq).2.1, (record_eq_some heq).2.2.1⟩
    rw [IdentityStore.runReconciliations, hnews, filter_append, hold, hall, nil_append]
  rw [hopen]
  exact ⟨hnews, hentries⟩

/-- Taking an outcome back. -/
def RowOutcome.undo (projectId : ℤ) (row : FileSummaryRow) : RowOutcome → IdentityQuery Unit
  | kept => pure ()
  | unresolved _ => pure ()
  | converted _ => onSummaries (·.update
      (fun row' ↦ row'.id = row.id ∧ row'.key.projectId = projectId)
      fun row' ↦ { row' with key := ⟨row'.key.projectId, row.key.path⟩ })
  | conflict _ _ => onSummaries (·.insert row)

theorem restoreRecord_eq {outcome : RowOutcome}
    (h : outcome.record runId row = some record.entry) :
    restoreRecord projectId record = outcome.undo projectId row := by
  obtain ⟨id, runId', classification, reason, mapped, resulting, original, rolledBackAt⟩ := record
  cases outcome with
  | kept => cases h
  | unresolved reason =>
    obtain ⟨-, -, rfl, -, -, -, rfl, -⟩ := ReconciliationRecord.mk.inj (some.inj h)
    rfl
  | converted path =>
    obtain ⟨-, -, rfl, -, -, -, rfl, -⟩ := ReconciliationRecord.mk.inj (some.inj h)
    rfl
  | conflict path owner =>
    obtain ⟨-, -, rfl, -, -, -, rfl, -⟩ := ReconciliationRecord.mk.inj (some.inj h)
    rfl

theorem restoredAfter_append_of_ne (hrecord : record.original = row) (h : row' ≠ row) :
    store.restoredAfter projectId repoRoot (done ++ [record]) row' =
      store.restoredAfter projectId repoRoot done row' := by
  have hmem : row' ∈ (done ++ [record]).map (·.original) ↔ row' ∈ done.map (·.original) := by
    rw [map_append, mem_append, map_singleton, mem_singleton, hrecord]
    exact or_iff_left h
  rw [IdentityStore.restoredAfter, IdentityStore.restoredAfter]
  simp only [hmem]

theorem restoredAfter_append_self (hrecord : record.original = row) :
    store.restoredAfter projectId repoRoot (done ++ [record]) row = some row := by
  refine if_pos ?_
  rw [map_append, mem_append]
  exact .inr (mem_singleton.2 hrecord.symm)

theorem restoredAfter_of_notMem (h : row ∉ done.map (·.original))
    (hproject : row.key.projectId = projectId) :
    store.restoredAfter projectId repoRoot done row =
      (store.outcome projectId repoRoot row).settle row :=
  (if_neg h).trans (settled_of_project hproject)

theorem perm_update_restored (hrow : row ∈ store.summaries.rows)
    (hproject : row.key.projectId = projectId) (hnew : row ∉ done.map (·.original))
    (hrecord : record.original = row)
    (houtcome : store.outcome projectId repoRoot row = .converted path)
    (h : rows.Perm (store.summaries.rows.filterMap (store.restoredAfter projectId repoRoot done))) :
    (rows.map fun row' ↦ if decide (row'.id = row.id ∧ row'.key.projectId = projectId) = true then
      { row' with key := ⟨row'.key.projectId, row.key.path⟩ } else row').Perm
      (store.summaries.rows.filterMap
        (store.restoredAfter projectId repoRoot (done ++ [record]))) := by
  refine (h.map _).trans (Perm.of_eq ?_)
  rw [map_filterMap]
  refine filterMap_congr fun x hx ↦ ?_
  by_cases hxrow : x = row
  · rw [hxrow, restoredAfter_append_self hrecord, restoredAfter_of_notMem hnew hproject, houtcome]
    simp only [RowOutcome.settle, map_some, FileSummaryRow.withPath_id, hproject,
      FileSummaryRow.withPath_key, and_self, decide_true, if_true, some.injEq]
    rw [← hproject]
    rfl
  · rw [restoredAfter_append_of_ne hrecord hxrow]
    rcases hx' : store.restoredAfter projectId repoRoot done x with _ | x'
    · rfl
    have hid : x'.id ≠ row.id := fun hid ↦
      hxrow (eq_of_id hx hrow ((restoredAfter_id hx').symm.trans hid))
    simp [hid]

theorem perm_insert_restored {owner : ℕ} (hrow : row ∈ store.summaries.rows)
    (hproject : row.key.projectId = projectId) (hnew : row ∉ done.map (·.original))
    (hrecord : record.original = row)
    (houtcome : store.outcome projectId repoRoot row = .conflict path owner)
    (h : rows.Perm (store.summaries.rows.filterMap (store.restoredAfter projectId repoRoot done))) :
    (rows ++ [row]).Perm (store.summaries.rows.filterMap
      (store.restoredAfter projectId repoRoot (done ++ [record]))) := by
  refine (h.append_right _).trans (filterMap_append_perm store.summaries.nodup hrow ?_
    (restoredAfter_append_self hrecord) fun x _ hx ↦ (restoredAfter_append_of_ne hrecord hx).symm)
  rw [restoredAfter_of_notMem hnew hproject, houtcome]
  rfl

theorem restored_of_unresolved {reason : ReconciliationReason}
    (hproject : row.key.projectId = projectId) (hnew : row ∉ done.map (·.original))
    (hrecord : record.original = row)
    (houtcome : store.outcome projectId repoRoot row = .unresolved reason) :
    store.restoredAfter projectId repoRoot (done ++ [record]) =
      store.restoredAfter projectId repoRoot done := by
  funext x
  by_cases hx : x = row
  · rw [hx, restoredAfter_append_self hrecord, restoredAfter_of_notMem hnew hproject, houtcome]
    rfl
  · exact restoredAfter_append_of_ne hrecord hx

/-- **Taking one record back**, on the table as the records before it have left it. -/
theorem runs_restoreRecord_of_news
    (hrow : row ∈ store.summaries.rows) (hproject : row.key.projectId = projectId)
    (hnew : row ∉ done.map (·.original))
    (hrecord : (store.outcome projectId repoRoot row).record runId row = some record.entry)
    (h : c.store.summaries.rows.Perm (store.summaries.rows.filterMap
      (store.restoredAfter projectId repoRoot done)))
    (hrun : (restoreRecord projectId record).Runs c u c') :
    c'.store.summaries.rows.Perm (store.summaries.rows.filterMap
      (store.restoredAfter projectId repoRoot (done ++ [record]))) := by
  have horiginal : record.original = row := (record_eq_some hrecord).1
  rw [restoreRecord_eq hrecord] at hrun
  cases houtcome : store.outcome projectId repoRoot row with
  | kept => exact absurd houtcome (record_eq_some hrecord).2.2.2
  | unresolved reason =>
    rw [houtcome] at hrun
    obtain ⟨-, rfl⟩ := runs_pure.1 hrun
    rw [restored_of_unresolved hproject hnew horiginal houtcome]
    exact h
  | converted path =>
    rw [houtcome, RowOutcome.undo, onSummaries] at hrun
    obtain ⟨summaries, hupdate, hstore⟩ := hrun.of_writePart
    rw [hstore]
    show summaries.rows.Perm _
    rw [Table.rows_update hupdate]
    exact perm_update_restored hrow hproject hnew horiginal houtcome h
  | conflict path owner =>
    rw [houtcome, RowOutcome.undo, onSummaries] at hrun
    obtain ⟨summaries, hinsert, hstore⟩ := hrun.of_writePart
    rw [hstore]
    show summaries.rows.Perm _
    rw [Table.rows_insert hinsert]
    exact perm_insert_restored hrow hproject hnew horiginal houtcome h

theorem returns_restoreRecord_of_news {current : IdentityStore}
    (hrow : row ∈ store.summaries.rows) (hproject : row.key.projectId = projectId)
    (hnew : row ∉ done.map (·.original))
    (hrecord : (store.outcome projectId repoRoot row).record runId row = some record.entry)
    (h : current.summaries.rows.Perm (store.summaries.rows.filterMap
      (store.restoredAfter projectId repoRoot done))) :
    ∃ summaries, (restoreRecord projectId record).Returns current ()
      { current with summaries } := by
  have horiginal : record.original = row := (record_eq_some hrecord).1
  rw [restoreRecord_eq hrecord]
  cases houtcome : store.outcome projectId repoRoot row with
  | kept => exact absurd houtcome (record_eq_some hrecord).2.2.2
  | unresolved reason =>
    exact ⟨current.summaries, Returns.pure⟩
  | converted path =>
    obtain ⟨summaries, hupdate⟩ := Table.exists_update_of_perm admits_restoredAfter
      (perm_update_restored hrow hproject hnew horiginal houtcome h)
    rw [RowOutcome.undo, onSummaries]
    exact ⟨summaries, Returns.writePart hupdate⟩
  | conflict path owner =>
    obtain ⟨summaries, hinsert⟩ := Table.exists_insert_of_perm admits_restoredAfter
      (perm_insert_restored hrow hproject hnew horiginal houtcome h)
    rw [RowOutcome.undo, onSummaries]
    exact ⟨summaries, Returns.writePart hinsert⟩

theorem exists_row_of_split {news rest : List ReconciliationRecord}
    (hentries : news.map (·.entry) = (store.projectRows projectId).filterMap fun row ↦
      (store.outcome projectId repoRoot row).record runId row)
    (hsplit : news = done ++ record :: rest) :
    ∃ row ∈ store.summaries.rows, row.key.projectId = projectId ∧ row ∉ done.map (·.original) ∧
      (store.outcome projectId repoRoot row).record runId row = some record.entry := by
  have hrecord : record ∈ news := by
    rw [hsplit]
    exact mem_append_right _ mem_cons_self
  obtain ⟨row, hrow, hproject, heq⟩ := exists_of_mem_news hentries hrecord
  refine ⟨row, hrow, hproject, fun hmem ↦ ?_, heq⟩
  obtain ⟨record', hdone, horiginal⟩ := List.mem_map.1 hmem
  have hnodup := nodup_news hentries
  rw [hsplit, map_append, nodup_append] at hnodup
  refine hnodup.2.2 _ (List.mem_map_of_mem hdone) _ (List.mem_map_of_mem mem_cons_self) ?_
  have hlast : record.original = row := (record_eq_some heq).1
  rw [horiginal, hlast]

theorem restoredAfter_all
    (hentries : news.map (·.entry) = (store.projectRows projectId).filterMap fun row ↦ (store.outcome projectId repoRoot row).record runId row)
    (hrow : row ∈ store.summaries.rows) :
    store.restoredAfter projectId repoRoot news row = some row := by
  rw [IdentityStore.restoredAfter]
  split
  · rfl
  · rename_i hnone
    refine settled_of_kept fun hproject ↦ ?_
    by_contra hne
    -- a row that was not kept has a record
    obtain ⟨record, hrecord, hentry⟩ := exists_news_of_outcome hentries hrow hproject hne
    exact hnone (List.mem_map.2 ⟨record, hrecord, (record_eq_some hentry).1⟩)

theorem restoredAfter_nil :
    store.restoredAfter projectId repoRoot [] = store.settled projectId repoRoot := by
  funext row
  exact if_neg not_mem_nil

/-- **Taking all records back restores the table.** -/
theorem perm_of_restoreRecords (h : store.Consistent)
    (hrun : Reconciled projectId runId repoRoot store store') (hnew : store.sequences.runs < runId)
    (hsummaries : c.store.summaries = store'.summaries)
    (hloop : (forEach (store'.runReconciliations runId) (restoreRecord projectId)).Runs c u c') :
    c'.store.summaries.rows.Perm store.summaries.rows := by
  obtain ⟨-, hentries⟩ := runReconciliations_of_reconciled h hrun hnew
  have hend := hloop.of_forEach
    (P := fun done current ↦ current.summaries.rows.Perm (store.summaries.rows.filterMap
      (store.restoredAfter projectId repoRoot done))) ?_ ?_
  · refine hend.trans (Perm.of_eq ?_)
    exact (filterMap_congr fun row hrow ↦ restoredAfter_all hentries hrow).trans filterMap_some
  · rw [hsummaries, hrun.summaries, restoredAfter_nil]
  · intro done record rest c₁ c₂ hsplit hdone hround
    obtain ⟨row, hrow, hproject, hnew, hrecord⟩ := exists_row_of_split hentries hsplit
    exact runs_restoreRecord_of_news hrow hproject hnew hrecord hdone hround

theorem returns_restoreRecords {later : IdentityStore} (h : store.Consistent)
    (hrun : Reconciled projectId runId repoRoot store store') (hnew : store.sequences.runs < runId)
    (hsummaries : later.summaries = store'.summaries) :
    ∃ summaries, (forEach (store'.runReconciliations runId) (restoreRecord projectId)).Returns later
      () { later with summaries } := by
  obtain ⟨-, hentries⟩ := runReconciliations_of_reconciled h hrun hnew
  have hloop : ∃ current, (forEach (store'.runReconciliations runId)
      (restoreRecord projectId)).Returns later () current ∧
      (∃ summaries, current = { later with summaries }) ∧
      current.summaries.rows.Perm (store.summaries.rows.filterMap
        (store.restoredAfter projectId repoRoot (store'.runReconciliations runId))) := by
    refine Returns.exists_forEach (P := fun done current ↦
      (∃ summaries, current = { later with summaries }) ∧
      current.summaries.rows.Perm (store.summaries.rows.filterMap
        (store.restoredAfter projectId repoRoot done))) ⟨⟨later.summaries, rfl⟩, ?_⟩ ?_
    · rw [hsummaries, hrun.summaries, restoredAfter_nil]
    · rintro done record rest current hsplit ⟨⟨summaries, rfl⟩, hdone⟩
      obtain ⟨row, hrow, hproject, hnew, hrecord⟩ := exists_row_of_split hentries hsplit
      obtain ⟨summaries', hreturns⟩ :=
        returns_restoreRecord_of_news hrow hproject hnew hrecord hdone
      exact ⟨_, hreturns, ⟨summaries', rfl⟩,
        runs_restoreRecord_of_news hrow hproject hnew hrecord hdone hreturns⟩
  obtain ⟨current, hreturns, ⟨summaries, rfl⟩, -⟩ := hloop
  exact ⟨summaries, hreturns⟩

end Behind

end FamiliarAi
