import FamiliarAi.Storage.IdentityRuns

/-!
# The records that stand

A record that was not rolled back still says how the row with its id stands: a converted row holds
the path that it was mapped to, a conflicting row is gone, and an unresolved row is as it was. The
other writers keep this, since they write under canonical paths only and draw new ids from a
sequence, and a run keeps it, since it passes over the rows of such records. So no row has two
records that stand, and every store that is reached is consistent (`consistent_of_reachable`).
-/

namespace FamiliarAi

open Relational Query Transition List Option

def ReconciliationRecord.Stands (rows : List FileSummaryRow) (record : ReconciliationRecord) :
    Prop :=
  match record.classification with
  | .converted => ∃ path, record.mappedCanonicalPath = some path ∧ validateStored path = .ok () ∧
      record.resultingActiveId = some record.original.id ∧
      ∀ row ∈ rows, row.id = record.original.id → row.key = ⟨record.original.key.projectId, path⟩
  | .conflict => ∀ row ∈ rows, row.id ≠ record.original.id
  | .unresolved => ∀ row ∈ rows, row.id = record.original.id → row = record.original

/-- The records of the store agree with its summaries. -/
structure IdentityStore.Consistent (store : IdentityStore) : Prop where
  rowIds : ∀ row ∈ store.summaries.rows, row.id ≤ store.sequences.summaries
  originalIds : ∀ record ∈ store.records.rows, record.original.id ≤ store.sequences.summaries
  runIds : ∀ record ∈ store.records.rows, record.runId ≤ store.sequences.runs
  legacy : ∀ record ∈ store.records.rows, record.rolledBackAt = none →
    validateStored record.original.key.path ≠ .ok ()
  stands : ∀ record ∈ store.records.rows, record.rolledBackAt = none →
    record.Stands store.summaries.rows
  once : ∀ record ∈ store.records.rows, ∀ record' ∈ store.records.rows,
    record.rolledBackAt = none → record'.rolledBackAt = none →
    record.original.id = record'.original.id → record = record'
  rollbackIds : store.NumbersRollbacks

section Stands

variable {rows rows' : List FileSummaryRow} {record : ReconciliationRecord}

theorem ReconciliationRecord.Stands.mono (h : record.Stands rows)
    (hrows : ∀ row ∈ rows', row.id = record.original.id → row ∈ rows) : record.Stands rows' := by
  rw [Stands] at h ⊢
  split at h
  · obtain ⟨path, hmapped, hcanonical, hactive, hkey⟩ := h
    exact ⟨path, hmapped, hcanonical, hactive, fun row hrow hid ↦ hkey row (hrows row hrow hid) hid⟩
  · exact fun row hrow hid ↦ h row (hrows row hrow hid) hid
  · exact fun row hrow hid ↦ h row (hrows row hrow hid) hid

theorem ReconciliationRecord.Stands.write {key : FileKey} {f : FileSummaryRow → FileSummaryRow}
    (h : record.Stands rows) (hlegacy : validateStored record.original.key.path ≠ .ok ())
    (hkey : validateStored key.path = .ok ()) (hid : ∀ row, (f row).id = row.id)
    (hpath : ∀ row, (f row).key = row.key) :
    record.Stands (rows.map fun row ↦ if row.key = key then f row else row) := by
  have hback (row' : FileSummaryRow)
      (hrow' : row' ∈ rows.map fun row ↦ if row.key = key then f row else row) :
      ∃ row ∈ rows, row'.id = row.id ∧ row'.key = row.key ∧ (row.key ≠ key → row' = row) := by
    obtain ⟨row, hrow, rfl⟩ := List.mem_map.1 hrow'
    split
    · rename_i heq
      exact ⟨row, hrow, hid row, hpath row, fun hne ↦ absurd heq hne⟩
    · exact ⟨row, hrow, rfl, rfl, fun _ ↦ rfl⟩
  rw [Stands] at h ⊢
  split at h
  · obtain ⟨path, hmapped, hcanonical, hactive, hstands⟩ := h
    refine ⟨path, hmapped, hcanonical, hactive, fun row' hrow' hsame ↦ ?_⟩
    obtain ⟨row, hrow, hids, hkeys, -⟩ := hback row' hrow'
    exact hkeys.trans (hstands row hrow (hids.symm.trans hsame))
  · intro row' hrow' hsame
    obtain ⟨row, hrow, hids, -, -⟩ := hback row' hrow'
    exact h row hrow (hids.symm.trans hsame)
  · intro row' hrow' hsame
    obtain ⟨row, hrow, hids, -, hother⟩ := hback row' hrow'
    have horiginal := h row hrow (hids.symm.trans hsame)
    -- the row that stands unresolved has no canonical path, so that it was not written
    refine (hother fun heq ↦ hlegacy ?_).trans horiginal
    rw [← horiginal, heq]
    exact hkey

end Stands

section Consistent

variable {store store' : IdentityStore} {projectId : ℤ} {row : FileSummaryRow}
  {record : ReconciliationRecord} {runId : ℕ} {repoRoot : String} {news : List ReconciliationRecord}
  {row' : FileSummaryRow}

theorem IdentityStore.Consistent.of_records (h : store.Consistent)
    (hrecords : ∀ record ∈ store'.records.rows, record ∈ store.records.rows)
    (hsequence : store.sequences.summaries ≤ store'.sequences.summaries)
    (hruns : store.sequences.runs ≤ store'.sequences.runs)
    (hrowIds : ∀ row ∈ store'.summaries.rows, row.id ≤ store'.sequences.summaries)
    (hrows : ∀ record ∈ store'.records.rows, record.rolledBackAt = none →
      record.Stands store.summaries.rows → record.Stands store'.summaries.rows)
    (hrollbacks : store'.NumbersRollbacks) :
    store'.Consistent where
  rowIds := hrowIds
  originalIds record hrecord := (h.originalIds record (hrecords record hrecord)).trans hsequence
  runIds record hrecord := (h.runIds record (hrecords record hrecord)).trans hruns
  legacy record hrecord := h.legacy record (hrecords record hrecord)
  stands record hrecord hopen := hrows record hrecord hopen
    (h.stands record (hrecords record hrecord) hopen)
  once record hrecord record' hrecord' :=
    h.once record (hrecords record hrecord) record' (hrecords record' hrecord')
  rollbackIds := hrollbacks

theorem IdentityStore.Consistent.of_quiet (h : store.Consistent) (hquiet : Quiet store store') :
    store'.Consistent := by
  refine h.of_records ?_ hquiet.summaryIds.ge hquiet.runIds ?_ ?_ (hquiet.rollbackIds h.rollbackIds)
  · exact fun record hrecord ↦ hquiet.records ▸ hrecord
  · intro row hrow
    rw [hquiet.summaries] at hrow
    rw [hquiet.summaryIds]
    exact h.rowIds row hrow
  · intro record _ _ hstands
    rw [hquiet.summaries]
    exact hstands

/-- **A run passes over the row of a record that stands.** -/
theorem outcome_of_open (h : store.Consistent) (hrow : row ∈ store.summaries.rows)
    (hproject : row.key.projectId = projectId) (hrecord : record ∈ store.records.rows)
    (hopen : record.rolledBackAt = none) (hid : record.original.id = row.id) :
    store.outcome projectId repoRoot row = .kept := by
  have hprior (hsame : record.original.key.projectId = row.key.projectId) :
      record ∈ store.priorReconciliations projectId :=
    mem_filter.2 ⟨hrecord, decide_eq_true ⟨hsame.trans hproject, hopen⟩⟩
  have hstands := h.stands record hrecord hopen
  rw [ReconciliationRecord.Stands] at hstands
  split at hstands
  · obtain ⟨path, -, hcanonical, -, hkey⟩ := hstands
    refine outcome_of_canonical ?_
    rw [hkey row hrow hid.symm]
    exact hcanonical
  · exact absurd hid.symm (hstands row hrow)
  · have horiginal := hstands row hrow hid.symm
    refine outcome_of_previous (.inr ?_)
    rw [priorOriginal, getLast?_isSome]
    refine ne_nil_of_mem (mem_filter.2 ⟨hprior (by rw [horiginal]), ?_⟩)
    rw [← horiginal]
    exact decide_eq_true ⟨rfl, rfl, rfl⟩

theorem previous_iff (h : store.Consistent) (hrow : row ∈ store.summaries.rows)
    (hprevious : PreviouslyReconciled (store.priorReconciliations projectId) row) :
    validateStored row.key.path = .ok () ∨
      ∃ record ∈ store.records.rows, record.rolledBackAt = none ∧
        record.classification = .unresolved ∧ record.original = row := by
  rcases hprevious with hresulting | hprior
  · obtain ⟨record, hmem, hactive⟩ := mem_filterMap.1 hresulting
    obtain ⟨hmem, hconverted⟩ := mem_filter.1 hmem
    obtain ⟨hrecord, hopen⟩ := mem_filter.1 hmem
    have hstands := h.stands record hrecord (of_decide_eq_true hopen).2
    rw [ReconciliationRecord.Stands, of_decide_eq_true hconverted] at hstands
    obtain ⟨path, -, hcanonical, hid, hkey⟩ := hstands
    rw [hactive] at hid
    refine .inl ?_
    rw [hkey row hrow (some.inj hid)]
    exact hcanonical
  · obtain ⟨record, hlast⟩ := isSome_iff_exists.1 hprior
    obtain ⟨hmem, hsame⟩ := mem_filter.1 (mem_of_getLast? hlast)
    obtain ⟨hid, hpath, -⟩ := of_decide_eq_true hsame
    obtain ⟨hrecord, hopen⟩ := mem_filter.1 hmem
    have hopen := (of_decide_eq_true hopen).2
    have hstands := h.stands record hrecord hopen
    rw [ReconciliationRecord.Stands] at hstands
    split at hstands
    · obtain ⟨path, -, hcanonical, -, hkey⟩ := hstands
      refine .inl ?_
      rw [hkey row hrow hid.symm]
      exact hcanonical
    · exact absurd hid.symm (hstands row hrow)
    · rename_i hunresolved
      exact .inr ⟨record, hrecord, hopen, hunresolved, (hstands row hrow hid.symm).symm⟩

/-! ### Runs -/

theorem record_eq_some {outcome : RowOutcome} (h : outcome.record runId row = some record) :
    record.original = row ∧ record.runId = runId ∧ record.rolledBackAt = none ∧
      outcome ≠ .kept := by
  cases outcome with
  | kept => cases h
  | unresolved reason =>
    obtain rfl := some.inj h
    exact ⟨rfl, rfl, rfl, nofun⟩
  | converted path =>
    obtain rfl := some.inj h
    exact ⟨rfl, rfl, rfl, nofun⟩
  | conflict path owner =>
    obtain rfl := some.inj h
    exact ⟨rfl, rfl, rfl, nofun⟩

theorem exists_of_mem_news
    (hentries : news.map (·.entry) = (store.projectRows projectId).filterMap fun row ↦ (store.outcome projectId repoRoot row).record runId row)
    (hrecord : record ∈ news) :
    ∃ row ∈ store.summaries.rows, row.key.projectId = projectId ∧
      (store.outcome projectId repoRoot row).record runId row = some record.entry := by
  have hmem : record.entry ∈ news.map (·.entry) := List.mem_map_of_mem hrecord
  rw [hentries] at hmem
  obtain ⟨row, hrow, heq⟩ := mem_filterMap.1 hmem
  exact ⟨row, (mem_projectRows.1 hrow).1, (mem_projectRows.1 hrow).2, heq⟩

theorem nodup_news
    (hentries : news.map (·.entry) = (store.projectRows projectId).filterMap fun row ↦ (store.outcome projectId repoRoot row).record runId row)
    :
    (news.map (·.original.id)).Nodup := by
  have hmap : news.map (·.original.id) = (news.map (·.entry)).map (·.original.id) := by
    rw [List.map_map]
    rfl
  rw [hmap, hentries, map_filterMap, nodup_iff_pairwise_ne, pairwise_filterMap]
  have hrows : (store.projectRows projectId).Nodup := nodup_projectRows
  refine hrows.imp_of_mem ?_
  intro row row' hrow hrow' hne id hid id' hid' heq
  obtain ⟨record, hrecord, rfl⟩ := map_eq_some_iff.1 hid
  obtain ⟨record', hrecord', rfl⟩ := map_eq_some_iff.1 hid'
  rw [(record_eq_some hrecord).1, (record_eq_some hrecord').1] at heq
  exact hne (eq_of_id (mem_projectRows.1 hrow).1 (mem_projectRows.1 hrow').1 heq)

theorem mem_settled (h : Reconciled projectId runId repoRoot store store') :
    row' ∈ store'.summaries.rows ↔
      ∃ row ∈ store.summaries.rows, store.settled projectId repoRoot row = some row' := by
  rw [h.summaries, mem_filterMap]

theorem settled_of_project (hproject : row.key.projectId = projectId) :
    store.settled projectId repoRoot row = (store.outcome projectId repoRoot row).settle row :=
  if_pos hproject

theorem settled_of_kept (h : row.key.projectId = projectId →
    store.outcome projectId repoRoot row = .kept) :
    store.settled projectId repoRoot row = some row := by
  rw [IdentityStore.settled]
  split
  · rename_i hproject
    rw [h hproject]
    rfl
  · rfl

theorem settled_of_mem (h : Reconciled projectId runId repoRoot store store')
    (hrow : row ∈ store.summaries.rows) (hrow' : row' ∈ store'.summaries.rows)
    (hid : row'.id = row.id) :
    store.settled projectId repoRoot row = some row' := by
  obtain ⟨r, hr, hsettled⟩ := (mem_settled h).1 hrow'
  rw [← eq_of_id hr hrow ((settled_id hsettled).symm.trans hid)]
  exact hsettled

theorem stands_of_reconciled (h : store.Consistent)
    (hrun : Reconciled projectId runId repoRoot store store')
    (hrecord : record ∈ store.records.rows) (hopen : record.rolledBackAt = none) :
    record.Stands store'.summaries.rows := by
  refine (h.stands record hrecord hopen).mono fun row' hrow' hid ↦ ?_
  obtain ⟨row, hrow, hsettled⟩ := (mem_settled hrun).1 hrow'
  have hrowId : record.original.id = row.id := hid.symm.trans (settled_id hsettled)
  rw [settled_of_kept fun hproject ↦ outcome_of_open h hrow hproject hrecord hopen hrowId]
    at hsettled
  rw [← some.inj hsettled]
  exact hrow

theorem stands_of_news (hrun : Reconciled projectId runId repoRoot store store')
    (hrow : row ∈ store.summaries.rows) (hproject : row.key.projectId = projectId)
    (hrecord : (store.outcome projectId repoRoot row).record runId row = some record.entry) :
    record.Stands store'.summaries.rows := by
  have hsettled (row' : FileSummaryRow) (hrow' : row' ∈ store'.summaries.rows)
      (hid : row'.id = row.id) :
      (store.outcome projectId repoRoot row).settle row = some row' := by
    rw [← settled_of_project hproject]
    exact settled_of_mem hrun hrow hrow' hid
  obtain ⟨id, runId', classification, reason, mapped, resulting, original, rolledBackAt⟩ := record
  cases houtcome : store.outcome projectId repoRoot row with
  | kept =>
    rw [houtcome] at hrecord
    cases hrecord
  | unresolved reason =>
    rw [houtcome] at hrecord hsettled
    obtain ⟨-, -, rfl, -, -, -, rfl, -⟩ := ReconciliationRecord.mk.inj (some.inj hrecord)
    exact fun row' hrow' hid ↦ (some.inj (hsettled row' hrow' hid)).symm
  | converted path =>
    rw [houtcome] at hrecord hsettled
    obtain ⟨-, -, rfl, -, rfl, rfl, rfl, -⟩ := ReconciliationRecord.mk.inj (some.inj hrecord)
    have hmapped := classifyIdentity_eq_mapped_iff.1 (outcome_eq_converted houtcome).1
    refine ⟨path, rfl, hmapped.2.1, rfl, fun row' hrow' hid ↦ ?_⟩
    rw [← some.inj (hsettled row' hrow' hid)]
    rfl
  | conflict path owner =>
    rw [houtcome] at hrecord hsettled
    obtain ⟨-, -, rfl, -, -, -, rfl, -⟩ := ReconciliationRecord.mk.inj (some.inj hrecord)
    exact fun row' hrow' hid ↦ nomatch hsettled row' hrow' hid

theorem IdentityStore.Consistent.of_reconciled (h : store.Consistent)
    (hrun : Reconciled projectId runId repoRoot store store')
    (hnew : store.sequences.runs < runId) (hrunId : runId ≤ store'.sequences.runs) :
    store'.Consistent := by
  obtain ⟨news, hnews, hentries⟩ := hrun.records
  have hmem {record : ReconciliationRecord} (hrecord : record ∈ store'.records.rows) :
      record ∈ store.records.rows ∨ record ∈ news := by
    rw [hnews] at hrecord
    exact mem_append.1 hrecord
  have horigin {record : ReconciliationRecord} (hrecord : record ∈ news) :
      ∃ row ∈ store.summaries.rows, row.key.projectId = projectId ∧ record.original = row ∧
        record.runId = runId ∧
        (store.outcome projectId repoRoot row).record runId row = some record.entry := by
    obtain ⟨row, hrow, hproject, heq⟩ := exists_of_mem_news hentries hrecord
    exact ⟨row, hrow, hproject, (record_eq_some heq).1, (record_eq_some heq).2.1, heq⟩
  -- an older record that is open is not about a row that has a new one
  have hcross {record record' : ReconciliationRecord} (hrecord : record ∈ store.records.rows)
      (hopen : record.rolledBackAt = none) (hrecord' : record' ∈ news)
      (hid : record.original.id = record'.original.id) : False := by
    obtain ⟨row, hrow, hproject, rfl, -, heq⟩ := horigin hrecord'
    exact (record_eq_some heq).2.2.2 (outcome_of_open h hrow hproject hrecord hopen hid)
  refine ⟨?_, ?_, ?_, ?_, ?_, ?_, hrun.rollbackIds h.rollbackIds⟩
  · intro row' hrow'
    obtain ⟨row, hrow, hsettled⟩ := (mem_settled hrun).1 hrow'
    rw [settled_id hsettled, hrun.summaryIds]
    exact h.rowIds row hrow
  · intro record hrecord
    rw [hrun.summaryIds]
    rcases hmem hrecord with hold | hnew
    · exact h.originalIds record hold
    · obtain ⟨row, hrow, -, rfl, -, -⟩ := horigin hnew
      exact h.rowIds _ hrow
  · intro record hrecord
    rcases hmem hrecord with hold | hnews
    · exact (h.runIds record hold).trans (hnew.le.trans hrunId)
    · obtain ⟨row, -, -, -, hid, -⟩ := horigin hnews
      rw [hid]
      exact hrunId
  · intro record hrecord hopen
    rcases hmem hrecord with hold | hnew
    · exact h.legacy record hold hopen
    · obtain ⟨row, -, -, rfl, -, heq⟩ := horigin hnew
      exact not_canonical_of_outcome (record_eq_some heq).2.2.2
  · intro record hrecord hopen
    rcases hmem hrecord with hold | hnew
    · exact stands_of_reconciled h hrun hold hopen
    · obtain ⟨row, hrow, hproject, -, -, heq⟩ := horigin hnew
      exact stands_of_news hrun hrow hproject heq
  · intro record hrecord record' hrecord' hopen hopen' hid
    rcases hmem hrecord with hold | hnew
    · rcases hmem hrecord' with hold' | hnew'
      · exact h.once record hold record' hold' hopen hopen' hid
      · exact (hcross hold hopen hnew' hid).elim
    · rcases hmem hrecord' with hold' | hnew'
      · exact (hcross hold' hopen' hnew hid.symm).elim
      · exact inj_on_of_nodup_map (nodup_news hentries) hnew hnew' hid

end Consistent

end FamiliarAi
