import FamiliarAi.Storage.IdentityLossless

/-!
# There and back

The main result on the reconciliation of file summary identities: `reconcile_lossless`. From every
store that is reached, a successful run loses no summary, a second run behind it changes none, a
rollback behind it restores the table, and what fails or is refused changes nothing.

A row whose path stands for no canonical path below the registered root has no place to go. Such a
row stays where it is, preserved in a record as unresolved, and the next run passes over it even
where the root has changed meanwhile. So it is not true that every row ends under its canonical path
or in the record of a conflict (`not_reconcile_resolves`).
-/

namespace FamiliarAi

open Relational Query Transition Option

section Validation

variable {store store' later : IdentityStore} {projectId : ℤ} {runId : ℕ} {repoRoot : String}
  {row row' : FileSummaryRow} {record : ReconciliationRecord}

theorem ownerOf_of_settled (hrun : Reconciled projectId runId repoRoot store store')
    (hrow : row ∈ store.summaries.rows) (hsettled : store.settled projectId repoRoot row ≠ some row)
    (hlegacy : validateStored row.key.path ≠ .ok ()) : store'.ownerOf row.key = none := by
  rw [IdentityStore.ownerOf, map_eq_none_iff]
  refine List.find?_eq_none.2 fun x hx hkey ↦ ?_
  have hkey := of_decide_eq_true hkey
  obtain ⟨r, hr, hr'⟩ := (mem_settled hrun).1 hx
  rw [← restoredAfter_nil] at hr'
  rcases restoredAfter_eq_some hr' with rfl | ⟨path, hproject, houtcome, rfl⟩
  · rw [restoredAfter_nil, eq_of_key hr hrow hkey] at hr'
    exact hsettled hr'
  · obtain rfl : path = row.key.path := congrArg FileKey.path hkey
    exact hlegacy (classifyIdentity_eq_mapped_iff.1 (outcome_eq_converted houtcome).1).2.1

theorem rowConflict_of_news (hrun : Reconciled projectId runId repoRoot store store')
    (hrow : row ∈ store.summaries.rows) (hproject : row.key.projectId = projectId)
    (hrecord : (store.outcome projectId repoRoot row).record runId row = some record.entry) :
    rowConflict record (store'.summaries.find (·.id = row.id)) = none := by
  obtain ⟨id, runId', classification, reason, mapped, resulting, original, rolledBackAt⟩ := record
  have hsettled : store.settled projectId repoRoot row =
      (store.outcome projectId repoRoot row).settle row := settled_of_project hproject
  cases houtcome : store.outcome projectId repoRoot row with
  | kept =>
    rw [houtcome] at hrecord
    cases hrecord
  | unresolved reason =>
    rw [houtcome] at hrecord
    obtain ⟨-, -, rfl, -, -, -, rfl, -⟩ := ReconciliationRecord.mk.inj (some.inj hrecord)
    rfl
  | converted path =>
    rw [houtcome] at hrecord hsettled
    obtain ⟨-, -, rfl, -, rfl, -, rfl, -⟩ := ReconciliationRecord.mk.inj (some.inj hrecord)
    have hmem : row.withPath path ∈ store'.summaries.rows :=
      (mem_settled hrun).2 ⟨row, hrow, hsettled⟩
    have hfind : store'.summaries.find (·.id = row.id) = some (row.withPath path) := by
      refine (Table.find_eq_some_iff ?_).2 ⟨hmem, decide_eq_true rfl⟩
      exact fun r r' hr hr' ↦
        clash_of_id ((of_decide_eq_true hr).trans (of_decide_eq_true hr').symm)
    rw [hfind]
    simp [rowConflict, FileSummaryRow.sameNonPathFields, FileSummaryRow.withPath]
  | conflict path owner =>
    rw [houtcome] at hrecord hsettled
    obtain ⟨-, -, rfl, -, -, -, rfl, -⟩ := ReconciliationRecord.mk.inj (some.inj hrecord)
    have hfind : store'.summaries.find (·.id = row.id) = none := by
      refine List.find?_eq_none.2 fun x hx hid ↦ ?_
      have hx' := settled_of_mem hrun hrow hx (of_decide_eq_true hid)
      rw [hsettled] at hx'
      cases hx'
    rw [hfind]
    rfl

theorem settled_ne_of_record (hproject : row.key.projectId = projectId)
    (hrecord : (store.outcome projectId repoRoot row).record runId row = some record.entry)
    (hclassification : record.classification ≠ .unresolved) :
    store.settled projectId repoRoot row ≠ some row := by
  rw [settled_of_project hproject]
  obtain ⟨id, runId', classification, reason, mapped, resulting, original, rolledBackAt⟩ := record
  cases houtcome : store.outcome projectId repoRoot row with
  | kept =>
    rw [houtcome] at hrecord
    cases hrecord
  | unresolved reason =>
    rw [houtcome] at hrecord
    obtain ⟨-, -, rfl, -, -, -, -, -⟩ := ReconciliationRecord.mk.inj (some.inj hrecord)
    exact absurd rfl hclassification
  | converted path =>
    intro hsame
    have hpath : row.withPath path = row := some.inj hsame
    have hmapped := (outcome_eq_converted houtcome).1
    refine not_validateStored_of_mapped hmapped ?_
    have hkey : path = row.key.path := congrArg (fun r ↦ r.key.path) hpath
    rw [← hkey]
    exact (classifyIdentity_eq_mapped_iff.1 hmapped).2.1
  | conflict path owner => exact nofun

/-- **Behind its run, no record meets a conflict.** -/
theorem returns_rollbackConflict (hrun : Reconciled projectId runId repoRoot store store')
    (hsummaries : later.summaries = store'.summaries)
    (hrow : row ∈ store.summaries.rows) (hproject : row.key.projectId = projectId)
    (hrecord : (store.outcome projectId repoRoot row).record runId row = some record.entry) :
    (rollbackConflict projectId record).Returns later none later := by
  have horiginal : record.original = row := (record_eq_some hrecord).1
  rw [rollbackConflict]
  split
  · exact Returns.pure
  · rename_i hclassification
    rw [loadSummaryById]
    refine returns_read_bind.2 ?_
    rw [horiginal, hsummaries, rowConflict_of_news hrun hrow hproject hrecord]
    refine returns_read_bind.2 ?_
    have hfree : later.ownerOf ⟨projectId, row.key.path⟩ = none := by
      have howner := ownerOf_of_settled hrun hrow
        (settled_ne_of_record hproject hrecord hclassification)
        (not_canonical_of_outcome (record_eq_some hrecord).2.2.2)
      rw [IdentityStore.ownerOf, hsummaries, ← hproject]
      exact howner
    rw [hfree]
    exact Returns.pure

theorem returns_firstRollbackConflict (h : store.Consistent)
    (hrun : Reconciled projectId runId repoRoot store store')
    (hnew : store.sequences.runs < runId) (hsummaries : later.summaries = store'.summaries) :
    (firstRollbackConflict projectId (store'.runReconciliations runId)).Returns later none
      later := by
  obtain ⟨-, hentries⟩ := runReconciliations_of_reconciled h hrun hnew
  suffices hmain : ∀ records : List ReconciliationRecord,
      (∀ record ∈ records, record ∈ store'.runReconciliations runId) →
      (firstRollbackConflict projectId records).Returns later none later from
    hmain _ fun _ hrecord ↦ hrecord
  intro records hrecords
  induction records with
  | nil => exact Returns.pure
  | cons record records ih =>
    obtain ⟨row, hrow, hproject, hrecord⟩ :=
      exists_of_mem_news hentries (hrecords record List.mem_cons_self)
    exact (returns_rollbackConflict hrun hsummaries hrow hproject hrecord).bind
      (ih fun record' hrecord' ↦ hrecords record' (List.mem_cons_of_mem _ hrecord'))

theorem exists_mark (T : Table reconciliationRecordSchema) (p : ReconciliationRecord → Bool)
    (now : String) :
    ∃ T', T.update p (fun record ↦ { record with rolledBackAt := some now }) = some T' := by
  refine ⟨_, Table.ofRows?_of_admits ⟨?_, ?_⟩⟩
  · intro record hrecord
    obtain ⟨record', hmem, rfl⟩ := List.mem_map.1 hrecord
    have hcheck := T.admits.1 record' hmem
    split
    · exact hcheck
    · exact hcheck
  · rw [List.pairwise_map]
    refine T.admits.2.imp fun {record record'} hclash ↦ ?_
    have hclash := not_or.1 (of_decide_eq_false hclash)
    have hid (r : ReconciliationRecord) :
        (if p r then { r with rolledBackAt := some now } else r).id = r.id := by
      split <;> rfl
    refine decide_eq_false (not_or.2 ⟨by rw [hid, hid]; exact hclash.1, ?_⟩)
    rintro ⟨hopen, hopen', hsame⟩
    refine hclash.2 ?_
    by_cases hp : p record
    · rw [if_pos hp] at hopen
      cases hopen
    · by_cases hp' : p record'
      · rw [if_pos hp'] at hopen'
        cases hopen'
      · rw [if_neg hp] at hopen hsame
        rw [if_neg hp'] at hopen' hsame
        exact ⟨hopen, hopen', hsame⟩

theorem exists_insertRollback (h : store.NumbersRollbacks) (conflict : Option String) :
    ∃ store', (insertRollback runId projectId conflict).Returns store
      (store.sequences.rollbacks + 1) store' := by
  obtain ⟨rollbacks, hinsert⟩ := Table.exists_insert (T := store.rollbacks)
    (r := ⟨store.sequences.rollbacks + 1, runId, projectId, conflict⟩) rfl fun row hrow ↦ by
      refine decide_eq_false fun hid ↦ ?_
      have hle := h row hrow
      rw [hid] at hle
      exact absurd hle (Nat.not_succ_le_self _)
  exact ⟨_, Returns.change (by rw [hinsert]; rfl)⟩

end Validation

section RoundTrip

variable {store store' later : IdentityStore} {projectId : ℤ} {runId : ℕ} {repoRoot now : String}
  {row : FileSummaryRow}

/-- Nothing that the rollback of the run rests on has changed. -/
structure UnchangedSince (runId : ℕ) (store' later : IdentityStore) : Prop where
  summaries : later.summaries = store'.summaries
  records : later.runReconciliations runId = store'.runReconciliations runId
  run : later.runs.find (fun row ↦ row.id = runId ∧ row.status = .completed) =
    store'.runs.find (fun row ↦ row.id = runId ∧ row.status = .completed)

theorem returns_rollback (h : store.Consistent)
    (hrun : Reconciled projectId runId repoRoot store store') (hnew : store.sequences.runs < runId)
    (hcompleted : ∃ run, run.projectId = projectId ∧ store'.runs.find (fun row ↦
      row.id = runId ∧ row.status = .completed) = some run)
    (hlater : later.NumbersRollbacks) (hsame : UnchangedSince runId store' later)
    (hchanged : ¬∀ record ∈ store'.runReconciliations runId, record.classification = .unresolved) :
    ∃ result later', (rollbackFileSummaryReconciliation runId now).Returns later result later' := by
  obtain ⟨run, rfl, hfind⟩ := hcompleted
  have hnonempty : store'.runReconciliations runId ≠ [] := by
    intro hnil
    rw [hnil] at hchanged
    exact hchanged fun _ hrecord ↦ absurd hrecord List.not_mem_nil
  obtain ⟨summaries, hrestore⟩ := returns_restoreRecords h hrun hnew hsame.summaries
  obtain ⟨records, hmark⟩ := exists_mark later.records
    (fun record ↦ record.runId = runId ∧ record.rolledBackAt = none) now
  obtain ⟨later', hinsert⟩ : ∃ later', (insertRollback runId run.projectId none).Returns
      { later with summaries, records } (later.sequences.rollbacks + 1) later' :=
    exists_insertRollback
      (show IdentityStore.NumbersRollbacks { later with summaries, records } from hlater) none
  have hbody : (rollbackRun runId now).Returns later
      (.ok ⟨later.sequences.rollbacks + 1, runId, run.projectId,
        (store'.runReconciliations runId).countP (·.classification ≠ .unresolved)⟩) later' := by
    rw [rollbackRun]
    refine returns_read_bind.2 ?_
    rw [hsame.run, hfind]
    refine returns_read_bind.2 ?_
    rw [hsame.records, if_neg hnonempty, if_neg hchanged]
    refine (returns_firstRollbackConflict h hrun hnew hsame.summaries).bind ?_
    exact hrestore.bind ((Returns.writePart hmark).bind (hinsert.bind Returns.pure))
  exact ⟨_, later', (Returns.transaction hbody).bind Returns.pure⟩

theorem rows_of_unchanged (h : store.Consistent)
    (hrun : Reconciled projectId runId repoRoot store store') (hnew : store.sequences.runs < runId)
    (hunchanged : ∀ record ∈ store'.runReconciliations runId,
      record.classification = .unresolved) : store'.summaries.rows = store.summaries.rows := by
  obtain ⟨-, hentries⟩ := runReconciliations_of_reconciled h hrun hnew
  rw [hrun.summaries]
  refine (List.filterMap_congr fun row hrow ↦ ?_).trans List.filterMap_some
  by_contra hmoved
  rw [IdentityStore.settled] at hmoved
  split at hmoved
  · rename_i hproject
    have hne : store.outcome projectId repoRoot row ≠ .kept := fun hkept ↦ by
      rw [hkept] at hmoved
      exact hmoved rfl
    obtain ⟨record, hrecord, hentry⟩ := exists_news_of_outcome hentries hrow hproject hne
    have hclassification : record.entry.classification = .unresolved := hunchanged record hrecord
    cases houtcome : store.outcome projectId repoRoot row with
    | kept => exact hne houtcome
    | unresolved reason =>
      rw [houtcome] at hmoved
      exact hmoved rfl
    | converted path =>
      rw [houtcome] at hentry
      rw [← some.inj hentry] at hclassification
      cases hclassification
    | conflict path owner =>
      rw [houtcome] at hentry
      rw [← some.inj hentry] at hclassification
      cases hclassification
  · exact hmoved rfl

/-- **A rollback restores the table.** -/
theorem perm_of_rollback {c c' : Connection IdentityStore FamiliarError}
    {result : FileSummaryRollbackResult} (h : store.Consistent)
    (hrun : Reconciled projectId runId repoRoot store store') (hnew : store.sequences.runs < runId)
    (hcompleted : ∃ run, run.projectId = projectId ∧ store'.runs.find (fun row ↦
      row.id = runId ∧ row.status = .completed) = some run)
    (hsame : UnchangedSince runId store' c.store)
    (hrollback : (rollbackFileSummaryReconciliation runId now).Runs c result c') :
    c'.store.summaries.rows.Perm store.summaries.rows := by
  obtain ⟨-, _, run, c₁, c₂, hfind, rfl, hc₁, hloop, hsummaries⟩ := runs_rollback hrollback
  obtain ⟨run', rfl, hfind'⟩ := hcompleted
  rw [hsame.run, hfind'] at hfind
  obtain rfl := some.inj hfind
  rw [hsame.records] at hloop
  rw [hsummaries]
  exact perm_of_restoreRecords h hrun hnew (by rw [hc₁, hsame.summaries]) hloop

/-! ### What becomes of a summary -/

/-- Where a run leaves a summary: active under its canonical path, in the record of a conflict where
another row holds this path, or unresolved where it was. The last is the case only where it has no
canonical path, or a record already said so. -/
inductive SummaryKept (repoRoot : String) (store store' : IdentityStore) (row : FileSummaryRow) :
    Prop
  | active {path : String} (hpath : CanonicalFor repoRoot row.key.path path)
      (hrow : row.withPath path ∈ store'.summaries.rows) : SummaryKept repoRoot store store' row
  | taken {path : String} {owner : FileSummaryRow} {record : ReconciliationRecord}
      (hpath : CanonicalFor repoRoot row.key.path path) (howner : owner ∈ store'.summaries.rows)
      (hkey : owner.key = ⟨row.key.projectId, path⟩) (hother : owner.id ≠ row.id)
      (hrecord : record ∈ store'.records.rows) (hopen : record.rolledBackAt = none)
      (hconflict : record.classification = .conflict)
      (hmapped : record.mappedCanonicalPath = some path) (horiginal : record.original = row) :
      SummaryKept repoRoot store store' row
  | unresolved {record : ReconciliationRecord}
      (hnone : (∀ path, ¬CanonicalFor repoRoot row.key.path path) ∨ record ∈ store.records.rows)
      (hrow : row ∈ store'.summaries.rows) (hrecord : record ∈ store'.records.rows)
      (hopen : record.rolledBackAt = none) (hunresolved : record.classification = .unresolved)
      (horiginal : record.original = row) : SummaryKept repoRoot store store' row

/-- **No summary is lost.** -/
theorem summaryKept_of_reconciled (h : store.Consistent)
    (hrun : Reconciled projectId runId repoRoot store store') (hrow : row ∈ store.summaries.rows)
    (hproject : row.key.projectId = projectId) : SummaryKept repoRoot store store' row := by
  have hsettled : store.settled projectId repoRoot row =
      (store.outcome projectId repoRoot row).settle row := settled_of_project hproject
  have hstays (hself : (store.outcome projectId repoRoot row).settle row = some row) :
      row ∈ store'.summaries.rows := (mem_settled hrun).2 ⟨row, hrow, hsettled.trans hself⟩
  cases houtcome : store.outcome projectId repoRoot row with
  | kept =>
    rw [houtcome] at hstays
    rcases kept_cases h hrow houtcome with hcanonical | ⟨record, hrecord, hopen, hkind, rfl⟩
    · exact .active ⟨hcanonical, .inl rfl⟩ (hstays rfl)
    · exact .unresolved (.inr hrecord) (hstays rfl) (mem_records_of_reconciled hrun hrecord) hopen
        hkind rfl
  | unresolved reason =>
    have hclassify := outcome_eq_unresolved houtcome
    obtain ⟨record, hrecord, hentry⟩ :=
      exists_record_of_outcome hrun hrow hproject (by rw [houtcome]; exact nofun)
    obtain ⟨horiginal, -, hopen, -⟩ := record_eq_some hentry
    rw [houtcome] at hentry hstays
    have hkind : record.entry.classification = .unresolved := by
      rw [← some.inj hentry]
    exact .unresolved (.inl (not_canonicalFor_of_unresolved hclassify)) (hstays rfl) hrecord hopen
      hkind horiginal
  | converted path =>
    obtain ⟨hroot, hcanonical, hpath⟩ :=
      classifyIdentity_eq_mapped_iff.1 (outcome_eq_converted houtcome).1
    rw [houtcome] at hsettled
    exact .active ⟨hcanonical, .inr ⟨hroot, hpath⟩⟩ ((mem_settled hrun).2 ⟨row, hrow, hsettled⟩)
  | conflict path owner =>
    obtain ⟨hmapped, howner⟩ := outcome_eq_conflict houtcome
    obtain ⟨hroot, hcanonical, hpath⟩ := classifyIdentity_eq_mapped_iff.1 hmapped
    obtain ⟨x, hx, hkey, -⟩ := ownerOf_eq_some howner
    obtain ⟨record, hrecord, hentry⟩ :=
      exists_record_of_outcome hrun hrow hproject (by rw [houtcome]; exact nofun)
    obtain ⟨horiginal, -, hopen, -⟩ := record_eq_some hentry
    rw [houtcome] at hentry
    have hkind : record.entry.classification = .conflict := by
      rw [← some.inj hentry]
    have hmappedPath : record.entry.mappedCanonicalPath = some path := by
      rw [← some.inj hentry]
    -- the row that holds the path is canonical, so that the run keeps it
    have hvalid : validateStored x.key.path = .ok () := by
      rw [hkey]
      exact hcanonical
    have hxkept : x ∈ store'.summaries.rows := (mem_settled hrun).2
      ⟨x, hx, settled_of_kept fun _ ↦ outcome_of_canonical hvalid⟩
    have hother : x.id ≠ row.id := by
      intro hid
      rw [eq_of_id hx hrow hid] at hvalid
      exact not_validateStored_of_mapped hmapped hvalid
    rw [← hproject] at hkey
    exact .taken ⟨hcanonical, .inr ⟨hroot, hpath⟩⟩ hxkept hkey hother hrecord hopen hkind
      hmappedPath horiginal

theorem mem_elsewhere (hrun : Reconciled projectId runId repoRoot store store')
    (hproject : row.key.projectId ≠ projectId) :
    row ∈ store'.summaries.rows ↔ row ∈ store.summaries.rows := by
  rw [mem_settled hrun]
  constructor
  · rintro ⟨r, hr, hsettled⟩
    rw [← restoredAfter_nil] at hsettled
    rcases restoredAfter_eq_some hsettled with rfl | ⟨path, hr', -, rfl⟩
    · exact hr
    · exact absurd hr' hproject
  · exact fun hrow ↦ ⟨row, hrow, settled_of_kept fun h ↦ absurd h hproject⟩

end RoundTrip

/-- **Reconciling loses no summary, and can be taken back.** From every store that is reached: what
a successful run leaves of each summary, that it leaves the other projects alone, that the next run
changes no summary, and that a rollback restores the table as long as nothing has changed; and a run
or a rollback that fails changes no summary. -/
theorem reconcile_lossless {store : IdentityStore} (hstore : identitySystem.Reachable store)
    (projectId : ℤ) :
    (∀ faults result c', (reconcileFileSummaryIdentities projectId).Runs ⟨store, faults⟩ result c' →
      ∃ project, store.project projectId = some project ∧
        (∀ row ∈ store.summaries.rows, row.key.projectId = projectId →
          SummaryKept project.repoRoot store c'.store row) ∧
        (∀ row : FileSummaryRow, row.key.projectId ≠ projectId →
          (row ∈ c'.store.summaries.rows ↔ row ∈ store.summaries.rows)) ∧
        (∀ faults', ((reconcileFileSummaryIdentities projectId).run
          ⟨c'.store, faults'⟩).2.store.summaries = c'.store.summaries) ∧
        ∀ later now, identitySystem.Reachable later → UnchangedSince result.runId c'.store later →
          (∀ faults' result' c'', (rollbackFileSummaryReconciliation result.runId now).Runs
            ⟨later, faults'⟩ result' c'' →
            c''.store.summaries.rows.Perm store.summaries.rows) ∧
          ((rollbackFileSummaryReconciliation result.runId now).run
            ⟨later, []⟩).2.store.summaries.rows.Perm store.summaries.rows) ∧
    (∀ faults e c', (reconcileFileSummaryIdentities projectId).Fails ⟨store, faults⟩ e c' →
      c'.store.summaries = store.summaries) ∧
    ∀ runId now faults e c', (rollbackFileSummaryReconciliation runId now).Fails
      ⟨store, faults⟩ e c' → c'.store.summaries = store.summaries := by
  have h := consistent_of_reachable hstore
  refine ⟨fun faults result c' hrun ↦ ?_, ?_, ?_⟩
  · obtain ⟨hresult, project, hproject, hreconciled, hsequence, hcompleted⟩ :=
      runs_reconcileFileSummaryIdentities hrun
    have hnew : store.sequences.runs < store.sequences.runs + 1 := Nat.lt_succ_self _
    have h' : c'.store.Consistent := h.of_reconciled hreconciled hnew hsequence.ge
    refine ⟨project, hproject, ?_, ?_, ?_, ?_⟩
    · exact fun row hrow hrowProject ↦ summaryKept_of_reconciled h hreconciled hrow hrowProject
    · exact fun row hrowProject ↦ mem_elsewhere hreconciled hrowProject
    · intro faults'
      cases hsecond : (reconcileFileSummaryIdentities projectId).run ⟨c'.store, faults'⟩ with
      | mk answer c'' =>
        rcases answer with e | result'
        · exact (fails_reconcileFileSummaryIdentities hsecond).summaries
        obtain ⟨-, project', hproject', hreconciled', -, -⟩ :=
          runs_reconcileFileSummaryIdentities hsecond
        -- the root is still the one that the first run has read
        rw [IdentityStore.project, hreconciled.projects] at hproject'
        rw [IdentityStore.project, hproject'] at hproject
        rw [some.inj hproject] at hreconciled'
        exact summaries_of_second h h' hreconciled hreconciled'
    · intro later now hlater hsame
      rw [hresult] at hsame ⊢
      refine ⟨fun faults' result' c'' hrollback ↦
        perm_of_rollback h hreconciled hnew hcompleted hsame hrollback, ?_⟩
      cases hrollback : (rollbackFileSummaryReconciliation (store.sequences.runs + 1) now).run
        ⟨later, []⟩ with
      | mk answer c'' =>
        cases answer with
        | ok result' => exact perm_of_rollback h hreconciled hnew hcompleted hsame hrollback
        | error e =>
          -- without a fault, only a run that has changed nothing is refused
          by_cases hunchanged : ∀ record ∈ c'.store.runReconciliations (store.sequences.runs + 1),
              record.classification = .unresolved
          · rw [(fails_rollback hrollback).summaries]
            refine List.Perm.of_eq ?_
            show later.summaries.rows = _
            rw [hsame.summaries]
            exact rows_of_unchanged h hreconciled hnew hunchanged
          · obtain ⟨result', later', hreturns⟩ : ∃ result' later',
                (rollbackFileSummaryReconciliation (store.sequences.runs + 1) now).Returns later
                  result' later' :=
              returns_rollback h hreconciled hnew hcompleted
                (consistent_of_reachable hlater).rollbackIds hsame hunchanged
            cases hrollback.symm.trans hreturns
  · exact fun faults e c' hfails ↦ (fails_reconcileFileSummaryIdentities hfails).summaries
  · exact fun runId now faults e c' hfails ↦ (fails_rollback hfails).summaries

def legacyRow (id : ℕ) (projectId : ℤ) (path : String) : FileSummaryRow where
  id := id
  key := ⟨projectId, path⟩
  content := ⟨path, "[]", none, none, none⟩
  lastUpdatedAt := "2026-01-01"
  createdAt := "2026-01-01"
  updatedAt := "2026-01-01"

/-- A canonical path, a legacy one, one whose canonical path is taken, a malformed one, and the path
of another project. -/
def legacyStore : IdentityStore where
  projects := [⟨1, "/repo", true⟩, ⟨2, "/other", true⟩]
  sequences := { summaries := 5 }
  summaries := ⟨[legacyRow 1 1 "b.rs", legacyRow 2 1 "/repo/src/a.rs", legacyRow 3 1 "/repo/b.rs",
    legacyRow 4 1 "../c.rs", legacyRow 5 2 "/other/d.rs"], by decide⟩
  runs := .empty
  reasons := .empty
  records := .empty
  rollbacks := .empty

theorem legacyStore_fresh : legacyStore.Fresh where
  summaries := by decide
  runs := rfl
  reasons := rfl
  records := rfl
  rollbacks := rfl

theorem reconcile_lossless_legacyStore :
    ∃ result c', (reconcileFileSummaryIdentities 1).Runs ⟨legacyStore, []⟩ result c' ∧
      SummaryKept "/repo" legacyStore c'.store (legacyRow 3 1 "/repo/b.rs") ∧
      ((rollbackFileSummaryReconciliation result.runId "2026-02-01").run
        ⟨c'.store, []⟩).2.store.summaries.rows.Perm legacyStore.summaries.rows := by
  have hreach : identitySystem.Reachable legacyStore := .start legacyStore_fresh
  have hok : ((reconcileFileSummaryIdentities 1).run ⟨legacyStore, []⟩).1.toOption.isSome := by
    decide +kernel
  cases hrun : (reconcileFileSummaryIdentities 1).run ⟨legacyStore, []⟩ with
  | mk answer c' =>
    rcases answer with e | result
    · rw [hrun] at hok
      cases hok
    have hreach' : identitySystem.Reachable c'.store :=
      .step (e := .reconcile 1 []) hreach trivial (by
        show some ((reconcileFileSummaryIdentities 1).run ⟨legacyStore, []⟩).2.store = _
        rw [hrun])
    obtain ⟨project, hproject, hkept, -, -, hback⟩ :=
      (reconcile_lossless hreach 1).1 [] result c' hrun
    obtain rfl : ⟨1, "/repo", true⟩ = project := some.inj hproject
    refine ⟨result, c', hrun, hkept _ (by decide +kernel) rfl, ?_⟩
    exact (hback c'.store "2026-02-01" hreach' ⟨rfl, rfl, rfl⟩).2

/-- The summary is active under its canonical path, or preserved where another row holds it. -/
def SummaryResolved (repoRoot : String) (store' : IdentityStore) (row : FileSummaryRow) : Prop :=
  ∃ path, CanonicalFor repoRoot row.key.path path ∧
    (row.withPath path ∈ store'.summaries.rows ∨
      (∃ owner ∈ store'.summaries.rows, owner.key = ⟨row.key.projectId, path⟩) ∧
        ∃ record ∈ store'.records.rows, record.original = row)

/-- **A malformed path is not resolved.** -/
theorem not_reconcile_resolves :
    ¬∀ store : IdentityStore, identitySystem.Reachable store → ∀ projectId project faults result c',
      store.project projectId = some project →
      (reconcileFileSummaryIdentities projectId).Runs ⟨store, faults⟩ result c' →
      ∀ row ∈ store.summaries.rows, row.key.projectId = projectId →
        SummaryResolved project.repoRoot c'.store row := by
  intro h
  have hok : ((reconcileFileSummaryIdentities 1).run ⟨legacyStore, []⟩).1.toOption.isSome := by
    decide +kernel
  cases hrun : (reconcileFileSummaryIdentities 1).run ⟨legacyStore, []⟩ with
  | mk answer c' =>
    rcases answer with e | result
    · rw [hrun] at hok
      cases hok
    obtain ⟨path, hpath, -⟩ := h legacyStore (.start legacyStore_fresh) 1 ⟨1, "/repo", true⟩ []
      result c' rfl hrun (legacyRow 4 1 "../c.rs") (by decide +kernel) rfl
    have hclassify : classifyIdentity (some "/repo") "../c.rs" =
        .unresolved .nonAbsoluteNoncanonical := by decide +kernel
    exact not_canonicalFor_of_unresolved hclassify path hpath

end FamiliarAi
