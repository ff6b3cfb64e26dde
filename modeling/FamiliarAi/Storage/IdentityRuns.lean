import FamiliarAi.Storage.Identities

/-!
# What a reconciliation run leaves

What becomes of a row is told by the table before the run (`IdentityStore.outcome`), although the
loop looks at the table as the rows before have left it: a row that is converted or deleted had no
canonical path, and no two rows are mapped to the same path, so that no round changes who holds the
path of another one. A successful run settles each row by its outcome and adds a record for each row
that it has touched or left unresolved (`Reconciled`).

The records of earlier runs that were not rolled back stand for as long as nothing but canonical
paths is written (`ReconciliationRecord.Stands`), and no row has two of them. This is what a later
run goes by when it passes over a row.
-/

namespace FamiliarAi

open Relational Query List Option

/-! ### Outcomes -/

inductive RowOutcome
  | kept
  | unresolved (reason : ReconciliationReason)
  | converted (path : String)
  | conflict (path : String) (owner : ℕ)
  deriving DecidableEq

def FileSummaryRow.withPath (row : FileSummaryRow) (path : String) : FileSummaryRow :=
  { row with key := ⟨row.key.projectId, path⟩ }

@[simp] theorem FileSummaryRow.withPath_id (row : FileSummaryRow) (path : String) :
    (row.withPath path).id = row.id := rfl

@[simp] theorem FileSummaryRow.withPath_key (row : FileSummaryRow) (path : String) :
    (row.withPath path).key = ⟨row.key.projectId, path⟩ := rfl

def RowOutcome.settle (row : FileSummaryRow) : RowOutcome → Option FileSummaryRow
  | kept => some row
  | unresolved _ => some row
  | converted path => some (row.withPath path)
  | conflict _ _ => none

def RowOutcome.record (runId : ℕ) (row : FileSummaryRow) : RowOutcome → Option ReconciliationRecord
  | kept => none
  | unresolved reason => some ⟨0, runId, .unresolved, some reason, none, some row.id, row, none⟩
  | converted path => some ⟨0, runId, .converted, none, some path, some row.id, row, none⟩
  | conflict path owner => some ⟨0, runId, .conflict, none, some path, some owner, row, none⟩

/-- The record apart from its id. -/
def ReconciliationRecord.entry (record : ReconciliationRecord) : ReconciliationRecord :=
  { record with id := 0 }

def PreviouslyReconciled (priors : List ReconciliationRecord) (row : FileSummaryRow) : Prop :=
  row.id ∈ priorResultingIds priors ∨ (priorOriginal priors row).isSome

instance (priors : List ReconciliationRecord) : DecidablePred (PreviouslyReconciled priors) :=
  fun row ↦ inferInstanceAs (Decidable (row.id ∈ _ ∨ _))

/-- What becomes of a row in a run. -/
def IdentityStore.outcome (store : IdentityStore) (projectId : ℤ) (repoRoot : String)
    (row : FileSummaryRow) : RowOutcome :=
  if PreviouslyReconciled (store.priorReconciliations projectId) row then .kept
  else
    match classifyIdentity (some repoRoot) row.key.path with
    | .canonical => .kept
    | .unresolved reason => .unresolved reason
    | .mapped path =>
      match store.ownerOf ⟨projectId, path⟩ with
      | some owner => .conflict path owner
      | none => .converted path

def IdentityStore.settled (store : IdentityStore) (projectId : ℤ) (repoRoot : String)
    (row : FileSummaryRow) : Option FileSummaryRow :=
  if row.key.projectId = projectId then (store.outcome projectId repoRoot row).settle row
  else some row

/-- The ids of the rollbacks come from their sequence. -/
def IdentityStore.NumbersRollbacks (store : IdentityStore) : Prop :=
  ∀ row ∈ store.rollbacks.rows, row.id ≤ store.sequences.rollbacks

/-- The two stores differ in the runs and the rollbacks only. -/
structure Quiet (store store' : IdentityStore) : Prop where
  projects : store'.projects = store.projects
  summaries : store'.summaries = store.summaries
  records : store'.records = store.records
  summaryIds : store'.sequences.summaries = store.sequences.summaries
  runIds : store.sequences.runs ≤ store'.sequences.runs
  rollbackIds : store.NumbersRollbacks → store'.NumbersRollbacks

instance : Std.Refl Quiet :=
  ⟨fun _ ↦ ⟨rfl, rfl, rfl, rfl, le_rfl, id⟩⟩

instance : IsTrans IdentityStore Quiet :=
  ⟨fun _ _ _ h h' ↦ ⟨h'.projects.trans h.projects, h'.summaries.trans h.summaries,
    h'.records.trans h.records, h'.summaryIds.trans h.summaryIds, h.runIds.trans h'.runIds,
    h'.rollbackIds ∘ h.rollbackIds⟩⟩

/-- What a successful run of a project below a root leaves behind. -/
structure Reconciled (projectId : ℤ) (runId : ℕ) (repoRoot : String)
    (store store' : IdentityStore) : Prop where
  summaries : store'.summaries.rows =
    store.summaries.rows.filterMap (store.settled projectId repoRoot)
  records : ∃ news, store'.records.rows = store.records.rows ++ news ∧
    news.map (·.entry) = (store.projectRows projectId).filterMap fun row ↦
      (store.outcome projectId repoRoot row).record runId row
  projects : store'.projects = store.projects
  summaryIds : store'.sequences.summaries = store.sequences.summaries
  rollbackIds : store.NumbersRollbacks → store'.NumbersRollbacks

section Owners

variable {store store' : IdentityStore} {key : FileKey} {projectId : ℤ} {repoRoot : String}
  {row row' : FileSummaryRow} {runId : ℕ} {path : String} {T : Table fileSummarySchema}
  {outcome : RowOutcome} {owner : ℕ}

theorem clash_of_key {row row' : FileSummaryRow} (h : row.key = row'.key) :
    fileSummarySchema.clash row row' = true :=
  decide_eq_true (.inr h)

theorem clash_of_id {row row' : FileSummaryRow} (h : row.id = row'.id) :
    fileSummarySchema.clash row row' = true :=
  decide_eq_true (.inl h)

theorem eq_of_key (hrow : row ∈ T.rows) (hrow' : row' ∈ T.rows) (h : row.key = row'.key) :
    row = row' :=
  T.eq_of_clash hrow hrow' (clash_of_key h)

theorem eq_of_id (hrow : row ∈ T.rows) (hrow' : row' ∈ T.rows) (h : row.id = row'.id) :
    row = row' :=
  T.eq_of_clash hrow hrow' (clash_of_id h)

theorem ownerOf_eq_some (h : store.ownerOf key = some owner) :
    ∃ row ∈ store.summaries.rows, row.key = key ∧ row.id = owner := by
  obtain ⟨row, hfind, hid⟩ := map_eq_some_iff.1 h
  obtain ⟨hrow, hkey⟩ := Table.find_some hfind
  exact ⟨row, hrow, of_decide_eq_true hkey, hid⟩

theorem ownerOf_eq_none (h : store.ownerOf key = none) (hrow : row ∈ store.summaries.rows) :
    row.key ≠ key := by
  rw [IdentityStore.ownerOf, map_eq_none_iff] at h
  have hfree := Table.find_none h hrow
  exact of_decide_eq_false hfree

theorem ownerOf_congr (h : ∀ row : FileSummaryRow, row.key = key →
    (row ∈ store.summaries.rows ↔ row ∈ store'.summaries.rows)) :
    store.ownerOf key = store'.ownerOf key := by
  refine congrArg (Option.map FileSummaryRow.id) (Table.find_congr ?_ ?_)
  · intro row row' hrow hrow'
    exact clash_of_key ((of_decide_eq_true hrow).trans (of_decide_eq_true hrow').symm)
  · exact fun row hrow ↦ h row (of_decide_eq_true hrow)

theorem mem_projectRows :
    row ∈ store.projectRows projectId ↔
      row ∈ store.summaries.rows ∧ row.key.projectId = projectId := by
  rw [IdentityStore.projectRows, mem_insertionSort, mem_filter, decide_eq_true_eq]

theorem nodup_projectRows : (store.projectRows projectId).Nodup :=
  (perm_insertionSort _ _).nodup_iff.2 (store.summaries.nodup.filter _)

theorem outcome_of_previous
    (h : PreviouslyReconciled (store.priorReconciliations projectId) row) :
    store.outcome projectId repoRoot row = .kept :=
  if_pos h

theorem outcome_of_canonical (h : validateStored row.key.path = .ok ()) :
    store.outcome projectId repoRoot row = .kept := by
  rw [IdentityStore.outcome, classifyIdentity_eq_canonical_iff.2 h, ite_self]

def RowOutcome.path? : RowOutcome → Option String
  | converted path => some path
  | conflict path _ => some path
  | _ => none

theorem classify_of_path? (h : (store.outcome projectId repoRoot row).path? = some path) :
    classifyIdentity (some repoRoot) row.key.path = .mapped path := by
  unfold IdentityStore.outcome at h
  split at h
  · cases h
  · split at h
    · cases h
    · cases h
    · rename_i path' hclassify
      rw [hclassify]
      split at h
      · exact congrArg _ (some.inj h)
      · exact congrArg _ (some.inj h)

theorem outcome_eq_converted (h : store.outcome projectId repoRoot row = .converted path) :
    classifyIdentity (some repoRoot) row.key.path = .mapped path ∧
      store.ownerOf ⟨projectId, path⟩ = none := by
  refine ⟨classify_of_path? (by rw [h]; rfl), ?_⟩
  have hmapped : classifyIdentity (some repoRoot) row.key.path = .mapped path :=
    classify_of_path? (by rw [h]; rfl)
  rw [IdentityStore.outcome, hmapped] at h
  split at h
  · cases h
  · dsimp only at h
    split at h
    · cases h
    · assumption

theorem outcome_eq_conflict (h : store.outcome projectId repoRoot row = .conflict path owner) :
    classifyIdentity (some repoRoot) row.key.path = .mapped path ∧
      store.ownerOf ⟨projectId, path⟩ = some owner := by
  have hmapped : classifyIdentity (some repoRoot) row.key.path = .mapped path :=
    classify_of_path? (by rw [h]; rfl)
  refine ⟨hmapped, ?_⟩
  rw [IdentityStore.outcome, hmapped] at h
  split at h
  · cases h
  · dsimp only at h
    split at h
    · cases h
      assumption
    · cases h

theorem outcome_eq_unresolved {reason : ReconciliationReason}
    (h : store.outcome projectId repoRoot row = .unresolved reason) :
    classifyIdentity (some repoRoot) row.key.path = .unresolved reason := by
  unfold IdentityStore.outcome at h
  split at h
  · cases h
  · split at h
    · cases h
    · cases h
      assumption
    · split at h
      · cases h
      · cases h

theorem key_eq_of_mapped (h : classifyIdentity (some repoRoot) row.key.path = .mapped path)
    (h' : classifyIdentity (some repoRoot) row'.key.path = .mapped path)
    (hproject : row.key.projectId = row'.key.projectId) : row.key = row'.key := by
  have hpath : row.key.path = row'.key.path :=
    (classifyIdentity_eq_mapped_iff.1 h).2.2.trans (classifyIdentity_eq_mapped_iff.1 h').2.2.symm
  calc row.key = ⟨row.key.projectId, row.key.path⟩ := rfl
    _ = ⟨row'.key.projectId, row'.key.path⟩ := by rw [hproject, hpath]

theorem not_canonical_of_outcome (h : store.outcome projectId repoRoot row ≠ .kept) :
    validateStored row.key.path ≠ .ok () :=
  fun hcanonical ↦ h (outcome_of_canonical hcanonical)

theorem settle_eq_some {row row' : FileSummaryRow} (h : outcome.settle row = some row') :
    row' = row ∨ ∃ path, outcome = .converted path ∧ row' = row.withPath path := by
  cases outcome with
  | kept => exact .inl (some.inj h).symm
  | unresolved reason => exact .inl (some.inj h).symm
  | converted path => exact .inr ⟨path, rfl, (some.inj h).symm⟩
  | conflict path owner => cases h

theorem settle_id {row row' : FileSummaryRow} (h : outcome.settle row = some row') :
    row'.id = row.id := by
  rcases settle_eq_some h with rfl | ⟨path, -, rfl⟩
  · rfl
  · rfl

theorem settled_id (h : store.settled projectId repoRoot row = some row') : row'.id = row.id := by
  rw [IdentityStore.settled] at h
  split at h
  · exact settle_id h
  · rw [some.inj h]

end Owners

/-! ### The loop -/

section Loop

variable {store : IdentityStore} {projectId : ℤ} {repoRoot : String} {runId : ℕ}
  {row row' : FileSummaryRow} {done : List FileSummaryRow}
  {c c' : Connection IdentityStore FamiliarError} {b : FileSummaryRow}

def IdentityStore.settledAfter (store : IdentityStore) (projectId : ℤ) (repoRoot : String)
    (done : List FileSummaryRow) (row : FileSummaryRow) : Option FileSummaryRow :=
  if row ∈ done then (store.outcome projectId repoRoot row).settle row else some row

/-- Where the loop stands when the rounds of some rows are over. -/
structure SettlingState (store : IdentityStore) (projectId : ℤ) (repoRoot : String) (runId : ℕ)
    (done : List FileSummaryRow) (current : IdentityStore) : Prop where
  summaries : current.summaries.rows =
    store.summaries.rows.filterMap (store.settledAfter projectId repoRoot done)
  records : ∃ news, current.records.rows = store.records.rows ++ news ∧
    news.map (·.entry) = done.filterMap fun row ↦
      (store.outcome projectId repoRoot row).record runId row
  projects : current.projects = store.projects
  summaryIds : current.sequences.summaries = store.sequences.summaries
  runIds : current.sequences.runs = store.sequences.runs
  runs : current.runs = store.runs
  rollbackIds : store.NumbersRollbacks → current.NumbersRollbacks

theorem settledAfter_id (h : store.settledAfter projectId repoRoot done row = some row') :
    row'.id = row.id := by
  rw [IdentityStore.settledAfter] at h
  split at h
  · exact settle_id h
  · rw [some.inj h]

theorem settledAfter_append_of_ne (h : row ≠ b) :
    store.settledAfter projectId repoRoot (done ++ [b]) row =
      store.settledAfter projectId repoRoot done row := by
  have hmem : row ∈ done ++ [b] ↔ row ∈ done := by
    rw [mem_append, mem_singleton]
    exact or_iff_left h
  rw [IdentityStore.settledAfter, IdentityStore.settledAfter]
  simp only [hmem]

theorem settledAfter_append_self :
    store.settledAfter projectId repoRoot (done ++ [b]) b =
      (store.outcome projectId repoRoot b).settle b :=
  if_pos (mem_append_right _ (mem_singleton.2 rfl))

/-- **No round changes who holds the path of another row.** -/
theorem ownerOf_of_settlingState {current : IdentityStore} {path : String}
    (h : SettlingState store projectId repoRoot runId done current)
    (hdone : ∀ row ∈ done, row ∈ store.summaries.rows ∧ row.key.projectId = projectId)
    (hrow : row ∈ store.summaries.rows) (hproject : row.key.projectId = projectId)
    (hnew : row ∉ done) (hmapped : classifyIdentity (some repoRoot) row.key.path = .mapped path) :
    current.ownerOf ⟨projectId, path⟩ = store.ownerOf ⟨projectId, path⟩ := by
  obtain ⟨-, hcanonical, -⟩ := classifyIdentity_eq_mapped_iff.1 hmapped
  refine ownerOf_congr fun x hx ↦ ?_
  rw [h.summaries, mem_filterMap]
  constructor
  · rintro ⟨r, hr, hsettled⟩
    rw [IdentityStore.settledAfter] at hsettled
    split at hsettled
    · rename_i hmem
      rcases settle_eq_some hsettled with rfl | ⟨path', houtcome, rfl⟩
      · exact hr
      · -- another row that is converted to the path would be the row itself
        obtain ⟨hmapped', -⟩ := outcome_eq_converted houtcome
        obtain rfl : path' = path := congrArg FileKey.path hx
        have hkey := key_eq_of_mapped hmapped' hmapped ((hdone r hmem).2.trans hproject.symm)
        exact absurd (eq_of_key hr hrow hkey ▸ hmem) hnew
    · rw [← some.inj hsettled]
      exact hr
  · intro hmem
    refine ⟨x, hmem, ?_⟩
    have hvalid : validateStored x.key.path = .ok () := by
      rw [hx]
      exact hcanonical
    rw [IdentityStore.settledAfter, outcome_of_canonical hvalid]
    exact ite_self _

theorem runs_preserveReconciliationRecord {classification : ReconciliationKind}
    {reason : Option ReconciliationReason} {mapped : Option String} {resulting : Option ℕ}
    {recordId : ℕ}
    (h : (preserveReconciliationRecord runId row classification reason mapped resulting).Runs c recordId c')
    :
    ∃ record : ReconciliationRecord,
      record.entry = ⟨0, runId, classification, reason, mapped, resulting, row, none⟩ ∧
      c'.store.records.rows = c.store.records.rows ++ [record] ∧
      c'.store.summaries = c.store.summaries ∧ c'.store.projects = c.store.projects ∧
      c'.store.sequences.summaries = c.store.sequences.summaries ∧
      c'.store.sequences.runs = c.store.sequences.runs ∧ c'.store.runs = c.store.runs ∧
      (c.store.NumbersRollbacks → c'.store.NumbersRollbacks) := by
  obtain ⟨records, hinsert, hstore⟩ := map_eq_some_iff.1 h.of_change
  rw [← (Prod.mk.inj hstore).2]
  exact ⟨_, rfl, Table.rows_insert hinsert, rfl, rfl, rfl, rfl, rfl, id⟩

theorem settledAfter_append_of_self
    (h : (store.outcome projectId repoRoot row).settle row = some row) (hnew : row ∉ done) :
    store.settledAfter projectId repoRoot (done ++ [row]) =
      store.settledAfter projectId repoRoot done := by
  funext x
  by_cases hx : x = row
  · rw [hx, settledAfter_append_self, h, IdentityStore.settledAfter, if_neg hnew]
  · exact settledAfter_append_of_ne hx

theorem SettlingState.advance {current current' : IdentityStore}
    (h : SettlingState store projectId repoRoot runId done current)
    (hsummaries : current'.summaries.rows =
      store.summaries.rows.filterMap (store.settledAfter projectId repoRoot (done ++ [row])))
    (hrecords : ∃ news, current'.records.rows = current.records.rows ++ news ∧
      news.map (·.entry) = ((store.outcome projectId repoRoot row).record runId row).toList)
    (hprojects : current'.projects = current.projects)
    (hsummaryIds : current'.sequences.summaries = current.sequences.summaries)
    (hrunIds : current'.sequences.runs = current.sequences.runs)
    (hruns : current'.runs = current.runs)
    (hrollbackIds : current.NumbersRollbacks → current'.NumbersRollbacks) :
    SettlingState store projectId repoRoot runId (done ++ [row]) current' where
  summaries := hsummaries
  records := by
    obtain ⟨news, hnews, hentries⟩ := h.records
    obtain ⟨more, hmore, hentry⟩ := hrecords
    refine ⟨news ++ more, by rw [hmore, hnews, append_assoc], ?_⟩
    rw [map_append, hentries, hentry, filterMap_append]
    rfl
  projects := hprojects.trans h.projects
  summaryIds := hsummaryIds.trans h.summaryIds
  runIds := hrunIds.trans h.runIds
  runs := hruns.trans h.runs
  rollbackIds := hrollbackIds ∘ h.rollbackIds

theorem filterMap_settledAfter {g : Option FileSummaryRow → Option FileSummaryRow}
    (hself : g (some row) = (store.outcome projectId repoRoot row).settle row)
    (hrow : row ∈ store.summaries.rows) (hnew : row ∉ done) (hnone : g none = none)
    (hother : ∀ x : FileSummaryRow, x.id ≠ row.id → g (some x) = some x) :
    ∀ x ∈ store.summaries.rows, g (store.settledAfter projectId repoRoot done x) =
      store.settledAfter projectId repoRoot (done ++ [row]) x := by
  intro x hx
  by_cases hxrow : x = row
  · rw [hxrow, settledAfter_append_self, ← hself, IdentityStore.settledAfter, if_neg hnew]
  · rw [settledAfter_append_of_ne hxrow]
    rcases hsettled : store.settledAfter projectId repoRoot done x with _ | x'
    · exact hnone
    refine hother x' fun hid ↦ hxrow (eq_of_id hx hrow ?_)
    rw [← hid, settledAfter_id hsettled]

/-- **One round.** -/
theorem SettlingState.round {counts counts' : ReconciliationCounts}
    (h : SettlingState store projectId repoRoot runId done c.store)
    (hdone : ∀ row ∈ done, row ∈ store.summaries.rows ∧ row.key.projectId = projectId)
    (hrow : row ∈ store.summaries.rows) (hproject : row.key.projectId = projectId)
    (hnew : row ∉ done)
    (hrun : (reconcileRow projectId runId repoRoot (store.priorReconciliations projectId) counts row).Runs c counts' c')
    :
    SettlingState store projectId repoRoot runId (done ++ [row]) c'.store := by
  have hstay (houtcome : store.outcome projectId repoRoot row = .kept) (hc : c = c') :
      SettlingState store projectId repoRoot runId (done ++ [row]) c'.store := by
    subst hc
    refine h.advance ?_ ⟨[], (append_nil _).symm, by rw [houtcome]; rfl⟩ rfl rfl rfl rfl id
    rw [settledAfter_append_of_self (by rw [houtcome]; rfl) hnew, h.summaries]
  unfold reconcileRow at hrun
  split at hrun
  · rename_i hprevious
    exact hstay (outcome_of_previous hprevious) (runs_pure.1 hrun).2
  · rename_i hprevious
    have houtcome : store.outcome projectId repoRoot row = _ := if_neg hprevious
    split at hrun
    · rename_i hclassify
      rw [hclassify] at houtcome
      exact hstay houtcome (runs_pure.1 hrun).2
    · rename_i reason hclassify
      rw [hclassify] at houtcome
      obtain ⟨recordId, c₁, hpreserve, hpure⟩ := hrun.of_bind
      obtain ⟨record, hentry, hrecords, hsummaries, hprojects, hsummaryIds, hrunIds, hruns,
        hrollbackIds⟩ := runs_preserveReconciliationRecord hpreserve
      obtain ⟨-, rfl⟩ := runs_pure.1 hpure
      refine h.advance ?_ ⟨[record], hrecords, ?_⟩ hprojects hsummaryIds hrunIds hruns hrollbackIds
      · rw [settledAfter_append_of_self (by rw [houtcome]; rfl) hnew, hsummaries, h.summaries]
      · rw [houtcome, map_singleton, hentry]
        rfl
    · rename_i path hclassify
      rw [hclassify] at houtcome
      dsimp only at houtcome
      obtain ⟨canonicalId, c₁, hread, hrun⟩ := hrun.of_bind
      obtain ⟨hcanonicalId, hc₁⟩ := hread.of_read
      rw [ownerOf_of_settlingState h hdone hrow hproject hnew hclassify] at hcanonicalId
      rw [← hcanonicalId] at houtcome
      obtain ⟨recordId, c₂, hpreserve, hrun⟩ := hrun.of_bind
      obtain ⟨record, hentry, hrecords, hsummaries, hprojects, hsummaryIds, hrunIds, hruns,
        hrollbackIds⟩ := runs_preserveReconciliationRecord hpreserve
      rw [hc₁] at hrecords hsummaries hprojects hsummaryIds hrunIds hruns hrollbackIds
      cases canonicalId with
      | some owner =>
        -- the path is taken, and the row is deleted
        obtain ⟨_, -, hdelete⟩ := hrun.of_bind_pure
        obtain ⟨summaries, hsome, hstore⟩ := hdelete.of_writePart
        rw [hstore]
        refine h.advance ?_ ⟨[record], hrecords, ?_⟩ hprojects hsummaryIds hrunIds hruns
          hrollbackIds
        · show summaries.rows = _
          rw [← some.inj hsome, hsummaries, Table.rows_delete, h.summaries, filter_filterMap]
          refine filterMap_congr (filterMap_settledAfter ?_ hrow hnew rfl ?_)
          · rw [houtcome]
            simp [RowOutcome.settle, hproject]
          · intro x hx
            simp [Option.filter, hx]
        · rw [houtcome, map_singleton, hentry]
          rfl
      | none =>
        -- the path is free, and the row moves to it
        obtain ⟨_, -, hupdate⟩ := hrun.of_bind_pure
        obtain ⟨summaries, hsome, hstore⟩ := hupdate.of_writePart
        rw [hstore]
        refine h.advance ?_ ⟨[record], hrecords, ?_⟩ hprojects hsummaryIds hrunIds hruns
          hrollbackIds
        · show summaries.rows = _
          rw [Table.rows_update hsome, hsummaries, h.summaries, map_filterMap]
          refine filterMap_congr (filterMap_settledAfter ?_ hrow hnew rfl ?_)
          · rw [houtcome]
            simp [RowOutcome.settle, hproject, FileSummaryRow.withPath]
          · intro x hx
            simp [hx]
        · rw [houtcome, map_singleton, hentry]
          rfl

theorem settledAfter_projectRows (hrow : row ∈ store.summaries.rows) :
    store.settledAfter projectId repoRoot (store.projectRows projectId) row =
      store.settled projectId repoRoot row := by
  rw [IdentityStore.settledAfter, IdentityStore.settled]
  simp only [mem_projectRows, hrow, true_and]

theorem runs_registerReasons {reasons : List (ReconciliationReason × ℕ)} {u : Unit}
    (h : (forEach reasons fun reason ↦ writePart identityConstraint (·.reasons) (fun store reasons ↦ { store with reasons }) (·.insert ⟨runId, reason.1, reason.2⟩)).Runs c u c')
    :
    ∃ reasons, c'.store = { c.store with reasons } := by
  refine h.of_forEach (P := fun _ store ↦ ∃ reasons, store = { c.store with reasons })
    ⟨c.store.reasons, rfl⟩ ?_
  rintro done reason rest c₁ c₂ - ⟨reasons, hreasons⟩ hrun
  obtain ⟨reasons', -, hstore⟩ := hrun.of_writePart
  exact ⟨reasons', by rw [hstore, hreasons]⟩

/-- **What a successful run leaves.** -/
theorem runs_reconcileProject {result : FileSummaryReconciliationResult}
    (h : (reconcileProject projectId runId).Runs c result c') :
    result.runId = runId ∧ ∃ project, c.store.project projectId = some project ∧
      Reconciled projectId runId project.repoRoot c.store c'.store ∧
      c'.store.sequences.runs = c.store.sequences.runs ∧
      ∀ run ∈ c.store.runs.rows, run.id = runId → ∃ run', run'.projectId = run.projectId ∧
        c'.store.runs.find (fun row ↦ row.id = runId ∧ row.status = .completed) = some run' := by
  obtain ⟨root, c₁, hread, h⟩ := h.of_bind
  obtain ⟨hroot, hc₁⟩ := hread.of_read
  rcases hproject : c.store.project projectId with _ | project
  · rw [hproject] at hroot
    rw [hroot] at h
    exact absurd h not_runs_fail
  rw [hproject] at hroot
  rw [hroot] at h
  obtain ⟨rows, c₂, hread, h⟩ := h.of_bind
  obtain ⟨hrows, hc₂⟩ := hread.of_read
  obtain ⟨priors, c₃, hread, h⟩ := h.of_bind
  obtain ⟨hpriors, hc₃⟩ := hread.of_read
  obtain ⟨counts, c₄, hloop, h⟩ := h.of_bind
  obtain ⟨_, c₅, hcomplete, h⟩ := h.of_bind
  obtain ⟨_, c₆, hreasons, hpure⟩ := h.of_bind
  obtain ⟨rfl, rfl⟩ := runs_pure.1 hpure
  rw [hc₁] at hrows hc₂
  rw [hc₂] at hpriors hc₃
  have hstate : SettlingState c.store projectId project.repoRoot runId rows c₄.store := by
    refine hloop.of_foldEach (P := SettlingState c.store projectId project.repoRoot runId) ?_ ?_
    · rw [hc₃]
      refine ⟨?_, ⟨[], (append_nil _).symm, rfl⟩, rfl, rfl, rfl, rfl, id⟩
      have hnone : c.store.settledAfter projectId project.repoRoot [] = some := by
        funext row
        exact if_neg not_mem_nil
      rw [hnone, filterMap_some]
    · intro done row rest a c₁ a' c₂ hsplit hstate hrun
      have hmem (x : FileSummaryRow) (hx : x ∈ done ++ row :: rest) :
          x ∈ c.store.summaries.rows ∧ x.key.projectId = projectId := by
        rw [← hsplit, hrows] at hx
        exact mem_projectRows.1 hx
      have hnodup : (done ++ row :: rest).Nodup := by
        rw [← hsplit, hrows]
        exact nodup_projectRows
      rw [hpriors] at hrun
      refine hstate.round (fun x hx ↦ hmem x (mem_append_left _ hx)) (hmem row (by simp)).1
        (hmem row (by simp)).2 (fun hdone ↦ ?_) hrun
      exact (nodup_append.1 hnodup).2.2 row hdone row mem_cons_self rfl
  obtain ⟨runs, hruns, hstore₅⟩ := hcomplete.of_writePart
  obtain ⟨reasons, hstore₆⟩ := runs_registerReasons hreasons
  rw [hrows] at hstate
  have hsame (row : FileSummaryRow) (hrow : row ∈ c.store.summaries.rows) :
      c.store.settledAfter projectId project.repoRoot (c.store.projectRows projectId) row =
        c.store.settled projectId project.repoRoot row := settledAfter_projectRows hrow
  refine ⟨rfl, project, rfl, ⟨?_, ?_, ?_, ?_, ?_⟩, ?_, ?_⟩
  · rw [hstore₆, hstore₅]
    exact hstate.summaries.trans (filterMap_congr hsame)
  · rw [hstore₆, hstore₅]
    exact hstate.records
  · rw [hstore₆, hstore₅]
    exact hstate.projects
  · rw [hstore₆, hstore₅]
    exact hstate.summaryIds
  · rw [hstore₆, hstore₅]
    exact hstate.rollbackIds
  · rw [hstore₆, hstore₅]
    exact hstate.runIds
  · intro run hrun hid
    rw [← hstate.runs] at hrun
    have hmem := Table.mem_update_of_pos hruns hrun (decide_eq_true hid)
    have hruns₆ : c₆.store.runs = runs := by
      rw [hstore₆, hstore₅]
    rw [← hruns₆] at hmem
    refine ⟨_, ?_, (Table.find_eq_some_iff ?_).2 ⟨hmem, decide_eq_true ⟨hid, rfl⟩⟩⟩
    · rfl
    · intro r r' hr hr'
      exact decide_eq_true ((of_decide_eq_true hr).1.trans (of_decide_eq_true hr').1.symm)

end Loop

section Whole

variable {c c' : Connection IdentityStore FamiliarError} {projectId : ℤ} {runId : ℕ}
  {repoRoot : String} {store store₁ store' : IdentityStore}

theorem Quiet.of_onRuns
    {f : Table identityRunSchema → Option (Table identityRunSchema)} :
    (onRuns f).Respects Quiet :=
  Respects.of_atomic Atomic.writePart fun _ _ _ hrun ↦ by
    obtain ⟨runs, -, hstore⟩ := hrun.of_writePart
    rw [hstore]
    exact ⟨rfl, rfl, rfl, rfl, le_rfl, id⟩

theorem Quiet.of_insertReconciliationRun : (insertReconciliationRun projectId).Respects Quiet := by
  refine Respects.change fun store runId store' h ↦ ?_
  obtain ⟨runs, -, hstore⟩ := map_eq_some_iff.1 h
  rw [← (Prod.mk.inj hstore).2]
  exact ⟨rfl, rfl, rfl, rfl, Nat.le_succ _, id⟩

theorem Quiet.of_start : (startFileSummaryReconciliation projectId).Respects Quiet :=
  Respects.bind (Respects.of_readOnly ReadOnly.read) fun _ ↦
    Respects.bind (Respects.of_readOnly ReadOnly.ensure) fun _ ↦
      Quiet.of_onRuns.bind fun _ ↦ Quiet.of_insertReconciliationRun

theorem runs_startFileSummaryReconciliation
    (h : (startFileSummaryReconciliation projectId).Runs c runId c') :
    runId = c.store.sequences.runs + 1 ∧ c'.store.sequences.runs = runId ∧
      ∃ run ∈ c'.store.runs.rows, run.id = runId ∧ run.projectId = projectId := by
  obtain ⟨_, c₁, hread, h⟩ := h.of_bind
  obtain ⟨-, hc₁⟩ := hread.of_read
  obtain ⟨-, h⟩ := h.of_ensure_bind
  obtain ⟨_, c₃, hinterrupt, hinsert⟩ := h.of_bind
  obtain ⟨runs, -, hstore⟩ := hinterrupt.of_writePart
  obtain ⟨runs', hrow, hinserted⟩ := map_eq_some_iff.1 hinsert.of_change
  have hid := (Prod.mk.inj hinserted).1
  rw [← (Prod.mk.inj hinserted).2]
  rw [hstore, hc₁] at hid hrow ⊢
  exact ⟨hid.symm, hid, _, (Table.mem_insert hrow).2 (.inr rfl), hid, rfl⟩

theorem Reconciled.of_quiet (hquiet : Quiet store store₁)
    (h : Reconciled projectId runId repoRoot store₁ store') :
    Reconciled projectId runId repoRoot store store' := by
  have houtcome : store₁.outcome projectId repoRoot = store.outcome projectId repoRoot := by
    unfold IdentityStore.outcome IdentityStore.priorReconciliations IdentityStore.ownerOf
    rw [hquiet.records, hquiet.summaries]
  have hsettled : store₁.settled projectId repoRoot = store.settled projectId repoRoot := by
    unfold IdentityStore.settled
    rw [houtcome]
  have hrows : store₁.projectRows projectId = store.projectRows projectId := by
    unfold IdentityStore.projectRows
    rw [hquiet.summaries]
  refine ⟨?_, ?_, h.projects.trans hquiet.projects, h.summaryIds.trans hquiet.summaryIds,
    h.rollbackIds ∘ hquiet.rollbackIds⟩
  · rw [h.summaries, hsettled, hquiet.summaries]
  · obtain ⟨news, hnews, hentries⟩ := h.records
    exact ⟨news, by rw [hnews, hquiet.records], by rw [hentries, hrows, houtcome]⟩

/-- **A successful run.** It settles the rows of the project below the root that is registered,
under the next id, and it is completed. -/
theorem runs_reconcileFileSummaryIdentities {result : FileSummaryReconciliationResult}
    (h : (reconcileFileSummaryIdentities projectId).Runs c result c') :
    result.runId = c.store.sequences.runs + 1 ∧
      ∃ project, c.store.project projectId = some project ∧
      Reconciled projectId (c.store.sequences.runs + 1) project.repoRoot c.store c'.store ∧
      c'.store.sequences.runs = c.store.sequences.runs + 1 ∧
      ∃ run, run.projectId = projectId ∧ c'.store.runs.find (fun row ↦
        row.id = c.store.sequences.runs + 1 ∧ row.status = .completed) = some run := by
  obtain ⟨runId, c₁, hstart, h⟩ := h.of_bind
  have hquiet : Quiet c.store c₁.store := Quiet.of_start.of_runs hstart
  obtain ⟨rfl, hid, run, hrun, hrunId, hrunProject⟩ := runs_startFileSummaryReconciliation hstart
  obtain ⟨c₂, c₃, hc₂, hbody, hc'⟩ := h.of_transactionOr
  obtain ⟨hresult, project, hproject, hreconciled, hsequence, hcompleted⟩ :=
    runs_reconcileProject hbody
  rw [hc₂] at hproject hreconciled hsequence hcompleted
  rw [hc']
  obtain ⟨run', hrun', hfind⟩ := hcompleted run hrun hrunId
  refine ⟨hresult, project, ?_, hreconciled.of_quiet hquiet, hsequence.trans hid, run',
    hrun'.trans hrunProject, hfind⟩
  rw [← hproject, IdentityStore.project, IdentityStore.project, hquiet.projects]

/-- **A run that fails changes no summary and no record.** -/
theorem fails_reconcileFileSummaryIdentities {e : FamiliarError}
    (h : (reconcileFileSummaryIdentities projectId).Fails c e c') : Quiet c.store c'.store := by
  rcases fails_bind h with h | ⟨runId, c₁, hstart, h⟩
  · have hquiet : Quiet c.store ((startFileSummaryReconciliation projectId).run c).2.store :=
      Quiet.of_start c
    rw [h] at hquiet
    exact hquiet
  · exact IsTrans.trans _ _ _ (Quiet.of_start.of_runs hstart)
      (h.of_transactionOr (R := Quiet) Quiet.of_onRuns)

end Whole

end FamiliarAi
