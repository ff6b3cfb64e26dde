import FamiliarAi.Storage.Lifecycle

/-!
# Observation orders

Every operation of the lifecycle **observes**: it adds some observations, under the orders that come
next, to those that are there; it touches the work and the summaries of the files that it observes only;
and it leaves the work of each of them as the latest of its observations asks for. Observing is
transitive, so it describes a whole run as well: the observations of a project are numbered from one on,
in the order of the operations, and the pending work of a file is under the order of its latest
observation.

A rename makes two observations, and so it draws two orders. The work of the new path is under the first
of them, which is the order of the old path.
-/

namespace FamiliarAi

open Relational Option List

/-! ### Observing -/

def ofProject (projectId : ℤ) (rows : List ObservationRow) : List ObservationRow :=
  rows.filter (·.key.projectId = projectId)

def ofKey (key : FileKey) (rows : List ObservationRow) : List ObservationRow :=
  rows.filter (·.key = key)

def ObservationRow.Settles (row : ObservationRow) (work : Option PendingSummaryWork) : Prop :=
  match row.kind with
  | .created | .modified => ∃ pending, work = some pending ∧ pending.observationOrder = row.order
  | .renamedTo => ∃ pending, work = some pending ∧ pending.observationOrder + 1 = row.order
  | .removed | .renamedFrom => ∀ pending, work = some pending → ¬pending.status.IsOpen

/-- No work is under an order that was not drawn yet. -/
def Inventory.WorkBounded (inventory : Inventory) : Prop :=
  ∀ key pending, inventory.work key = some pending →
    pending.observationOrder ≤ inventory.lastOrder key.projectId

/-- The observations are made, under the orders that come next. -/
structure Inventory.Observes (inventory : Inventory) (news : List ObservationRow)
    (inventory' : Inventory) : Prop where
  observations : inventory'.observations.rows = inventory.observations.rows ++ news
  orders : ∀ projectId, (ofProject projectId news).map (·.order) =
    range' (inventory.lastOrder projectId + 1) (ofProject projectId news).length
  lastOrder : ∀ projectId, inventory'.lastOrder projectId =
    inventory.lastOrder projectId + (ofProject projectId news).length
  untouched : ∀ key, ofKey key news = [] →
    inventory'.work key = inventory.work key ∧ inventory'.summary key = inventory.summary key
  settled : ∀ key row, (ofKey key news).getLast? = some row → row.Settles (inventory'.work key)
  kept : ∀ key pending, inventory.work key = some pending →
    ∃ pending', inventory'.work key = some pending' ∧
      (pending'.observationOrder = pending.observationOrder ∨
        inventory.lastOrder key.projectId ≤ pending'.observationOrder)
  bounded : inventory.WorkBounded → inventory'.WorkBounded

namespace Inventory.Observes

variable {inventory inventory₁ inventory' : Inventory} {news news' : List ObservationRow}

protected theorem refl : inventory.Observes [] inventory where
  observations := (append_nil _).symm
  orders _ := rfl
  lastOrder _ := rfl
  untouched _ _ := ⟨rfl, rfl⟩
  settled _ _ h := by cases h
  kept _ pending h := ⟨pending, h, .inl rfl⟩
  bounded := id

protected theorem trans (h : inventory.Observes news inventory₁)
    (h' : inventory₁.Observes news' inventory') : inventory.Observes (news ++ news') inventory' where
  observations := by
    rw [h'.observations, h.observations, append_assoc]
  orders projectId := by
    have horders := h'.orders projectId
    rw [h.lastOrder, Nat.add_right_comm] at horders
    rw [ofProject, filter_append, map_append, length_append, ← range'_append_1]
    exact congrArg₂ (· ++ ·) (h.orders projectId) horders
  lastOrder projectId := by
    rw [h'.lastOrder, h.lastOrder, ofProject, ofProject, ofProject, filter_append,
      length_append, Nat.add_assoc]
  untouched key hkey := by
    rw [ofKey, filter_append] at hkey
    obtain ⟨hnews, hnews'⟩ := append_eq_nil_iff.1 hkey
    obtain ⟨hwork, hsummary⟩ := h.untouched key hnews
    obtain ⟨hwork', hsummary'⟩ := h'.untouched key hnews'
    exact ⟨hwork'.trans hwork, hsummary'.trans hsummary⟩
  settled key row hrow := by
    rw [ofKey, filter_append, getLast?_append] at hrow
    rcases or_eq_some_iff.1 hrow with hlast | ⟨hnone, hlast⟩
    · exact h'.settled key row hlast
    · -- the second part does not observe the file
      rw [(h'.untouched key (getLast?_eq_none_iff.1 hnone)).1]
      exact h.settled key row hlast
  kept key pending hpending := by
    obtain ⟨pending₁, hpending₁, horder⟩ := h.kept key pending hpending
    obtain ⟨pending', hpending', horder'⟩ := h'.kept key pending₁ hpending₁
    have hle : inventory.lastOrder key.projectId ≤ inventory₁.lastOrder key.projectId := by
      rw [h.lastOrder]
      exact Nat.le_add_right _ _
    refine ⟨pending', hpending', ?_⟩
    omega
  bounded := h'.bounded ∘ h.bounded

theorem single {row : ObservationRow}
    (hobservations : inventory'.observations.rows = inventory.observations.rows ++ [row])
    (horder : row.order = inventory.lastOrder row.key.projectId + 1)
    (hlast : ∀ projectId, inventory'.lastOrder projectId =
      if projectId = row.key.projectId then row.order else inventory.lastOrder projectId)
    (huntouched : ∀ key, key ≠ row.key →
      inventory'.work key = inventory.work key ∧ inventory'.summary key = inventory.summary key)
    (hsettled : row.Settles (inventory'.work row.key))
    (hkept : ∀ pending, inventory.work row.key = some pending →
      ∃ pending', inventory'.work row.key = some pending' ∧
        (pending'.observationOrder = pending.observationOrder ∨
          inventory.lastOrder row.key.projectId ≤ pending'.observationOrder))
    (hbounded : ∀ pending', inventory'.work row.key = some pending' →
      (∃ pending, inventory.work row.key = some pending ∧
        pending'.observationOrder = pending.observationOrder) ∨
        pending'.observationOrder ≤ row.order) : inventory.Observes [row] inventory' where
  observations := hobservations
  orders projectId := by
    by_cases hproject : row.key.projectId = projectId
    · rw [ofProject, filter_cons_of_pos (by simpa using hproject), ← hproject]
      exact congrArg ([·]) horder
    · rw [ofProject, filter_cons_of_neg (by simpa using hproject)]
      rfl
  lastOrder projectId := by
    rw [hlast]
    by_cases hproject : row.key.projectId = projectId
    · rw [if_pos hproject.symm, ofProject, filter_cons_of_pos (by simpa using hproject), horder,
        hproject]
      rfl
    · rw [if_neg (Ne.symm hproject), ofProject, filter_cons_of_neg (by simpa using hproject)]
      rfl
  untouched key hkey := by
    refine huntouched key fun heq ↦ ?_
    rw [ofKey, filter_cons_of_pos (by simpa using heq.symm)] at hkey
    cases hkey
  settled key new hnew := by
    have hmem := mem_of_getLast? hnew
    obtain ⟨hmem, hkey⟩ := mem_filter.1 hmem
    obtain rfl := mem_singleton.1 hmem
    rw [← of_decide_eq_true hkey]
    exact hsettled
  kept key pending hpending := by
    by_cases hkey : key = row.key
    · rw [hkey] at hpending ⊢
      exact hkept pending hpending
    · exact ⟨pending, (huntouched key hkey).1.trans hpending, .inl rfl⟩
  bounded h key pending' hpending' := by
    have hle : inventory.lastOrder key.projectId ≤ inventory'.lastOrder key.projectId := by
      rw [hlast]
      split_ifs with hproject
      · rw [hproject, horder]
        exact Nat.le_succ _
      · exact Nat.le_refl _
    by_cases hkey : key = row.key
    · rw [hkey] at hpending' hle ⊢
      rcases hbounded pending' hpending' with ⟨pending, hpending, heq⟩ | hrow
      · rw [heq]
        exact (h row.key pending hpending).trans hle
      · rw [hlast, if_pos rfl]
        exact hrow
    · exact (h key pending' ((huntouched key hkey).1.symm.trans hpending')).trans hle

end Inventory.Observes

/-- Some observations are made. -/
def Inventory.Proceeds (inventory inventory' : Inventory) : Prop :=
  ∃ news, inventory.Observes news inventory'

instance : Std.Refl Inventory.Proceeds :=
  ⟨fun _ ↦ ⟨[], .refl⟩⟩

instance : IsTrans Inventory Inventory.Proceeds := by
  refine ⟨fun _ _ _ h h' ↦ ?_⟩
  obtain ⟨news, hnews⟩ := h
  obtain ⟨news', hnews'⟩ := h'
  exact ⟨news ++ news', hnews.trans hnews'⟩

/-! ### What the statements do -/

section Statements

variable {c c' : Connection Inventory FamiliarError} {key : FileKey} {u : Unit}
  {inventory : Inventory} {order : ℕ}

theorem validateKey_readOnly (key : FileKey) : (validateKey key).ReadOnly :=
  .ofExcept

theorem ensureProjectReady_readOnly (projectId : ℤ) : (ensureProjectReady projectId).ReadOnly :=
  .bind .read fun _ ↦
    .bind .ensure fun _ ↦
      .bind .read fun _ ↦ .ensure

theorem nextOrder_runs {projectId : ℤ} (h : (nextOrder projectId).Runs c order c') :
    order = c.store.lastOrder projectId + 1 ∧
      (∃ orders, c'.store = { c.store with orders }) ∧
      ∀ other, c'.store.lastOrder other =
        if other = projectId then order else c.store.lastOrder other := by
  obtain ⟨_, c₁, hwrite, h⟩ := h.of_bind
  obtain ⟨orders, hupsert, hstore⟩ := hwrite.of_writePart
  obtain ⟨found, c₂, hread, h⟩ := h.of_bind
  obtain ⟨hfound, hstore'⟩ := hread.of_read
  have horders : c₁.store.orders = orders := by rw [hstore]
  rw [horders] at hfound
  rcases found with _ | order'
  · exact absurd h Query.not_runs_fail
  obtain ⟨rfl, rfl⟩ := h.of_pure
  refine ⟨?_, ⟨orders, hstore'.trans hstore⟩, fun other ↦ ?_⟩
  · rw [Table.find_upsert hupsert (fun _ ↦ rfl) (decide_eq_true rfl)] at hfound
    rw [some.inj hfound, Inventory.lastOrder]
    cases c.store.orders.find _ with
    | none => rfl
    | some row => rfl
  · rw [hstore', hstore]
    by_cases hother : other = projectId
    · rw [if_pos hother, Inventory.lastOrder, hother, ← hfound]
      rfl
    · rw [if_neg hother]
      have hsame : orders.find (·.projectId = other) = c.store.orders.find (·.projectId = other) := by
        refine Table.find_upsert_of_ne hupsert (fun _ ↦ rfl) (decide_eq_true rfl) fun row hrow ↦ ?_
        rw [of_decide_eq_true hrow]
        exact decide_eq_false (Ne.symm hother)
      show ((orders.find (·.projectId = other)).map (·.lastOrder)).getD 0 = _
      rw [hsame]
      rfl

theorem preserveAndDelete_runs {reason : RetirementReason} {source : String} {causeId : Option ℕ}
    {related : Option String} {tombstone : Option ℕ}
    (h : (preserveAndDelete key reason source causeId related order).Runs c tombstone c') :
    c'.store = { c.store.entomb key reason source causeId related order with
      summaries := c.store.summaries.delete (·.key = key) } := by
  obtain ⟨_, c₁, hentomb, h⟩ := h.of_bind
  obtain ⟨found, c₂, hread, h⟩ := h.of_bind
  obtain ⟨_, -, hdelete⟩ := h.of_bind_pure
  rw [← some.inj hdelete.of_write, hread.of_read.2, ← some.inj hentomb.of_write]
  have hsummaries :
      (c.store.entomb key reason source causeId related order).summaries = c.store.summaries := by
    rw [Inventory.entomb]
    cases c.store.summary key with
    | none => rfl
    | some row => rfl
  rw [hsummaries]

theorem onPendingWork_runs {f : Table pendingWorkSchema → Option (Table pendingWorkSchema)}
    (h : (onPendingWork f).Runs c u c') : ∃ pendingWork, f c.store.pendingWork = some pendingWork ∧
      c'.store = { c.store with pendingWork } :=
  Query.Runs.of_writePart h

theorem recordObservation_runs {row : ObservationRow} (h : (recordObservation row).Runs c u c') :
    ∃ observations, c.store.observations.insert row = some observations ∧
      c'.store = { c.store with observations } :=
  Query.Runs.of_writePart h

theorem upsertPending_runs {kind : LifecycleChange} {order id : ℕ} {deferred : Bool}
    (h : (upsertPending key kind order deferred).Runs c id c') :
    (∃ pendingWork sequences, c'.store = { c.store with pendingWork, sequences }) ∧
      (∃ pending, c'.store.work key = some pending ∧ pending.observationOrder = order) ∧
      ∀ other, other ≠ key → c'.store.work other = c.store.work other := by
  obtain ⟨_, c₁, hwrite, h⟩ := h.of_bind
  obtain ⟨pendingWork, hupsert, hstore⟩ := map_eq_some_iff.1 hwrite.of_write
  obtain ⟨found, c₂, hread, h⟩ := h.of_bind
  obtain ⟨-, hstore'⟩ := hread.of_read
  rcases found with _ | id'
  · exact absurd h Query.not_runs_fail
  obtain ⟨-, rfl⟩ := h.of_pure
  rw [hstore', ← hstore]
  refine ⟨⟨pendingWork, _, rfl⟩, ?_, fun other hother ↦ ?_⟩
  · have hlooked := Table.find_upsert hupsert (fun _ ↦ rfl) (decide_eq_true rfl)
    refine ⟨_, hlooked, ?_⟩
    cases c.store.pendingWork.find _ with
    | none => rfl
    | some pending => rfl
  · refine Table.find_upsert_of_ne hupsert (fun _ ↦ rfl) (decide_eq_true rfl) fun row hrow ↦ ?_
    rw [of_decide_eq_true hrow]
    exact decide_eq_false (Ne.symm hother)

theorem work_update {pendingWork : Table pendingWorkSchema} {p : PendingSummaryWork → Bool}
    {f : PendingSummaryWork → PendingSummaryWork}
    (h : inventory.pendingWork.update p f = some pendingWork) (hf : ∀ row, (f row).key = row.key)
    (key : FileKey) : Inventory.work { inventory with pendingWork } key =
      (inventory.work key).map fun row ↦ if p row then f row else row := by
  refine Table.find_update h fun row ↦ ?_
  rw [hf]

theorem summary_delete (key other : FileKey) :
    Inventory.summary { inventory with summaries := inventory.summaries.delete (·.key = key) } other =
      if other = key then none else inventory.summary other := by
  show List.find? _ (List.filter _ _) = _
  rw [find?_filter]
  split_ifs with hother
  · refine find?_eq_none.2 fun row _ ↦ ?_
    rw [hother]
    simp
  · refine congrArg (List.find? · inventory.summaries.rows) (funext fun row ↦ ?_)
    by_cases hrow : row.key = other
    · have hne : row.key ≠ key := hrow ▸ hother
      simp [hrow, hother]
    · simp [hrow]

end Statements

/-! ### What the operations observe -/

section Operations

variable {c c' : Connection Inventory FamiliarError} {key : FileKey} {source : String}
  {deferred : Bool} {outcome : LifecycleOutcome} {reason : RetirementReason} {causeId : Option ℕ}

theorem preserveAndDelete_frame {related : Option String} {order : ℕ} {tombstone : Option ℕ}
    (h : (preserveAndDelete key reason source causeId related order).Runs c tombstone c') :
    c'.store.observations = c.store.observations ∧ c'.store.orders = c.store.orders ∧
      c'.store.pendingWork = c.store.pendingWork ∧
      ∀ other, other ≠ key → c'.store.summary other = c.store.summary other := by
  have hstore := preserveAndDelete_runs h
  have hentomb : (c.store.entomb key reason source causeId related order).observations =
        c.store.observations ∧
      (c.store.entomb key reason source causeId related order).orders = c.store.orders ∧
      (c.store.entomb key reason source causeId related order).pendingWork =
        c.store.pendingWork := by
    rw [Inventory.entomb]
    cases c.store.summary key with
    | none => exact ⟨rfl, rfl, rfl⟩
    | some row => exact ⟨rfl, rfl, rfl⟩
  rw [hstore]
  refine ⟨hentomb.1, hentomb.2.1, hentomb.2.2, fun other hother ↦ ?_⟩
  have hdelete := @summary_delete c.store key other
  rw [if_neg hother] at hdelete
  exact hdelete

/-- **A change** makes one observation, and the work of the file is pending under its order. -/
theorem observeChange_runs {change : LifecycleChange}
    (h : (observeChange key change source deferred).Runs c outcome c') :
    c.store.Observes
      [⟨key, outcome.observationOrder, change.observed, source, none, "pending"⟩] c'.store := by
  obtain ⟨_, c₁, hvalidate, h⟩ := h.of_bind
  have hc₁ := (validateKey_readOnly key).store_eq hvalidate
  obtain ⟨c₂, c₃, hbegin, h, hend⟩ := h.of_transaction
  obtain ⟨_, c₄, hready, h⟩ := h.of_bind
  have hc₄ := (ensureProjectReady_readOnly key.projectId).store_eq hready
  obtain ⟨order, c₅, horder, h⟩ := h.of_bind
  obtain ⟨tombstone, c₆, hpreserve, h⟩ := h.of_bind
  obtain ⟨id, c₇, hpending, h⟩ := h.of_bind
  obtain ⟨_, rfl, hrecord⟩ := h.of_bind_pure
  obtain ⟨hnext, ⟨orders, hc₅⟩, hlast⟩ := nextOrder_runs horder
  rw [hc₄, hbegin, hc₁] at hnext hc₅ hlast
  obtain ⟨hobservations, horders, hwork, hsummary⟩ :
      c₆.store.observations = c₅.store.observations ∧ c₆.store.orders = c₅.store.orders ∧
        c₆.store.pendingWork = c₅.store.pendingWork ∧
        ∀ other, other ≠ key → c₆.store.summary other = c₅.store.summary other := by
    split_ifs at hpreserve
    · exact preserveAndDelete_frame hpreserve
    · obtain ⟨-, rfl⟩ := hpreserve.of_pure
      exact ⟨rfl, rfl, rfl, fun _ _ ↦ rfl⟩
  obtain ⟨⟨pendingWork, sequences, hc₇⟩, ⟨pending, hfound, hpendingOrder⟩, hothers⟩ :=
    upsertPending_runs hpending
  obtain ⟨observations, hinsert, hc₈⟩ := recordObservation_runs hrecord
  have hlast' (projectId : ℤ) : c'.store.lastOrder projectId = c₅.store.lastOrder projectId := by
    rw [hend, hc₈, hc₇, Inventory.lastOrder, Inventory.lastOrder]
    show ((c₆.store.orders.find _).map _).getD 0 = _
    rw [horders]
  have hwork' (other : FileKey) : c'.store.work other = c₇.store.work other := by
    rw [hend, hc₈]
    rfl
  refine .single ?_ hnext (fun projectId ↦ ?_) (fun other hother ↦ ⟨?_, ?_⟩) ?_ ?_ ?_
  · rw [hend, hc₈]
    show observations.rows = _
    rw [Table.rows_insert hinsert, hc₇, hobservations, hc₅]
  · rw [hlast', hlast]
  · rw [hwork', hothers other hother, Inventory.work, Inventory.work, hwork, hc₅]
  · rw [hend, hc₈, hc₇]
    show c₆.store.summary other = _
    rw [hsummary other hother, hc₅]
    rfl
  · rw [hwork', hfound]
    cases change with
    | create => exact ⟨pending, rfl, hpendingOrder⟩
    | modify => exact ⟨pending, rfl, hpendingOrder⟩
  · rintro pending₀ -
    refine ⟨pending, (hwork' key).trans hfound, .inr ?_⟩
    show c.store.lastOrder key.projectId ≤ pending.observationOrder
    omega
  · intro pending' hpending'
    rw [hwork', hfound] at hpending'
    obtain rfl := some.inj hpending'
    exact .inr (Nat.le_of_eq hpendingOrder)

/-- **A retirement** makes one observation, and the work of the file is not open after it. -/
theorem retireAbsent_runs (h : (retireAbsent key reason source causeId).Runs c outcome c') :
    c.store.Observes [⟨key, outcome.observationOrder, .removed, source, none, "retired"⟩]
      c'.store := by
  obtain ⟨_, c₁, hvalidate, h⟩ := h.of_bind
  have hc₁ := (validateKey_readOnly key).store_eq hvalidate
  obtain ⟨c₂, c₃, hbegin, h, hend⟩ := h.of_transaction
  obtain ⟨_, c₄, hready, h⟩ := h.of_bind
  have hc₄ := (ensureProjectReady_readOnly key.projectId).store_eq hready
  obtain ⟨order, c₅, horder, h⟩ := h.of_bind
  obtain ⟨tombstone, c₆, hpreserve, h⟩ := h.of_bind
  obtain ⟨_, c₇, hsupersede, h⟩ := h.of_bind
  obtain ⟨_, rfl, hrecord⟩ := h.of_bind_pure
  obtain ⟨hnext, ⟨orders, hc₅⟩, hlast⟩ := nextOrder_runs horder
  rw [hc₄, hbegin, hc₁] at hnext hc₅ hlast
  obtain ⟨hobservations, horders, hwork, hsummary⟩ := preserveAndDelete_frame hpreserve
  obtain ⟨pendingWork, hupdate, hc₇⟩ := onPendingWork_runs hsupersede
  obtain ⟨observations, hinsert, hc₈⟩ := recordObservation_runs hrecord
  have hsuperseded (other : FileKey) : c'.store.work other = (c.store.work other).map fun row ↦
      if row.key = key ∧ row.status.IsOpen then { row with status := .superseded } else row := by
    rw [hwork, hc₅] at hupdate
    rw [hend, hc₈, hc₇]
    refine (Table.find_update hupdate fun row ↦ rfl).trans (congrArg (Option.map · _) ?_)
    funext row
    simp only [decide_eq_true_eq]
  refine .single ?_ hnext (fun projectId ↦ ?_) (fun other hother ↦ ⟨?_, ?_⟩) ?_ ?_ ?_
  · rw [hend, hc₈]
    show observations.rows = _
    rw [Table.rows_insert hinsert, hc₇, hobservations, hc₅]
  · rw [hend, hc₈, hc₇, ← hlast, Inventory.lastOrder, Inventory.lastOrder, ← horders]
  · rw [hsuperseded]
    rcases hfound : c.store.work other with _ | row
    · rfl
    · have hrow : row.key = other := of_decide_eq_true (Table.find_some hfound).2
      rw [map_some, if_neg fun hopen ↦ hother (hrow.symm.trans hopen.1)]
  · rw [hend, hc₈, hc₇]
    show c₆.store.summary other = _
    rw [hsummary other hother, hc₅]
    rfl
  · intro pending hpending
    rw [hsuperseded] at hpending
    obtain ⟨row, hfound, rfl⟩ := map_eq_some_iff.1 hpending
    have hrow : row.key = key := of_decide_eq_true (Table.find_some hfound).2
    split_ifs with hopen
    · show ¬PendingStatus.IsOpen .superseded
      decide
    · exact fun hstatus ↦ hopen ⟨hrow, hstatus⟩
  · intro pending hpending
    rw [hsuperseded, hpending, map_some]
    refine ⟨_, rfl, .inl ?_⟩
    split_ifs
    · rfl
    · rfl
  · intro pending' hpending'
    rw [hsuperseded] at hpending'
    obtain ⟨row, hfound, rfl⟩ := map_eq_some_iff.1 hpending'
    refine .inl ⟨row, hfound, ?_⟩
    split_ifs
    · rfl
    · rfl

/-- **A rename** makes two observations. The work of the old path is not open after it, and that of the
new path is pending under the first of the two orders. -/
theorem observeExactRename_runs {projectId : ℤ} {oldPath newPath : String}
    (h : (observeExactRename projectId oldPath newPath source deferred).Runs c outcome c') :
    oldPath ≠ newPath ∧ c.store.Observes
      [⟨⟨projectId, oldPath⟩, outcome.observationOrder, .renamedFrom, source, some newPath,
          "pending"⟩,
        ⟨⟨projectId, newPath⟩, outcome.observationOrder + 1, .renamedTo, source, some oldPath,
          "pending"⟩] c'.store := by
  obtain ⟨_, c₁, hvalidate, h⟩ := h.of_bind
  have hc₁ := (validateKey_readOnly ⟨projectId, oldPath⟩).store_eq hvalidate
  obtain ⟨_, c₂, hvalidate, h⟩ := h.of_bind
  have hc₂ := (validateKey_readOnly ⟨projectId, newPath⟩).store_eq hvalidate
  obtain ⟨hdiffer, h⟩ := h.of_ensure_bind
  obtain ⟨c₄, c₅, hbegin, h, hend⟩ := h.of_transaction
  obtain ⟨_, c₆, hready, h⟩ := h.of_bind
  have hc₆ := (ensureProjectReady_readOnly projectId).store_eq hready
  obtain ⟨order, c₇, horder, h⟩ := h.of_bind
  obtain ⟨count, c₈, hread, h⟩ := h.of_bind
  obtain ⟨-, hc₈⟩ := hread.of_read
  obtain ⟨-, h⟩ := h.of_ensure_bind
  obtain ⟨tombstone, c₁₀, hpreserve, h⟩ := h.of_bind
  obtain ⟨_, c₁₁, hsupersede, h⟩ := h.of_bind
  obtain ⟨id, c₁₂, hpending, h⟩ := h.of_bind
  obtain ⟨_, c₁₃, hfrom, h⟩ := h.of_bind
  obtain ⟨arrival, c₁₄, harrival, h⟩ := h.of_bind
  obtain ⟨_, rfl, hto⟩ := h.of_bind_pure
  obtain ⟨hnext, ⟨orders, hc₇⟩, hlast⟩ := nextOrder_runs horder
  rw [hc₆, hbegin, hc₂, hc₁] at hnext hc₇ hlast
  obtain ⟨hobservations, horders, hwork, hsummary⟩ := preserveAndDelete_frame hpreserve
  rw [hc₈] at hobservations horders hwork hsummary
  obtain ⟨pendingWork, hupdate, hc₁₁⟩ := onPendingWork_runs hsupersede
  obtain ⟨⟨pendingWork', sequences, hc₁₂⟩, ⟨pending, hfound, hpendingOrder⟩, hothers⟩ :=
    upsertPending_runs hpending
  obtain ⟨observations, hinsert, hc₁₃⟩ := recordObservation_runs hfrom
  obtain ⟨hnext', ⟨orders', hc₁₄⟩, hlast'⟩ := nextOrder_runs harrival
  obtain ⟨observations', hinsert', hc₁₅⟩ := recordObservation_runs hto
  -- as if the old path had been observed first
  let departed : Inventory :=
    { c.store with orders, observations, pendingWork, summaries := c₁₀.store.summaries }
  have hdeparted (other : FileKey) : departed.work other = (c.store.work other).map fun row ↦
      if row.key = ⟨projectId, oldPath⟩ then { row with status := .superseded } else row := by
    rw [hwork, hc₇] at hupdate
    refine (Table.find_update hupdate fun row ↦ rfl).trans (congrArg (Option.map · _) ?_)
    funext row
    simp only [decide_eq_true_eq]
  have hlastDeparted (other : ℤ) : departed.lastOrder other = c₇.store.lastOrder other := by
    rw [hc₇]
    rfl
  have hfrom : c.store.Observes [⟨⟨projectId, oldPath⟩, order, .renamedFrom, source, some newPath,
      "pending"⟩] departed := by
    refine .single ?_ hnext (fun other ↦ ?_) (fun other hother ↦ ⟨?_, ?_⟩) ?_ ?_ ?_
    · show observations.rows = _
      rw [Table.rows_insert hinsert, hc₁₂, hc₁₁, hobservations, hc₇]
    · rw [hlastDeparted, hlast]
    · rw [hdeparted]
      rcases hfound : c.store.work other with _ | row
      · rfl
      · have hrow : row.key = other := of_decide_eq_true (Table.find_some hfound).2
        rw [map_some, if_neg fun hold ↦ hother (hrow.symm.trans hold)]
    · show c₁₀.store.summary other = _
      rw [hsummary other hother, hc₇]
      rfl
    · intro pending hpending
      rw [hdeparted] at hpending
      obtain ⟨row, hfound, rfl⟩ := map_eq_some_iff.1 hpending
      have hrow : row.key = ⟨projectId, oldPath⟩ := of_decide_eq_true (Table.find_some hfound).2
      rw [if_pos hrow]
      show ¬PendingStatus.IsOpen .superseded
      decide
    · intro pending hpending
      rw [hdeparted, hpending, map_some]
      refine ⟨_, rfl, .inl ?_⟩
      split_ifs
      · rfl
      · rfl
    · intro pending' hpending'
      rw [hdeparted] at hpending'
      obtain ⟨row, hfound, rfl⟩ := map_eq_some_iff.1 hpending'
      refine .inl ⟨row, hfound, ?_⟩
      split_ifs
      · rfl
      · rfl
  have hcounted (other : ℤ) : c₁₃.store.lastOrder other = departed.lastOrder other := by
    rw [hc₁₃, hc₁₂, hc₁₁, hlastDeparted, Inventory.lastOrder, Inventory.lastOrder, ← horders]
  have hdrawn : departed.lastOrder projectId = order := by
    rw [hlastDeparted, hlast, if_pos rfl]
  have harrived : arrival = order + 1 := by
    rw [hnext', hcounted, hdrawn]
  have hwork' (other : FileKey) : c'.store.work other = c₁₂.store.work other := by
    rw [hend, hc₁₅, hc₁₄, hc₁₃]
    rfl
  have hto : departed.Observes [⟨⟨projectId, newPath⟩, order + 1, .renamedTo, source, some oldPath,
      "pending"⟩] c'.store := by
    refine .single ?_ ?_ (fun other ↦ ?_) (fun other hother ↦ ⟨?_, ?_⟩) ?_ ?_ ?_
    · rw [hend, hc₁₅]
      show observations'.rows = _
      rw [Table.rows_insert hinsert', hc₁₄, hc₁₃, harrived]
    · show order + 1 = departed.lastOrder projectId + 1
      rw [hdrawn]
    · have hlastEnd : c'.store.lastOrder other = c₁₄.store.lastOrder other := by
        rw [hend, hc₁₅]
        rfl
      rw [hlastEnd, hlast', harrived, hcounted]
    · rw [hwork', hothers other hother, hc₁₁]
      rfl
    · rw [hend, hc₁₅, hc₁₄, hc₁₃, hc₁₂, hc₁₁]
      rfl
    · exact ⟨pending, (hwork' _).trans hfound, congrArg (· + 1) hpendingOrder⟩
    · rintro pending₀ -
      refine ⟨pending, (hwork' _).trans hfound, .inr ?_⟩
      show departed.lastOrder projectId ≤ _
      rw [hdrawn, hpendingOrder]
    · intro pending' hpending'
      rw [hwork', hfound] at hpending'
      obtain rfl := some.inj hpending'
      refine .inr ?_
      show pending.observationOrder ≤ order + 1
      omega
  exact ⟨hdiffer, hfrom.trans hto⟩

end Operations

section Runs

variable {inventory inventory' : Inventory}

theorem Inventory.Observes.of_same
    (hobservations : inventory'.observations = inventory.observations)
    (horders : inventory'.orders = inventory.orders)
    (hwork : inventory'.pendingWork = inventory.pendingWork)
    (hsummaries : inventory'.summaries = inventory.summaries) :
    inventory.Observes [] inventory' := by
  have hwork' (key : FileKey) : inventory'.work key = inventory.work key := by
    rw [Inventory.work, Inventory.work, hwork]
  have hlast (projectId : ℤ) : inventory'.lastOrder projectId = inventory.lastOrder projectId := by
    rw [Inventory.lastOrder, Inventory.lastOrder, horders]
  refine ⟨?_, fun _ ↦ rfl, hlast, fun key _ ↦ ⟨hwork' key, ?_⟩, fun _ _ ↦ nofun,
    fun key pending h ↦ ⟨pending, (hwork' key).trans h, .inl rfl⟩, fun h key pending hpending ↦ ?_⟩
  · rw [hobservations, append_nil]
  · rw [Inventory.summary, Inventory.summary, hsummaries]
  · rw [hlast]
    exact h key pending ((hwork' key).symm.trans hpending)

theorem observeChange_atomic (key : FileKey) (change : LifecycleChange) (source : String)
    (deferred : Bool) : (observeChange key change source deferred).Atomic :=
  .bind (validateKey_readOnly key) fun _ ↦ .transaction

theorem retireAbsent_atomic (key : FileKey) (reason : RetirementReason) (source : String)
    (causeId : Option ℕ) : (retireAbsent key reason source causeId).Atomic :=
  .bind (validateKey_readOnly key) fun _ ↦ .transaction

theorem observeExactRename_atomic (projectId : ℤ) (oldPath newPath source : String)
    (deferred : Bool) : (observeExactRename projectId oldPath newPath source deferred).Atomic :=
  .bind (validateKey_readOnly _) fun _ ↦
    .bind (validateKey_readOnly _) fun _ ↦
      .bind .ensure fun _ ↦ .transaction

theorem respects_observeChange (key : FileKey) (change : LifecycleChange) (source : String)
    (deferred : Bool) : (observeChange key change source deferred).Respects Inventory.Proceeds :=
  .of_atomic (observeChange_atomic key change source deferred) fun _ _ _ h ↦
    ⟨_, observeChange_runs h⟩

theorem respects_retireAbsent (key : FileKey) (reason : RetirementReason) (source : String)
    (causeId : Option ℕ) :
    (retireAbsent key reason source causeId).Respects Inventory.Proceeds :=
  .of_atomic (retireAbsent_atomic key reason source causeId) fun _ _ _ h ↦
    ⟨_, retireAbsent_runs h⟩

theorem respects_observeExactRename (projectId : ℤ) (oldPath newPath source : String)
    (deferred : Bool) :
    (observeExactRename projectId oldPath newPath source deferred).Respects Inventory.Proceeds :=
  .of_atomic (observeExactRename_atomic projectId oldPath newPath source deferred) fun _ _ _ h ↦
    ⟨_, (observeExactRename_runs h).2⟩

/-! ### Scans -/

/-- Nothing is written but the tables of the scans. -/
structure Inventory.SameFiles (inventory inventory' : Inventory) : Prop where
  observations : inventory'.observations = inventory.observations
  orders : inventory'.orders = inventory.orders
  pendingWork : inventory'.pendingWork = inventory.pendingWork
  summaries : inventory'.summaries = inventory.summaries
  tombstones : inventory'.tombstones = inventory.tombstones
  summarySequence : inventory'.sequences.summaries = inventory.sequences.summaries
  tombstoneSequence : inventory'.sequences.tombstones = inventory.sequences.tombstones

instance : Std.Refl Inventory.SameFiles :=
  ⟨fun _ ↦ ⟨rfl, rfl, rfl, rfl, rfl, rfl, rfl⟩⟩

instance : IsTrans Inventory Inventory.SameFiles :=
  ⟨fun _ _ _ h h' ↦ ⟨h'.observations.trans h.observations, h'.orders.trans h.orders,
    h'.pendingWork.trans h.pendingWork, h'.summaries.trans h.summaries,
    h'.tombstones.trans h.tombstones, h'.summarySequence.trans h.summarySequence,
    h'.tombstoneSequence.trans h.tombstoneSequence⟩⟩

theorem Inventory.SameFiles.proceeds (h : inventory.SameFiles inventory') :
    inventory.Proceeds inventory' :=
  ⟨[], .of_same h.observations h.orders h.pendingWork h.summaries⟩

theorem sameFiles_onScanRuns (f : Table scanRunSchema → Option (Table scanRunSchema)) :
    (onScanRuns f).Respects Inventory.SameFiles :=
  .changePart fun _ _ ↦ ⟨rfl, rfl, rfl, rfl, rfl, rfl, rfl⟩

theorem sameFiles_startRepositoryScan (projectId : ℤ) (root : String) :
    (startRepositoryScan projectId root).Respects Inventory.SameFiles := by
  refine Query.Carries.transaction (Query.Carries.readOnly_bind
    (ensureProjectReady_readOnly projectId) fun _ ↦
      .readOnly_bind .read fun found ↦ ?_)
  rcases found with _ | registered
  · exact Query.Carries.of_readOnly Query.ReadOnly.fail
  · refine .readOnly_bind .ensure fun _ ↦ ?_
    refine .bind (sameFiles_onScanRuns _).carries fun _ ↦ ?_
    refine .readOnly_bind .read fun boundary ↦ ?_
    refine Query.Carries.bind (Query.Respects.carries ?_) fun _ ↦
      .of_readOnly .pure
    refine Query.Respects.change fun inventory id inventory' h ↦ ?_
    obtain ⟨scanRuns, -, hwritten⟩ := map_eq_some_iff.1 h
    rw [← (Prod.mk.inj hwritten).2]
    exact ⟨rfl, rfl, rfl, rfl, rfl, rfl, rfl⟩

theorem sameFiles_stageScanEntry (run : ScanRun) (path classification : String)
    (detail : Option String) :
    (stageScanEntry run path classification detail).Respects Inventory.SameFiles := by
  refine .bind (.of_readOnly (validateKey_readOnly _)) fun _ ↦ ?_
  rcases ScanClassification.parse classification with _ | classification
  · exact .of_readOnly .fail
  refine .bind ?_ fun _ ↦ .when (sameFiles_onScanRuns _)
  refine .change fun inventory n inventory' h ↦ ?_
  split_ifs at h
  split at h
  · rw [← (Prod.mk.inj (some.inj h)).2]
    exact ⟨rfl, rfl, rfl, rfl, rfl, rfl, rfl⟩
  · rw [← (Prod.mk.inj (some.inj h)).2]
    exact Std.Refl.refl _

theorem respects_onScanRuns (f : Table scanRunSchema → Option (Table scanRunSchema)) :
    (onScanRuns f).Respects Inventory.Proceeds :=
  (sameFiles_onScanRuns f).mono fun _ _ h ↦ h.proceeds

theorem respects_reconcileStaged (run : ScanRun) (path : String) :
    (reconcileStaged run path).Respects Inventory.Proceeds := by
  refine .bind (.of_readOnly .read) fun later ↦ ?_
  split_ifs
  · exact respects_onScanRuns _
  · refine .bind (.of_readOnly .read) fun active ↦ ?_
    split_ifs
    · exact respects_onScanRuns _
    · exact .bind (respects_observeChange _ _ _ _) fun _ ↦ respects_onScanRuns _

theorem respects_reconcileActive (run : ScanRun) (staged : List String) (host : String → HostEntry)
    (path : String) : (reconcileActive run staged host path).Respects Inventory.Proceeds := by
  rw [reconcileActive]
  split_ifs
  · exact .of_readOnly .pure
  · refine .bind (.of_readOnly .read) fun later ↦ ?_
    split_ifs
    · exact .of_readOnly .pure
    · cases host path with
      | absent => exact .bind (respects_retireAbsent _ _ _ _) fun _ ↦ respects_onScanRuns _
      | notFile => exact .bind (respects_retireAbsent _ _ _ _) fun _ ↦ respects_onScanRuns _
      | file => exact .of_readOnly .pure
      | error message =>
        exact .bind (respects_onScanRuns _) fun _ ↦ .of_readOnly .fail

theorem respects_reconcileRepositoryScan (run : ScanRun) (host : String → HostEntry) :
    (reconcileRepositoryScan run host).Respects Inventory.Proceeds := by
  refine .bind (.of_readOnly .read) fun state ↦ ?_
  refine .bind (.of_readOnly .ensure) fun _ ↦ ?_
  refine .bind (.of_readOnly .read) fun staged ↦ ?_
  refine .bind (.forEach (respects_reconcileStaged run) staged) fun _ ↦ ?_
  refine .bind (.of_readOnly .read) fun active ↦ ?_
  refine .bind (.forEach (respects_reconcileActive run staged host) active) fun _ ↦ ?_
  exact respects_onScanRuns _

theorem respects_lifecycleCall (call : LifecycleCall) :
    call.query.Respects Inventory.Proceeds := by
  cases call with
  | observeChange key change source deferred =>
    exact (respects_observeChange key change source deferred).bind fun _ ↦ .of_readOnly .pure
  | retireAbsent key reason source causeId =>
    exact (respects_retireAbsent key reason source causeId).bind fun _ ↦ .of_readOnly .pure
  | observeExactRename projectId oldPath newPath source deferred =>
    exact (respects_observeExactRename projectId oldPath newPath source deferred).bind fun _ ↦
      .of_readOnly .pure
  | startRepositoryScan projectId root =>
    exact ((sameFiles_startRepositoryScan projectId root).mono fun _ _ h ↦ h.proceeds).bind fun _ ↦
      .of_readOnly .pure
  | stageScanEntry run path classification detail =>
    exact ((sameFiles_stageScanEntry run path classification detail).mono fun _ _ h ↦
      h.proceeds).bind fun _ ↦ .of_readOnly .pure
  | failRepositoryScan runId =>
    exact (respects_onScanRuns _).bind fun _ ↦ .of_readOnly .pure
  | markScanEnumerationComplete runId =>
    exact (respects_onScanRuns _).bind fun _ ↦ .of_readOnly .pure
  | reconcileRepositoryScan run host =>
    exact (respects_reconcileRepositoryScan run host).bind fun _ ↦ .of_readOnly .pure

theorem lifecycleRun_proceeds (inventory : Inventory) (steps : List LifecycleStep) :
    inventory.Proceeds (inventory.lifecycleRun steps) := by
  induction steps generalizing inventory with
  | nil => exact Std.Refl.refl _
  | cons step steps ih =>
    refine IsTrans.trans _ _ _ ?_ (ih (inventory.lifecycleStep step))
    exact respects_lifecycleCall step.call ⟨inventory, step.faults⟩

theorem le_of_latest {rows : List ObservationRow} {key : FileKey} {row other : ObservationRow}
    (hsorted : ((ofProject key.projectId rows).map (·.order)).Pairwise (· < ·))
    (hlatest : (ofKey key rows).getLast? = some row) (hother : other ∈ ofKey key rows) :
    other.order ≤ row.order := by
  have hsub : (ofKey key rows).Sublist (ofProject key.projectId rows) := by
    have hfilter : ofKey key rows = (ofProject key.projectId rows).filter (·.key = key) := by
      rw [ofKey, ofProject, List.filter_filter]
      refine filter_congr fun row _ ↦ ?_
      by_cases hrow : row.key = key
      · simp [hrow]
      · simp [hrow]
    rw [hfilter]
    exact filter_sublist
  have hkey : ((ofKey key rows).map (·.order)).Pairwise (· < ·) :=
    hsorted.sublist (hsub.map (·.order))
  obtain ⟨before, hbefore⟩ := getLast?_eq_some_iff.1 hlatest
  rw [hbefore, map_append, pairwise_append] at hkey
  rw [hbefore] at hother
  rcases mem_append.1 hother with hold | hlast
  · exact Nat.le_of_lt (hkey.2.2 _ (mem_map_of_mem hold) _ mem_cons_self)
  · rw [mem_singleton.1 hlast]

/-- **The orders of the observations.** Over any sequence of calls, with engine faults at any statement:
the observations of each project are numbered from one on in the order in which they were made, and what
later calls observe comes after them. The pending work of a file is under the order of the latest
observation of the file if and only if that is not the arrival of a rename. -/
theorem observations_ordered (projects : List RegisteredProjectRow)
    (legacyIdentities : List LegacyIdentityRow) (steps : List LifecycleStep) :
    (∀ projectId, ∃ n, (ofProject projectId
        ((Inventory.initial projects legacyIdentities).lifecycleRun steps).observations.rows).map
          (·.order) = range' 1 n) ∧
      (∀ later, ((Inventory.initial projects legacyIdentities).lifecycleRun steps).observations.rows <+:
        (((Inventory.initial projects legacyIdentities).lifecycleRun steps).lifecycleRun
          later).observations.rows) ∧
      ∀ key pending,
        ((Inventory.initial projects legacyIdentities).lifecycleRun steps).work key = some pending →
        pending.status.IsOpen →
        ∃ row, (ofKey key
            ((Inventory.initial projects legacyIdentities).lifecycleRun
              steps).observations.rows).getLast? = some row ∧
          (∀ other ∈ ofKey key
            ((Inventory.initial projects legacyIdentities).lifecycleRun steps).observations.rows,
              other.order ≤ row.order) ∧
          (pending.observationOrder = row.order ↔ row.kind ≠ .renamedTo) := by
  obtain ⟨news, hobserves⟩ :=
    lifecycleRun_proceeds (Inventory.initial projects legacyIdentities) steps
  have hrows : ((Inventory.initial projects legacyIdentities).lifecycleRun steps).observations.rows =
      news := hobserves.observations
  rw [hrows]
  refine ⟨fun projectId ↦ ⟨_, hobserves.orders projectId⟩, fun later ↦ ?_,
    fun key pending hpending hopen ↦ ?_⟩
  · obtain ⟨news', hlater⟩ := lifecycleRun_proceeds
      ((Inventory.initial projects legacyIdentities).lifecycleRun steps) later
    exact ⟨news', by rw [hlater.observations, hrows]⟩
  · rcases hlatest : (ofKey key news).getLast? with _ | row
    · -- the file was never observed, so there is no work for it
      obtain ⟨hwork, -⟩ := hobserves.untouched key (getLast?_eq_none_iff.1 hlatest)
      rw [hwork] at hpending
      cases hpending
    have hsorted : ((ofProject key.projectId news).map (·.order)).Pairwise (· < ·) := by
      rw [hobserves.orders]
      exact pairwise_lt_range'
    refine ⟨row, rfl, fun other hother ↦ le_of_latest hsorted hlatest hother, ?_⟩
    have hsettled := hobserves.settled key row hlatest
    rw [hpending, ObservationRow.Settles] at hsettled
    cases hkind : row.kind with
    | created =>
      rw [hkind] at hsettled
      obtain ⟨_, heq, horder⟩ := hsettled
      obtain rfl := some.inj heq
      exact ⟨fun _ ↦ nofun, fun _ ↦ horder⟩
    | modified =>
      rw [hkind] at hsettled
      obtain ⟨_, heq, horder⟩ := hsettled
      obtain rfl := some.inj heq
      exact ⟨fun _ ↦ nofun, fun _ ↦ horder⟩
    | removed =>
      rw [hkind] at hsettled
      exact absurd hopen (hsettled pending rfl)
    | renamedFrom =>
      rw [hkind] at hsettled
      exact absurd hopen (hsettled pending rfl)
    | renamedTo =>
      rw [hkind] at hsettled
      obtain ⟨_, heq, horder⟩ := hsettled
      obtain rfl := some.inj heq
      refine ⟨fun heq ↦ ?_, fun hne ↦ absurd rfl hne⟩
      omega

def renamedOnce : List LifecycleStep :=
  [⟨.observeExactRename 1 "a.rs" "b.rs" "watcher" false, []⟩]

theorem observations_renamedOnce :
    (((Inventory.initial [⟨1, "/repo", true⟩] []).lifecycleRun renamedOnce).work ⟨1, "b.rs"⟩).map
        (fun pending ↦ (pending.status, pending.observationOrder)) = some (.pending, 1) ∧
      ((Inventory.initial [⟨1, "/repo", true⟩] []).lifecycleRun renamedOnce).observations.rows.map
        (fun row ↦ (row.key.path, row.order)) = [("a.rs", 1), ("b.rs", 2)] := by
  decide +kernel

end Runs

end FamiliarAi
