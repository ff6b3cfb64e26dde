import FamiliarAi.Storage.Observations

/-!
# Summary workers

A worker takes work that is pending, is busy for a long time and commits a summary later. In between the
file may be observed again. The commit asks for the work that is pending then, whatever it is: it takes
the row with the greatest order of the file, and a file has no more than one row. So it completes work
that is newer, replaces the summary of newer work and brings a retired file back.

A commit is **current** if the file was not observed since the work was taken. In every run, a current
commit leaves what is newer alone.
-/

namespace FamiliarAi

open Relational List Option

/-! ### Workers -/

/-- Work that a worker has taken, with the order of the last observation at that time. -/
structure TakenWork where
  work : PendingSummaryWork
  asOf : ℕ
  deriving DecidableEq

/-- The inventory with its workers. -/
structure Workshop where
  inventory : Inventory
  taken : List TakenWork
  /-- The order of the work that the summary of a file was last committed for. -/
  origins : FileKey → Option ℕ

namespace Workshop

/-- The workshop before anything happens. -/
def initial (projects : List RegisteredProjectRow) (legacyIdentities : List LegacyIdentityRow) :
    Workshop :=
  ⟨.initial projects legacyIdentities, [], fun _ ↦ none⟩

/-- What happens in a workshop. Any part of the lifecycle may come between the steps of a worker. -/
inductive Step
  | lifecycle (step : LifecycleStep)
  | take (key : FileKey) (limit : ℕ)
  | commit (index : ℕ) (value : NewFileSummary) (now : String) (faults : List (Option FamiliarError))
  | complete (key : FileKey) (faults : List (Option FamiliarError))
  | fail (key : FileKey) (faults : List (Option FamiliarError))

variable (workshop : Workshop)

def commit (work : TakenWork) (value : NewFileSummary) (now : String)
    (faults : List (Option FamiliarError)) : Workshop :=
  match (commitSummaryWork { value with key := work.work.key } now).run
      ⟨workshop.inventory, faults⟩ with
  | (.ok _, c) =>
    { workshop with
      inventory := c.store
      origins := Function.update workshop.origins work.work.key (some work.work.observationOrder) }
  | (.error _, c) => { workshop with inventory := c.store }

def step : Step → Workshop
  | .lifecycle step => { workshop with inventory := workshop.inventory.lifecycleStep step }
  | .take key limit =>
    match (workshop.inventory.listPendingSummaryWork key.projectId limit).find? (·.key = key) with
    | some work =>
      { workshop with
        taken := workshop.taken ++ [⟨work, workshop.inventory.lastOrder key.projectId⟩] }
    | none => workshop
  | .commit index value now faults =>
    match workshop.taken[index]? with
    | some work => workshop.commit work value now faults
    | none => workshop
  | .complete key faults =>
    { workshop with
      inventory := ((completeSummaryWork key).run ⟨workshop.inventory, faults⟩).2.store }
  | .fail key faults =>
    { workshop with
      inventory := ((failSummaryWork key).run ⟨workshop.inventory, faults⟩).2.store }

def run (steps : List Step) : Workshop :=
  steps.foldl step workshop

end Workshop

def TakenWork.Current (work : TakenWork) (inventory : Inventory) : Prop :=
  ∀ row ∈ ofKey work.work.key inventory.observations.rows, row.order ≤ work.asOf

def Inventory.RetiredSince (inventory : Inventory) (key : FileKey) (order : ℕ) : Prop :=
  ∃ row, (ofKey key inventory.observations.rows).getLast? = some row ∧ order < row.order ∧
    (row.kind = .removed ∨ row.kind = .renamedFrom)

/-- What is newer than the work of a commit is left alone. -/
structure TakenWork.Spares (work : TakenWork) (before after : Workshop) : Prop where
  newerWork : ∀ pending, before.inventory.work work.work.key = some pending →
    pending.status.IsOpen → work.work.observationOrder < pending.observationOrder →
    after.inventory.work work.work.key = some pending
  newerSummary : ∀ summary origin, before.inventory.summary work.work.key = some summary →
    before.origins work.work.key = some origin → work.work.observationOrder < origin →
    after.inventory.summary work.work.key = some summary
  retired : before.inventory.RetiredSince work.work.key work.asOf →
    before.inventory.summary work.work.key = none → after.inventory.summary work.work.key = none

/-- Everything is observed as before, and the work is under the orders that it was under. -/
structure Inventory.SameOrders (inventory inventory' : Inventory) : Prop where
  observations : inventory'.observations = inventory.observations
  orders : inventory'.orders = inventory.orders
  work : ∀ key, (inventory'.work key).map (·.observationOrder) =
    (inventory.work key).map (·.observationOrder)

instance : Std.Refl Inventory.SameOrders :=
  ⟨fun _ ↦ ⟨rfl, rfl, fun _ ↦ rfl⟩⟩

instance : IsTrans Inventory Inventory.SameOrders :=
  ⟨fun _ _ _ h h' ↦ ⟨h'.observations.trans h.observations, h'.orders.trans h.orders,
    fun key ↦ (h'.work key).trans (h.work key)⟩⟩

theorem onPendingWork_atomic (f : Table pendingWorkSchema → Option (Table pendingWorkSchema)) :
    (onPendingWork f).Atomic :=
  .writePart

theorem respects_updateWork {p : Table pendingWorkSchema → PendingSummaryWork → Bool}
    {f : PendingSummaryWork → PendingSummaryWork} (hkey : ∀ row, (f row).key = row.key)
    (horder : ∀ row, (f row).observationOrder = row.observationOrder) :
    (onPendingWork fun work ↦ work.update (p work) f).Respects Inventory.SameOrders := by
  refine .of_atomic (onPendingWork_atomic _) fun c u c' h ↦ ?_
  obtain ⟨pendingWork, hupdate, hstore⟩ := onPendingWork_runs h
  rw [hstore]
  refine ⟨rfl, rfl, fun key ↦ ?_⟩
  rw [work_update hupdate hkey]
  rcases c.store.work key with _ | row
  · rfl
  rw [map_some, map_some, map_some]
  split_ifs
  · rw [horder]
  · rfl

theorem respects_commitSummaryWork (value : NewFileSummary) (now : String) :
    (commitSummaryWork value now).Respects Inventory.SameOrders := by
  refine .bind (.of_readOnly (validateKey_readOnly _)) fun _ ↦ ?_
  refine Query.Carries.transaction (Query.Carries.bind ?_ fun _ ↦ ?_)
  · refine (Query.Respects.write fun inventory inventory' h ↦ ?_).carries
    rw [Inventory.upsertSummary] at h
    split_ifs at h
    obtain ⟨summaries, -, rfl⟩ := map_eq_some_iff.1 h
    exact ⟨rfl, rfl, fun _ ↦ rfl⟩
  · refine (respects_updateWork (fun row ↦ ?_) fun row ↦ ?_).carries
    · rfl
    · rfl

theorem respects_completeSummaryWork (key : FileKey) :
    (completeSummaryWork key).Respects Inventory.SameOrders := by
  refine .bind (.of_readOnly (validateKey_readOnly _)) fun _ ↦ ?_
  refine respects_updateWork (fun row ↦ ?_) fun row ↦ ?_
  · rfl
  · rfl

theorem respects_failSummaryWork (key : FileKey) :
    (failSummaryWork key).Respects Inventory.SameOrders := by
  refine respects_updateWork (fun row ↦ ?_) fun row ↦ ?_
  · rfl
  · rfl

/-! ### The orders of the work -/

/-- What holds of a workshop: nothing is under an order that was not drawn yet, and nothing that was
taken is newer than what is there. -/
structure Workshop.Sound (workshop : Workshop) : Prop where
  bounded : workshop.inventory.WorkBounded
  asOf : ∀ work ∈ workshop.taken, work.asOf ≤ workshop.inventory.lastOrder work.work.key.projectId
  taken : ∀ work ∈ workshop.taken, ∃ pending,
    workshop.inventory.work work.work.key = some pending ∧
      work.work.observationOrder ≤ pending.observationOrder ∧
      (work.Current workshop.inventory → pending.observationOrder = work.work.observationOrder)
  origins : ∀ key origin, workshop.origins key = some origin → ∃ pending,
    workshop.inventory.work key = some pending ∧ origin ≤ pending.observationOrder

namespace Workshop.Sound

variable {workshop : Workshop} {inventory' : Inventory} {work : TakenWork}

theorem initial (projects : List RegisteredProjectRow) (legacyIdentities : List LegacyIdentityRow) :
    (Workshop.initial projects legacyIdentities).Sound where
  bounded _ _ h := by cases h
  asOf _ h := by cases h
  taken _ h := by cases h
  origins _ _ h := by cases h

theorem observes {news : List ObservationRow} (h : workshop.Sound)
    (hobserves : workshop.inventory.Observes news inventory') :
    Workshop.Sound { workshop with inventory := inventory' } where
  bounded := hobserves.bounded h.bounded
  asOf work hwork := by
    show work.asOf ≤ inventory'.lastOrder _
    rw [hobserves.lastOrder]
    exact Nat.le_add_right_of_le (h.asOf work hwork)
  taken work hwork := by
    obtain ⟨pending, hpending, hle, hcurrent⟩ := h.taken work hwork
    obtain ⟨pending', hpending', horder⟩ := hobserves.kept _ pending hpending
    have hbounded := h.bounded _ pending hpending
    refine ⟨pending', hpending', by omega, fun hnow ↦ ?_⟩
    rw [TakenWork.Current, hobserves.observations] at hnow
    -- a new observation of the file would be later than the work was taken
    have hnone : ofKey work.work.key news = [] := by
      refine eq_nil_iff_forall_not_mem.2 fun row hrow ↦ ?_
      have hrowLe := hnow row (by
        rw [ofKey, filter_append]
        exact mem_append_right _ hrow)
      obtain ⟨hmem, hkey⟩ := mem_filter.1 hrow
      have hproject : row ∈ ofProject work.work.key.projectId news :=
        mem_filter.2 ⟨hmem, decide_eq_true (by rw [of_decide_eq_true hkey])⟩
      have hdrawn := List.mem_map_of_mem (f := (·.order)) hproject
      rw [hobserves.orders, mem_range'_1] at hdrawn
      have hasOf := h.asOf work hwork
      omega
    have hbefore : work.Current workshop.inventory := by
      intro row hrow
      refine hnow row ?_
      rw [ofKey, filter_append]
      exact mem_append_left _ hrow
    obtain ⟨hsame, -⟩ := hobserves.untouched _ hnone
    rw [hsame, hpending] at hpending'
    obtain rfl := some.inj hpending'
    exact hcurrent hbefore
  origins key origin horigin := by
    obtain ⟨pending, hpending, hle⟩ := h.origins key origin horigin
    obtain ⟨pending', hpending', horder⟩ := hobserves.kept key pending hpending
    have hbounded := h.bounded key pending hpending
    exact ⟨pending', hpending', by omega⟩

theorem sameOrders (h : workshop.Sound) (hsame : workshop.inventory.SameOrders inventory') :
    Workshop.Sound { workshop with inventory := inventory' } := by
  have hlast (projectId : ℤ) :
      inventory'.lastOrder projectId = workshop.inventory.lastOrder projectId := by
    rw [Inventory.lastOrder, Inventory.lastOrder, hsame.orders]
  have hwork {key : FileKey} {pending : PendingSummaryWork}
      (hpending : workshop.inventory.work key = some pending) : ∃ pending',
        inventory'.work key = some pending' ∧
          pending'.observationOrder = pending.observationOrder := by
    have horder := hsame.work key
    rw [hpending] at horder
    obtain ⟨pending', hpending', horder'⟩ := map_eq_some_iff.1 horder
    exact ⟨pending', hpending', horder'⟩
  refine ⟨fun key pending' hpending' ↦ ?_, fun work hwork ↦ ?_, fun work hmem ↦ ?_,
    fun key origin horigin ↦ ?_⟩
  · have horder := (hsame.work key).symm
    rw [hpending'] at horder
    obtain ⟨pending, hpending, horder'⟩ := map_eq_some_iff.1 horder
    show pending'.observationOrder ≤ inventory'.lastOrder key.projectId
    rw [hlast]
    exact horder'.symm.trans_le (h.bounded key pending hpending)
  · rw [hlast]
    exact h.asOf work hwork
  · obtain ⟨pending, hpending, hle, hcurrent⟩ := h.taken work hmem
    obtain ⟨pending', hpending', horder⟩ := hwork hpending
    refine ⟨pending', hpending', horder ▸ hle, fun hnow ↦ ?_⟩
    rw [horder]
    refine hcurrent ?_
    rw [TakenWork.Current, ← hsame.observations]
    exact hnow
  · obtain ⟨pending, hpending, hle⟩ := h.origins key origin horigin
    obtain ⟨pending', hpending', horder⟩ := hwork hpending
    exact ⟨pending', hpending', horder ▸ hle⟩

theorem take (h : workshop.Sound) {work : PendingSummaryWork} {limit : ℕ} {projectId : ℤ}
    (hwork : work ∈ workshop.inventory.listPendingSummaryWork projectId limit) :
    Workshop.Sound { workshop with
      taken := workshop.taken ++ [⟨work, workshop.inventory.lastOrder work.key.projectId⟩] } := by
  have hmem : work ∈ workshop.inventory.pendingWork.rows :=
    (mem_filter.1 (mem_mergeSort.1 (mem_of_mem_take hwork))).1
  have hfound : workshop.inventory.work work.key = some work := by
    refine Table.find_eq_of_key hmem (decide_eq_true rfl) fun other _ hother ↦ ?_
    exact decide_eq_true (.inr (of_decide_eq_true hother))
  refine ⟨h.bounded, fun other hother ↦ ?_, fun other hother ↦ ?_, h.origins⟩
  · rcases mem_append.1 hother with hold | hnew
    · exact h.asOf other hold
    · rw [mem_singleton.1 hnew]
  · rcases mem_append.1 hother with hold | hnew
    · exact h.taken other hold
    · rw [mem_singleton.1 hnew]
      exact ⟨work, hfound, Nat.le_refl _, fun _ ↦ rfl⟩

theorem commit (h : workshop.Sound) (hwork : work ∈ workshop.taken) (value : NewFileSummary)
    (now : String) (faults : List (Option FamiliarError)) :
    (workshop.commit work value now faults).Sound := by
  have hsame := respects_commitSummaryWork { value with key := work.work.key } now
    ⟨workshop.inventory, faults⟩
  rw [Workshop.commit]
  split
  · rename_i u c hrun
    rw [hrun] at hsame
    have hsound := h.sameOrders hsame
    refine ⟨hsound.bounded, hsound.asOf, hsound.taken, fun key origin horigin ↦ ?_⟩
    by_cases hkey : key = work.work.key
    · obtain ⟨pending, hpending, hle, -⟩ := hsound.taken work hwork
      have horigin' : some work.work.observationOrder = some origin := by
        rw [← horigin, hkey]
        exact (Function.update_self work.work.key _ workshop.origins).symm
      rw [hkey, ← some.inj horigin']
      exact ⟨pending, hpending, hle⟩
    · refine hsound.origins key origin ?_
      rw [← horigin]
      exact (Function.update_of_ne hkey _ workshop.origins).symm
  · rename_i e c hrun
    rw [hrun] at hsame
    exact h.sameOrders hsame

theorem step (h : workshop.Sound) (step : Workshop.Step) : (workshop.step step).Sound := by
  cases step with
  | lifecycle step =>
    obtain ⟨news, hobserves⟩ := respects_lifecycleCall step.call ⟨workshop.inventory, step.faults⟩
    exact h.observes hobserves
  | take key limit =>
    rw [Workshop.step]
    split
    · rename_i work hfound
      have hlisted := find?_some hfound
      have hkey : work.key = key := of_decide_eq_true hlisted
      rw [← hkey]
      exact h.take (mem_of_find?_eq_some hfound)
    · exact h
  | commit index value now faults =>
    rw [Workshop.step]
    split
    · rename_i work hwork
      exact h.commit (mem_of_getElem? hwork) value now faults
    · exact h
  | complete key faults =>
    exact h.sameOrders (respects_completeSummaryWork key ⟨workshop.inventory, faults⟩)
  | fail key faults =>
    exact h.sameOrders (respects_failSummaryWork key ⟨workshop.inventory, faults⟩)

theorem run (h : workshop.Sound) (steps : List Workshop.Step) : (workshop.run steps).Sound := by
  induction steps generalizing workshop with
  | nil => exact h
  | cons step steps ih => exact ih (h.step step)

theorem spares (h : workshop.Sound) (hwork : work ∈ workshop.taken)
    (hcurrent : work.Current workshop.inventory) (after : Workshop) :
    work.Spares workshop after := by
  obtain ⟨pending, hpending, -, horder⟩ := h.taken work hwork
  have hsame := horder hcurrent
  refine ⟨fun newer hnewer _ hlt ↦ ?_, fun summary origin _ horigin hlt ↦ ?_, fun hretired _ ↦ ?_⟩
  · rw [hpending] at hnewer
    obtain rfl := some.inj hnewer
    omega
  · obtain ⟨pending', hpending', hle⟩ := h.origins _ origin horigin
    rw [hpending] at hpending'
    obtain rfl := some.inj hpending'
    omega
  · obtain ⟨row, hlatest, hlt, -⟩ := hretired
    have hle := hcurrent row (mem_of_getLast? hlatest)
    omega

end Workshop.Sound

namespace Workshop

/-- A project with a file whose work was taken. -/
def takenOnce : Workshop :=
  (Workshop.initial [⟨1, "/repo", true⟩] []).run
    [.lifecycle ⟨.observeChange ⟨1, "a.rs"⟩ .create "watcher" false, []⟩, .take ⟨1, "a.rs"⟩ 10]

def summaryOf (text : String) : NewFileSummary :=
  ⟨⟨1, "a.rs"⟩, text, [], [], none, none⟩

def takenWork : TakenWork :=
  ⟨⟨1, ⟨1, "a.rs"⟩, .create, .pending, 0, 1, false⟩, 1⟩

/-- The file is modified, its new work is taken too and committed, and then the old work is. -/
def overtaken : List Step :=
  [.lifecycle ⟨.observeChange ⟨1, "a.rs"⟩ .modify "watcher" false, []⟩, .take ⟨1, "a.rs"⟩ 10,
    .commit 1 (summaryOf "new") "t1" [], .commit 0 (summaryOf "old") "t2" []]

/-- The file is removed before the work is committed. -/
def buried : List Step :=
  [.lifecycle ⟨.retireAbsent ⟨1, "a.rs"⟩ .deleted "watcher" none, []⟩,
    .commit 0 (summaryOf "old") "t1" []]

end Workshop

end FamiliarAi
