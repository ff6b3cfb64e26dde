import FamiliarAi.Summary.Worker

/-!
# What was handled

A path that has work to do is handled to its end in one of three ways: its summary is committed, its
work fails, or it was retired meanwhile. `process_one` returns in other ways too, and then the work
stays as it was, to be taken up again. Where it does commit, nobody asks whether the path was
observed since the content was read; and what was written later, in the same second, is taken for
what was summarized (`summaries_not_faithful`).

In the runs that avoid these ways the worker keeps what it promises (`summaries_faithful`).
-/

namespace FamiliarAi

open Relational Transition

/-! ### The statements of the worker -/

section Statements

variable {inventory : Inventory} {key : FileKey} {work : PendingSummaryWork}
  {value : NewFileSummary}

theorem latestWorkOrder_eq (h : inventory.work key = some work) :
    latestWorkOrder inventory.pendingWork key = work.observationOrder := by
  obtain ⟨hmem, hkey⟩ := Table.find_some h
  have hsame : ∀ row ∈ inventory.pendingWork.rows.filter (·.key = key), row = work := by
    intro row hrow
    obtain ⟨hrow, hrowKey⟩ := List.mem_filter.1 hrow
    refine Table.eq_of_clash hrow hmem (decide_eq_true (.inr ?_))
    exact (of_decide_eq_true hrowKey).trans (of_decide_eq_true hkey).symm
  have hfilter : inventory.pendingWork.rows.filter (·.key = key) = [work] := by
    refine List.perm_singleton.1 ((List.perm_ext_iff_of_nodup
      (inventory.pendingWork.nodup.filter _) (List.nodup_singleton work)).2 fun row ↦ ?_)
    rw [List.mem_singleton]
    refine ⟨hsame row, ?_⟩
    rintro rfl
    exact List.mem_filter.2 ⟨hmem, hkey⟩
  unfold latestWorkOrder
  rw [hfilter]
  exact Nat.max_zero _

theorem exists_setStatus (inventory : Inventory) {p : PendingSummaryWork → Bool}
    {f : PendingSummaryWork → PendingSummaryWork}
    (hid : ∀ row, (f row).id = row.id) (hkey : ∀ row, (f row).key = row.key) :
    ∃ pendingWork, inventory.pendingWork.update p f = some pendingWork := by
  refine Table.exists_update (fun _ _ _ ↦ rfl) fun row _ _ other ↦ ?_
  show decide _ = decide _
  rw [hid, hkey]

theorem onPendingWork_returns {f : Table pendingWorkSchema → Option (Table pendingWorkSchema)}
    {pendingWork : Table pendingWorkSchema} (h : f inventory.pendingWork = some pendingWork) :
    (onPendingWork f).Returns inventory () { inventory with pendingWork } := by
  unfold onPendingWork Query.writePart Query.changePart
  refine .change ?_
  dsimp only
  rw [h]
  rfl

/-- `fail_summary_work`, on an engine without faults. -/
theorem failSummaryWork_returns (inventory : Inventory) (key : FileKey) :
    ∃ inventory', (failSummaryWork key).Returns inventory () inventory' ∧
      ∀ work ∈ inventory'.work key, work.status = .failed := by
  obtain ⟨pendingWork, hupdate⟩ := exists_setStatus inventory
    (p := (·.key = key))
    (f := fun row ↦ { row with status := .failed, attemptCount := row.attemptCount + 1 })
    (fun _ ↦ rfl) fun _ ↦ rfl
  refine ⟨{ inventory with pendingWork }, onPendingWork_returns hupdate, fun work hwork ↦ ?_⟩
  · have hfound : Inventory.work { inventory with pendingWork } key = some work := hwork
    rw [work_update hupdate fun _ ↦ rfl] at hfound
    obtain ⟨row, hrow, rfl⟩ := Option.map_eq_some_iff.1 hfound
    rw [if_pos (Table.find_some hrow).2]

theorem upsertSummary_isSome (hfresh : inventory.Fresh)
    (hproject : (inventory.project value.key.projectId).isSome = true) (now : String) :
    ∃ inventory', inventory.upsertSummary value now = some inventory' ∧
      inventory'.pendingWork = inventory.pendingWork ∧
      (inventory'.summary value.key).isSome = true := by
  obtain ⟨summaries, hupsert⟩ : ∃ summaries, inventory.summaries.upsert (·.key = value.key)
      (fun row ↦ { row with content := value.content, lastUpdatedAt := now, updatedAt := now })
      ⟨inventory.sequences.summaries + 1, value.key, value.content, now, now, now⟩ =
        some summaries := by
    unfold Table.upsert
    split_ifs with hfound
    · exact Table.exists_update (fun _ _ _ ↦ rfl) fun _ _ _ _ ↦ rfl
    · refine Table.exists_insert rfl fun row hrow ↦ decide_eq_false ?_
      rintro (hid | hkey)
      · have hle := hfresh.summaries row hrow
        have hid : row.id = inventory.sequences.summaries + 1 := hid
        omega
      · obtain ⟨found, hsome⟩ := Table.find_isSome_of_mem (p := (·.key = value.key)) hrow
          (decide_eq_true hkey)
        exact hfound (by rw [hsome]; rfl)
  refine ⟨{ inventory with
    summaries
    sequences := { inventory.sequences with summaries := inventory.sequences.summaries + 1 } }, ?_,
    rfl, ?_⟩
  · unfold Inventory.upsertSummary
    rw [if_pos hproject, hupsert]
    rfl
  · show (summaries.find _).isSome = true
    rw [Table.find_upsert hupsert (fun _ ↦ rfl) (decide_eq_true rfl)]
    rfl

/-- `commit_summary_work`, on an engine without faults. -/
theorem commitSummaryWork_returns (hfresh : inventory.Fresh)
    (hvalid : validateStored value.key.path = .ok ())
    (hproject : (inventory.project value.key.projectId).isSome = true) (now : String) :
    ∃ inventory', (commitSummaryWork value now).Returns inventory () inventory' ∧
      (∀ work ∈ inventory'.work value.key, work.status = .completed) ∧
      (inventory'.summary value.key).isSome = true := by
  obtain ⟨written, hupsert, hwork, hsummary⟩ := upsertSummary_isSome hfresh hproject now
  obtain ⟨pendingWork, hupdate⟩ := exists_setStatus written
    (p := fun row ↦ row.key = value.key ∧
      row.observationOrder = latestWorkOrder written.pendingWork value.key)
    (f := fun row ↦ { row with status := .completed, dispatchDeferred := false })
    (fun _ ↦ rfl) fun _ ↦ rfl
  refine ⟨{ written with pendingWork }, ?_, fun work hwork ↦ ?_, hsummary⟩
  · have hvalidate : (validateKey value.key).Returns inventory () inventory := by
      unfold validateKey
      rw [hvalid]
      exact Query.returns_ofExcept.2 ⟨rfl, rfl⟩
    exact hvalidate.bind (Query.Returns.transaction ((Query.Returns.write hupsert).bind
      (onPendingWork_returns hupdate)))
  · have hfound : Inventory.work { written with pendingWork } value.key = some work := hwork
    rw [work_update hupdate fun _ ↦ rfl] at hfound
    obtain ⟨row, hrow, rfl⟩ := Option.map_eq_some_iff.1 hfound
    rw [if_pos (decide_eq_true ⟨of_decide_eq_true (Table.find_some hrow).2,
      (latestWorkOrder_eq hrow).symm⟩)]

end Statements

/-! ### What holds at each step -/

/-- The assertion at each step of `process_one`. -/
def HandlingPhase.Asserts (w : SummaryWorld) (key : FileKey) : HandlingPhase → Prop
  | .identifying => True
  | .inspecting | .comparing _ | .reading _ | .failing _ => validateStored key.path = .ok ()
  | .rechecking _ read | .committing _ read => validateStored key.path = .ok () ∧
      read.version ≤ w.version key ∧ (read.overtaken = false → w.observed key ≤ read.version)

/-- What holds in the undisturbed runs. -/
structure SummaryWorld.Sound (w : SummaryWorld) : Prop where
  fresh : w.inventory.Fresh
  observed : ∀ key, w.observed key ≤ w.version key
  asserts : ∀ handling ∈ w.handling, handling.phase.Asserts w handling.key
  faithful : w.Faithful

section Steps

variable {worker : SummaryWorker} {w w' : SummaryWorld} {e : SummaryEvent} {handling : Handling}
  {now : String} {faults : List (Option FamiliarError)} {phase : HandlingPhase}
  {outcome : HandlingOutcome} {inventory : Inventory} {key : FileKey}

theorem HandlingPhase.Asserts.mono (h : phase.Asserts w key)
    (hversion : w.version key ≤ w'.version key) (hobserved : w'.observed key = w.observed key) :
    phase.Asserts w' key := by
  cases phase with
  | rechecking | committing =>
    obtain ⟨hvalid, hread, hovertaken⟩ := h
    exact ⟨hvalid, hread.trans hversion, hobserved ▸ hovertaken⟩
  | identifying => trivial
  | inspecting | comparing | reading | failing => exact h

theorem HandlingPhase.Asserts.overtake (h : phase.Asserts w key)
    (hversion : w'.version key = w.version key) (hobserved : w'.observed key = w.version key) :
    (phase.overtake (w.version key)).Asserts w' key := by
  have hread : ∀ read : SourceRead, read.version ≤ w.version key →
      read.version ≤ w'.version key ∧
        ((read.overtaken || read.version != w.version key) = false →
          w'.observed key ≤ read.version) := by
    intro read hle
    refine ⟨hversion ▸ hle, fun hnot ↦ ?_⟩
    obtain ⟨-, hsame⟩ := Bool.or_eq_false_iff.1 hnot
    rw [bne_eq_false_iff_eq] at hsame
    rw [hobserved, hsame]
  cases phase with
  | rechecking _ read => exact ⟨h.1, hread read h.2.1⟩
  | committing _ read => exact ⟨h.1, hread read h.2.1⟩
  | identifying => trivial
  | inspecting | comparing | reading | failing => exact h

/-- The store is worked on from outside. -/
theorem SummaryWorld.Sound.observe (h : w.Sound) (hfresh : inventory.Fresh) :
    (w.observe inventory).Sound where
  fresh := hfresh
  observed key := by
    show (if _ then w.version key else w.observed key) ≤ w.version key
    split_ifs
    · exact le_rfl
    · exact h.observed key
  asserts handling' hmem := by
    obtain ⟨handling, hhandling, rfl⟩ := Option.map_eq_some_iff.1 hmem
    have hasserts := h.asserts handling hhandling
    split_ifs with hobserved
    · exact hasserts.overtake rfl (if_pos hobserved)
    · exact hasserts.mono le_rfl (if_neg hobserved)
  faithful := h.faithful

/-- `process_one` goes on. -/
theorem SummaryWorld.Sound.goOn (h : w.Sound) (hasserts : phase.Asserts w handling.key) :
    (w.goOn handling phase).Sound where
  fresh := h.fresh
  observed := h.observed
  asserts := by
    rintro _ ⟨⟩
    exact hasserts
  faithful := h.faithful

/-- `process_one` returns. -/
theorem SummaryWorld.Sound.finish (h : w.Sound)
    (hsettled : handling.opened = true → w.WorkSettled handling.key)
    (hcurrent : handling.opened = true → outcome = .committed ∨ outcome = .fresh → ∃ version ∈ (w.inventory.summary handling.key).bind fun _ ↦ w.origins handling.key, w.observed handling.key ≤ version)
    :
    (w.finish handling outcome).Sound where
  fresh := h.fresh
  observed := h.observed
  asserts _ hmem := nomatch hmem
  faithful := by
    intro handled hmem hopened
    rcases List.mem_cons.1 hmem with rfl | hold
    · exact ⟨hsettled hopened, hcurrent hopened⟩
    · exact h.faithful handled hold hopened

theorem SummaryWorld.Sound.giveUp (h : w.Sound)
    (hsettled : handling.opened = true → w.WorkSettled handling.key)
    (hother : outcome ≠ .committed ∧ outcome ≠ .fresh) : (w.finish handling outcome).Sound :=
  h.finish hsettled fun _ houtcome ↦ houtcome.elim (absurd · hother.1) (absurd · hother.2)

theorem SummaryWorld.Sound.write (h : w.Sound) (hfresh : inventory.Fresh)
    (origins : FileKey → Option ℕ) : SummaryWorld.Sound { w with inventory, origins } where
  fresh := hfresh
  observed := h.observed
  asserts := h.asserts
  faithful := h.faithful

/-- **The step of `process_one`**, where the condition is met. -/
theorem SummaryWorker.processOne_sound (h : w.Sound) (hhandling : w.handling = some handling)
    (hundisturbed : handling.opened = true →
      worker.UndisturbedAt w handling.key now faults handling.phase) :
    (worker.processOne w handling now faults).Sound := by
  have hasserts := h.asserts handling hhandling
  obtain ⟨key, opened, phase⟩ := handling
  unfold processOne
  dsimp only at hundisturbed hasserts ⊢
  cases phase with
  | identifying =>
    dsimp only
    split_ifs with hidentified
    · exact h.goOn hidentified.1
    · exact h.giveUp (fun hopened ↦ (hundisturbed hopened).resolve_left hidentified) (by decide)
  | inspecting =>
    dsimp only
    split
    · rename_i error herror
      refine h.giveUp (fun hopened ↦ (hundisturbed hopened).resolve_left ?_) (by decide)
      rintro ⟨metadata, hmetadata, -⟩
      cases herror.symm.trans hmetadata
    · rename_i metadata hmetadata
      have hsame : ∀ metadata', (w.files key).metadata = .ok metadata' → metadata' = metadata :=
        fun metadata' hmetadata' ↦ Except.ok.inj (hmetadata'.symm.trans hmetadata)
      split_ifs with hirregular hoversized
      · refine h.giveUp (fun hopened ↦ (hundisturbed hopened).resolve_left ?_) (by decide)
        rintro ⟨metadata', hmetadata', hfile, -⟩
        rw [hsame metadata' hmetadata', hirregular] at hfile
        cases hfile
      · refine h.giveUp (fun hopened ↦ (hundisturbed hopened).resolve_left ?_) (by decide)
        rintro ⟨metadata', hmetadata', -, hlen⟩
        rw [hsame metadata' hmetadata'] at hlen
        exact absurd hoversized (Nat.not_lt.2 hlen)
      · exact h.goOn hasserts
  | comparing metadata =>
    dsimp only
    split_ifs with hfresh
    · have hclosed : opened ≠ true := by
        intro hopened
        rw [show worker.passesOver w now faults key metadata = false from hundisturbed hopened]
          at hfresh
        cases hfresh
      exact h.finish (fun hopened ↦ absurd hopened hclosed) fun hopened ↦ absurd hopened hclosed
    · exact h.goOn hasserts
  | reading metadata =>
    dsimp only
    split
    · exact h.goOn hasserts
    · exact h.goOn ⟨hasserts, le_rfl, fun _ ↦ h.observed key⟩
  | rechecking metadata read =>
    dsimp only
    split
    · exact h.goOn hasserts.1
    · split_ifs
      · exact h.goOn hasserts.1
      · exact h.goOn hasserts
  | committing metadata read =>
    obtain ⟨hvalid, -, hovertaken⟩ := hasserts
    have hfresh := commitSummaryWork_fresh (worker.newSummary key metadata read) now
      ⟨w.inventory, faults⟩ h.fresh
    dsimp only
    split
    · rename_i u c hrun
      rw [hrun] at hfresh
      have hdone : opened = true → (∀ work ∈ c.store.work key, work.status = .completed) ∧
          (c.store.summary key).isSome = true ∧ w.observed key ≤ read.version := by
        intro hopened
        obtain ⟨hread, rfl, hproject⟩ := hundisturbed hopened
        obtain ⟨inventory, hreturns, hcompleted, hsummary⟩ :=
          @commitSummaryWork_returns _ (worker.newSummary key metadata read) h.fresh hvalid
            hproject now
        obtain rfl : c = ⟨inventory, []⟩ := (Prod.mk.inj (hrun.symm.trans hreturns)).2
        exact ⟨hcompleted, hsummary, hovertaken hread⟩
      refine (h.write hfresh _).finish (fun hopened work hwork ↦ ?_) fun hopened _ ↦ ?_
      · rw [(hdone hopened).1 work hwork]
        decide
      · obtain ⟨-, hsummary, hobserved⟩ := hdone hopened
        obtain ⟨summary, hsummary⟩ := Option.isSome_iff_exists.1 hsummary
        refine ⟨read.version, ?_, hobserved⟩
        show (c.store.summary key).bind _ = _
        rw [hsummary]
        exact Function.update_self _ _ _
    · rename_i error c hrun
      rw [hrun] at hfresh
      refine (h.write hfresh w.origins).giveUp (fun hopened ↦ ?_) (by decide)
      obtain ⟨-, rfl, hproject⟩ := hundisturbed hopened
      obtain ⟨inventory, hreturns, -⟩ :=
        @commitSummaryWork_returns _ (worker.newSummary key metadata read) h.fresh hvalid
          hproject now
      cases (Prod.mk.inj (hrun.symm.trans hreturns)).1
  | failing error =>
    have hfresh : ((failSummaryWork key).run ⟨w.inventory, faults⟩).2.store.Fresh :=
      onPendingWork_fresh _ ⟨w.inventory, faults⟩ h.fresh
    refine (h.write hfresh w.origins).giveUp (fun hopened work hwork ↦ ?_) (by decide)
    obtain rfl : faults = [] := hundisturbed hopened
    obtain ⟨inventory, hreturns, hfailed⟩ := failSummaryWork_returns w.inventory key
    have hrun : (failSummaryWork key).run ⟨w.inventory, []⟩ = (.ok (), ⟨inventory, []⟩) := hreturns
    have hstore : ((failSummaryWork key).run ⟨w.inventory, []⟩).2.store = inventory := by
      rw [hrun]
    have hwork : ((failSummaryWork key).run ⟨w.inventory, []⟩).2.store.work key = some work := hwork
    rw [hstore] at hwork
    rw [hfailed work hwork]
    decide

/-- A step that neither handles a path nor works on the store. -/
theorem SummaryWorld.Sound.collect (h : w.Sound) (paused : Bool) (pending : List (FileKey × ℕ))
    (ready : List FileKey) : SummaryWorld.Sound { w with paused, pending, ready } where
  fresh := h.fresh
  observed := h.observed
  asserts := h.asserts
  faithful := h.faithful

/-- **What one event preserves**, where the condition is met. -/
theorem SummaryWorld.Sound.step (h : w.Sound) (hundisturbed : worker.Undisturbed w e)
    (hstep : worker.step w e = some w') : w'.Sound := by
  revert hstep
  fun_cases worker.step w e with
  | case1 key file =>
    rintro ⟨⟩
    have hversion : ∀ other, w.version other ≤
        Function.update w.version key (w.version key + 1) other := by
      intro other
      by_cases hother : other = key
      · rw [hother, Function.update_self]
        exact Nat.le_succ _
      · rw [Function.update_of_ne hother]
    exact ⟨h.fresh, fun other ↦ (h.observed other).trans (hversion other),
      fun handling hmem ↦ (h.asserts handling hmem).mono (hversion _) rfl, h.faithful⟩
  | case2 step =>
    rintro ⟨⟩
    exact h.observe (lifecycleCall_fresh step.call ⟨w.inventory, step.faults⟩ h.fresh)
  | case3 paused =>
    rintro ⟨⟩
    exact h.collect paused w.pending w.ready
  | case6 | case16 =>
    rintro ⟨⟩
    exact h.collect w.paused _ w.ready
  | case9 order | case13 order =>
    rintro ⟨⟩
    exact h.collect w.paused w.pending order
  | case4 | case5 | case8 | case12 =>
    rintro ⟨⟩
    exact h
  | case18 =>
    rintro ⟨⟩
    refine ⟨h.fresh, h.observed, ?_, h.faithful⟩
    rintro _ ⟨⟩
    trivial
  | case20 now faults =>
    intro hstep
    obtain ⟨handling, hhandling, rfl⟩ := Option.map_eq_some_iff.1 hstep
    exact worker.processOne_sound h hhandling (hundisturbed handling hhandling)
  | case21 =>
    rintro ⟨⟩
    exact ⟨h.fresh, h.observed, fun _ hmem ↦ (nomatch hmem), h.faithful⟩
  | _ => exact nofun

end Steps

/-! ### Results -/

/-- **The summaries of the worker.** In the runs that are not disturbed, the work of every path that
is handled is completed, failed or retired, and where it is completed, or passed over, the active
summary is of the version that was last observed, or of a later one. -/
theorem summaries_faithful {worker : SummaryWorker} {w : SummaryWorld}
    (h : worker.system.Reaches worker.Undisturbed w) : w.Faithful := by
  have hsound : w.Sound := by
    refine h.invariant ?_ fun _ _ _ hw hundisturbed hstep ↦ hw.step hundisturbed hstep
    rintro w ⟨hfresh, hobserved, -, hhandling, hhandled⟩
    refine ⟨hfresh, hobserved, fun _ hmem ↦ ?_, fun _ hmem ↦ ?_⟩
    · rw [hhandling] at hmem
      cases hmem
    · rw [hhandled] at hmem
      exact absurd hmem List.not_mem_nil
  exact hsound.faithful

namespace HandledEvaluation

def worker : SummaryWorker where
  config := ⟨86400, 100, 10, 50⟩
  generate _ content := ⟨content, [], []⟩
  elapsed _ _ := 0

def key : FileKey := ⟨1, "a.rs"⟩

/-- The file, as it was last written in the second after the epoch. -/
def file (len : ℕ) (content : String) : SourceFile :=
  ⟨true, .ok ⟨true, len, some 1000000000⟩, .ok content⟩

def start : SummaryWorld where
  files _ := ⟨true, .error "No such file or directory", .error "No such file or directory"⟩
  inventory := .initial [⟨1, "/repo", true⟩] []

def edit (len : ℕ) (content : String) : SummaryEvent :=
  .edit key (file len content)

def observe (change : LifecycleChange) : SummaryEvent :=
  .lifecycle ⟨.observeChange key change "watcher" false, []⟩

/-- The work of the store is collected and flushed, and `process_one` takes its first steps. -/
def handle (n : ℕ) : List SummaryEvent :=
  [.refill [1] 0, .flushQuiet [key] 50, .take] ++ List.replicate n (.advance "now" [])

def written : List SummaryEvent :=
  [edit 1 "a", observe .create] ++ handle 6

/-- The file has grown over the limit before it is handled. -/
def grown : List SummaryEvent :=
  [edit 1 "a", observe .create, edit 200 "a"] ++ handle 2

/-- The file is written and observed again after it was read. -/
def writtenBetween : List SummaryEvent :=
  [edit 1 "a", observe .create] ++ handle 4 ++ [edit 1 "b", observe .create] ++
    List.replicate 2 (.advance "now" [])

/-- The file is written again after it was read, and observed after the commit. -/
def writtenAfter : List SummaryEvent :=
  [edit 1 "a", observe .create] ++ handle 4 ++ [edit 1 "b"] ++
    List.replicate 2 (.advance "now" []) ++ [observe .create] ++ handle 3

theorem fresh_start : worker.system.start start :=
  ⟨fresh_initial _ _, fun _ ↦ le_rfl, rfl, rfl, rfl⟩

theorem written_run : ∃ w, worker.system.Reaches worker.Undisturbed w ∧
    w.handled.map (fun handled ↦ (handled.opened, handled.outcome)) = [(true, .committed)] :=
  System.exists_reaches fresh_start written (by decide +kernel)

theorem grown_run : ∃ w, worker.system.Reachable w ∧
    ∃ handled ∈ w.handled, handled.opened = true ∧ ∃ work ∈ handled.work, ¬work.status.IsSettled :=
  System.exists_reaches fresh_start grown (by decide +kernel)

theorem writtenBetween_run : ∃ w, worker.system.Reachable w ∧
    ∃ handled ∈ w.handled, handled.opened = true ∧ handled.outcome = .committed ∧
      handled.summarized = some 1 ∧ handled.observed = 2 :=
  System.exists_reaches fresh_start writtenBetween (by decide +kernel)

theorem writtenAfter_run : ∃ w, worker.system.Reachable w ∧
    ∃ handled ∈ w.handled, handled.opened = true ∧ handled.outcome = .fresh ∧
      handled.summarized = some 1 ∧ handled.observed = 2 :=
  System.exists_reaches fresh_start writtenAfter (by decide +kernel)

end HandledEvaluation

theorem summaries_faithful_written : ∃ w,
    HandledEvaluation.worker.system.Reaches HandledEvaluation.worker.Undisturbed w ∧
      w.handled.map (fun handled ↦ (handled.opened, handled.outcome)) = [(true, .committed)] ∧
      w.Faithful := by
  obtain ⟨w, hreach, hhandled⟩ := HandledEvaluation.written_run
  exact ⟨w, hreach, hhandled, summaries_faithful hreach⟩

/-- The work of a file that has grown too large stays, an observation between the read and the
commit is taken for done, and a later content of the same second is passed over. -/
theorem summaries_not_faithful :
    (¬∀ w, HandledEvaluation.worker.system.Reachable w → ∀ handled ∈ w.handled,
      handled.opened = true → ∀ work ∈ handled.work, work.status.IsSettled) ∧
    (¬∀ w, HandledEvaluation.worker.system.Reachable w → ∀ handled ∈ w.handled,
      handled.opened = true → handled.outcome = .committed →
        ∃ version ∈ handled.summarized, handled.observed ≤ version) ∧
    ¬∀ w, HandledEvaluation.worker.system.Reachable w → ∀ handled ∈ w.handled,
      handled.opened = true → handled.outcome = .fresh →
        ∃ version ∈ handled.summarized, handled.observed ≤ version := by
  have hstale : ∀ handled : HandledWork, handled.summarized = some 1 → handled.observed = 2 →
      ¬∃ version ∈ handled.summarized, handled.observed ≤ version := by
    rintro handled hsummarized hobserved ⟨version, hversion, hle⟩
    obtain rfl := Option.some.inj (hsummarized.symm.trans hversion)
    omega
  refine ⟨fun h ↦ ?_, fun h ↦ ?_, fun h ↦ ?_⟩
  · obtain ⟨w, hreach, handled, hmem, hopened, work, hwork, hwaiting⟩ := HandledEvaluation.grown_run
    exact hwaiting (h w hreach handled hmem hopened work hwork)
  · obtain ⟨w, hreach, handled, hmem, hopened, houtcome, hsummarized, hobserved⟩ :=
      HandledEvaluation.writtenBetween_run
    exact hstale handled hsummarized hobserved (h w hreach handled hmem hopened houtcome)
  · obtain ⟨w, hreach, handled, hmem, hopened, houtcome, hsummarized, hobserved⟩ :=
      HandledEvaluation.writtenAfter_run
    exact hstale handled hsummarized hobserved (h w hreach handled hmem hopened houtcome)

end FamiliarAi
