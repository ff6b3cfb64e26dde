import FamiliarAi.ControlPlane.Interruption
import FamiliarAi.ControlPlane.Run
import FamiliarAi.ControlPlane.Service

/-!
# Ending an execution

A cancel, and the end of a foreground session, move an execution that is queued or running to its end,
and give back the reservation that it holds. They leave a live orphan as it is: its worker may still be
alive, and so it keeps its slot until an operator has recovered it.

Nothing but a fault of the engine can make them fail. The two events that are recorded when an execution
ends have ids that no other event has, and an execution ends once.
-/

namespace FamiliarAi

open Relational Relation ControlStore List Option

variable {S S' : ControlStore} {c c' : Connection ControlStore FamiliarError} {id : String}
  {s part : String} {state : ExecutionState}

/-- The last parts of the ids of the events that are recorded when an execution ends. -/
def endingParts : List String :=
  ["completed", "failed", "cancelled", "foreground_ended", "usage_finalized"]

def IsEnding (id eventId : String) : Prop :=
  ∃ part ∈ endingParts, eventId = id ++ ":" ++ part

/-- The text after the last colon, from its end. -/
def lastPart (s : String) : List Char :=
  s.toList.reverse.takeWhile (· ≠ ':')

theorem lastPart_append (h : ':' ∉ part.toList) :
    lastPart (s ++ ":" ++ part) = part.toList.reverse := by
  unfold lastPart
  have hcolon : (":" : String).toList = [':'] := rfl
  rw [String.toList_append, String.toList_append, hcolon, append_assoc, reverse_append,
    singleton_append, reverse_cons, append_assoc, singleton_append,
    takeWhile_append_of_pos (fun c hc ↦ ?_), takeWhile_cons_of_neg (by simp),
    append_nil]
  simpa using ne_of_mem_of_not_mem (mem_reverse.1 hc) h

theorem endingParts_noColon : ∀ part ∈ endingParts, ':' ∉ part.toList := by
  decide

theorem toString_noColon (n : ℕ) : ':' ∉ (toString n).toList := by
  intro hcolon
  have hdigit := Nat.isDigit_of_mem_toDigits (b := 10) (n := n) (by decide) (by decide)
    (by simpa using hcolon)
  cases hdigit

theorem toString_not_ending (n : ℕ) : toString n ∉ endingParts := by
  have hletter : ∀ part ∈ endingParts, part.toList.any (!·.isDigit) = true := by
    decide
  intro hpart
  obtain ⟨c, hc, hno⟩ := List.any_eq_true.1 (hletter _ hpart)
  rw [Nat.isDigit_of_mem_toDigits (b := 10) (n := n) (by decide) (by decide) (by simpa using hc)]
    at hno
  cases hno

theorem not_isEnding (hcolon : ':' ∉ part.toList) (hpart : part ∉ endingParts) :
    ¬IsEnding id (s ++ ":" ++ part) := by
  rintro ⟨part', hpart', heq⟩
  have hlast := congrArg lastPart heq
  rw [lastPart_append hcolon, lastPart_append (endingParts_noColon part' hpart')] at hlast
  have hsame : part = part' := String.toList_inj.1 (reverse_injective hlast)
  exact hpart (hsame ▸ hpart')

theorem isEnding_iff (hpart : part ∈ endingParts) :
    IsEnding id (s ++ ":" ++ part) ↔ id = s := by
  constructor
  · rintro ⟨part', hpart', heq⟩
    have hlast := congrArg lastPart heq
    rw [lastPart_append (endingParts_noColon part hpart),
      lastPart_append (endingParts_noColon part' hpart')] at hlast
    obtain rfl : part = part' := String.toList_inj.1 (reverse_injective hlast)
    rw [String.append_left_inj, String.append_left_inj] at heq
    exact heq.symm
  · rintro rfl
    exact ⟨part, hpart, rfl⟩

theorem ExecutionState.IsTerminal.name_mem {s : ExecutionState} (h : s.IsTerminal) :
    s.name ∈ endingParts := by
  cases s with
  | completed | failed | cancelled | foregroundEnded => decide
  | queued | running | paused | ambiguousLiveOrphan => exact h.elim

theorem ExecutionState.name_ne_usageFinalized (s : ExecutionState) : s.name ≠ "usage_finalized" := by
  cases s with
  | _ => decide

/-! ### What an operation adds -/

/-- Of the events that are added, those of an end belong to the given execution; and no execution is
paused. -/
structure Advances (own : Option String) (S S' : ControlStore) : Prop where
  events : ∀ v ∈ S'.events.rows, v ∈ S.events.rows ∨ ∀ id, IsEnding id v.eventId → own = some id
  unpaused : (∀ e ∈ S.executions.rows, e.state ≠ .paused) →
    ∀ e ∈ S'.executions.rows, e.state ≠ .paused

section Advances

variable {own : Option String} {α : Type} {row : ControlEventRow}

instance : Std.Refl (Advances own) :=
  ⟨fun _ ↦ ⟨fun _ hv ↦ .inl hv, fun h ↦ h⟩⟩

instance : IsTrans ControlStore (Advances own) :=
  ⟨fun _ _ _ h h' ↦ ⟨fun v hv ↦ (h'.events v hv).elim (h.events v) .inr,
    fun hS ↦ h'.unpaused (h.unpaused hS)⟩⟩

theorem Advances.of_eq (hevents : S'.events = S.events) (hexecutions : S'.executions = S.executions) :
    Advances own S S' := by
  constructor
  · rw [hevents]
    exact fun v hv ↦ .inl hv
  · rw [hexecutions]
    exact fun h ↦ h

theorem read_advances (f : ControlStore → α) :
    (Query.read f : ControlQuery α).Respects (Advances own) :=
  .of_readOnly .read

theorem pure_advances (a : α) : (pure a : ControlQuery α).Respects (Advances own) :=
  .of_readOnly .pure

theorem ensure_advances (p : Prop) [Decidable p] (e : FamiliarError) :
    (Query.ensure p e : ControlQuery Unit).Respects (Advances own) :=
  .of_readOnly .ensure

theorem ofExcept_advances (x : Except FamiliarError α) :
    (Query.ofExcept x : ControlQuery α).Respects (Advances own) :=
  .of_readOnly .ofExcept

theorem onProjects_advances (f : Table projectSchema → Option (α × Table projectSchema)) :
    (onProjects f).Respects (Advances own) :=
  .changePart fun _ _ ↦ .of_eq rfl rfl

theorem onPools_advances (f : Table poolSchema → Option (α × Table poolSchema)) :
    (onPools f).Respects (Advances own) :=
  .changePart fun _ _ ↦ .of_eq rfl rfl

theorem onReservations_advances (f : Table reservationSchema → Option (α × Table reservationSchema)) :
    (onReservations f).Respects (Advances own) :=
  .changePart fun _ _ ↦ .of_eq rfl rfl

theorem onWorkers_advances (f : Table workerSchema → Option (α × Table workerSchema)) :
    (onWorkers f).Respects (Advances own) :=
  .changePart fun _ _ ↦ .of_eq rfl rfl

theorem modify_advances {p : ExecutionRow → Bool} {f : ExecutionRow → ExecutionRow}
    (hf : ∀ e, e.state ≠ .paused → (f e).state ≠ .paused) :
    (onExecutions fun T ↦ T.modify p f).Respects (Advances own) := by
  refine .change fun S n S' h ↦ ?_
  obtain ⟨⟨_, T⟩, hmodify, hr⟩ := map_eq_some_iff.1 h
  obtain ⟨-, rfl⟩ := Prod.mk.inj hr
  refine ⟨fun v hv ↦ .inl hv, fun hS e he ↦ ?_⟩
  obtain ⟨e', he', rfl⟩ := (Table.mem_update (Table.modify_eq_some hmodify).1).1 he
  split
  · exact hf e' (hS e' he')
  · exact hS e' he'

theorem insertEvent_advances (h : ∀ id, IsEnding id row.eventId → own = some id) :
    (insertEvent row).Respects (Advances own) := by
  refine .change fun S n S' hchange ↦ ?_
  split at hchange
  · obtain ⟨T, hinsert, hr⟩ := map_eq_some_iff.1 hchange
    obtain ⟨-, rfl⟩ := Prod.mk.inj hr
    refine ⟨fun v hv ↦ ?_, fun hS ↦ hS⟩
    rcases (Table.mem_insert hinsert).1 hv with hv | rfl
    · exact .inl hv
    · exact .inr h
  · cases hchange

theorem insertReservationEvent_advances (row : EventRow) :
    (insertReservationEvent row).Respects (Advances own) := by
  refine .write fun S S' h ↦ ?_
  split at h
  · rw [← some.inj h]
    exact .of_eq rfl rfl
  · cases h

theorem sideTable_advances : sideTable.Respects (Advances own) :=
  read_advances _

theorem ensureSlotPool_advances (poolId : String) (capacity occupied : ℕ) :
    (ensureSlotPool poolId capacity occupied).Respects (Advances own) :=
  (ofExcept_advances _).bind fun _ ↦ onPools_advances _

theorem takeSlot_advances (poolId : String) : (takeSlot poolId).Respects (Advances own) :=
  (onPools_advances _).bind fun _ ↦ ensure_advances _ _

theorem insertSlotItem_advances (reservationId poolId : String) :
    (insertSlotItem reservationId poolId).Respects (Advances own) := by
  refine .write fun S S' h ↦ ?_
  split at h
  · obtain ⟨T, -, rfl⟩ := map_eq_some_iff.1 h
    exact .of_eq rfl rfl
  · cases h

theorem acquireControlPlaneReservation_advances (execution project pool : String)
    (attempt generation : ℕ) :
    (acquireControlPlaneReservation execution project attempt generation pool).Respects
      (Advances own) := by
  refine (takeSlot_advances _).bind fun _ ↦ (takeSlot_advances _).bind fun _ ↦
    (read_advances _).bind fun _ ↦ (read_advances _).bind fun _ ↦ ?_
  exact (onReservations_advances _).bind fun _ ↦ (insertSlotItem_advances _ _).bind fun _ ↦
    (insertSlotItem_advances _ _).bind fun _ ↦ (insertReservationEvent_advances _).bind fun _ ↦
      sideTable_advances

theorem releaseControlPlaneReservation_advances (execution reason : String) :
    (releaseControlPlaneReservation execution reason).Respects (Advances own) := by
  refine (read_advances _).bind fun reservation ↦ ?_
  rcases reservation with _ | reservation
  · exact pure_advances _
  exact (read_advances _).bind fun items ↦
    (Query.Respects.forEach (fun _ ↦ onPools_advances _) items).bind fun _ ↦
      (onReservations_advances _).bind fun _ ↦ insertReservationEvent_advances _

/-! ### The operations of the scheduler -/

theorem registerProject_advances (projectId root : String) (priority : ℤ) (ceiling : ℕ) :
    (registerProject projectId root priority ceiling).Respects (Advances own) :=
  onProjects_advances _

theorem setProjectState_advances (projectId state : String) :
    (setProjectState projectId state).Respects (Advances own) :=
  (ofExcept_advances _).bind fun _ ↦ (onProjects_advances _).bind fun _ ↦
    pure_advances _

theorem insertEvent_advances_of_part (s part : String) (hid : row.eventId = s ++ ":" ++ part)
    (hcolon : ':' ∉ part.toList) (hpart : part ∉ endingParts) :
    (insertEvent row).Respects (Advances own) :=
  insertEvent_advances fun id hending ↦ by
    rw [hid] at hending
    exact absurd hending (not_isEnding hcolon hpart)

theorem submit_advances (now : String) (request : Submission) :
    (submit now request).Respects (Advances own) := by
  refine Query.Carries.transaction (Query.Respects.carries ?_)
  refine (read_advances _).bind fun duplicate ↦ ?_
  rcases duplicate with _ | ⟨duplicate, cursor⟩
  · refine Query.Respects.bind (Query.Respects.change fun S n S' h ↦ ?_) fun _ ↦
      (ensure_advances _ _).bind fun _ ↦ ?_
    · split at h
      · obtain ⟨T, hinsert, hr⟩ := map_eq_some_iff.1 h
        obtain ⟨-, rfl⟩ := Prod.mk.inj hr
        refine ⟨fun v hv ↦ .inl hv, fun hS e he ↦ ?_⟩
        rcases (Table.mem_insert hinsert).1 he with he | rfl
        · exact hS e he
        · intro hpaused
          cases hpaused
      · obtain ⟨-, rfl⟩ := Prod.mk.inj (some.inj h)
        exact .of_eq rfl rfl
    · refine (insertEvent_advances_of_part request.executionId "submitted" ?_ (by decide)
        (by decide)).bind fun _ ↦ pure_advances _
      rw [String.append_assoc]
      rfl
  · exact pure_advances _

theorem claimNext_advances (globalCeiling ownerGeneration : ℕ) :
    (claimNext globalCeiling ownerGeneration).Respects (Advances own) := by
  refine Query.Carries.transaction (Query.Respects.carries ?_)
  refine (read_advances _).bind fun occupied ↦
    (ensureSlotPool_advances _ _ _).bind fun _ ↦ ?_
  split
  · exact pure_advances _
  · refine (read_advances _).bind fun selected ↦ ?_
    rcases selected with _ | ⟨e, p⟩
    · exact pure_advances _
    · refine (read_advances _).bind fun _ ↦ (ensureSlotPool_advances _ _ _).bind fun _ ↦
        (acquireControlPlaneReservation_advances _ _ _ _ _).bind fun _ ↦
          Query.Respects.bind ?_ fun _ ↦ Query.Respects.bind ?_ fun _ ↦
            (onProjects_advances _).bind fun _ ↦ pure_advances _
      · refine modify_advances fun _ _ hpaused ↦ ?_
        cases hpaused
      · exact insertEvent_advances_of_part
          (e.executionId ++ ":claimed:" ++ toString ownerGeneration) (toString (e.attempt + 1)) rfl
          (toString_noColon _) (toString_not_ending _)

theorem bindWorker_advances (execution identity : String) (pid : ℕ) (start tokenHash : String)
    (generation : ℕ) :
    (bindWorker execution identity pid start tokenHash generation).Respects (Advances own) := by
  refine Query.Carries.transaction (Query.Respects.carries ?_)
  refine (read_advances _).bind fun _ ↦ (ofExcept_advances _).bind fun _ ↦
    (onWorkers_advances _).bind fun _ ↦ Query.Respects.bind ?_ fun _ ↦ pure_advances _
  exact modify_advances fun _ h ↦ h

theorem finish_advances {state : ExecutionState} (reason : String) :
    (finish id state reason).Respects (Advances (some id)) := by
  refine Query.Respects.ensure_bind fun hterminal ↦
    Query.Carries.transaction (Query.Respects.carries ?_)
  refine (modify_advances fun _ _ hpaused ↦ ?_).bind fun changed ↦ ?_
  · rw [show state = .paused from hpaused] at hterminal
    exact hterminal
  · split
    · refine (insertEvent_advances fun id' hending ↦ ?_).bind fun _ ↦
        (insertEvent_advances fun id' hending ↦ ?_).bind fun _ ↦ sideTable_advances.bind fun _ ↦
          sideTable_advances.bind fun _ ↦ sideTable_advances.bind fun _ ↦
            (releaseControlPlaneReservation_advances _ _).bind fun _ ↦ pure_advances _
      · rw [(isEnding_iff hterminal.name_mem).1 hending]
      · have husage : id ++ ":usage_finalized" = id ++ ":" ++ "usage_finalized" := by
          rw [String.append_assoc]
          rfl
        rw [husage, isEnding_iff (by decide)] at hending
        rw [hending]
    · exact pure_advances _

theorem recoverOne_advances (live : List String) (e : ExecutionRow) :
    (recoverOne live e).Respects (Advances own) := by
  refine (modify_advances fun _ _ ↦ ?_).bind fun _ ↦ Query.Respects.bind ?_ fun _ ↦
    (Query.Respects.when (releaseControlPlaneReservation_advances _ _)).bind fun _ ↦
      (insertEvent_advances_of_part (e.executionId ++ ":recovery")
        (recoveryKind live e.workerIdentity).name ?_ ?_ ?_).bind fun _ ↦
          pure_advances _
  · cases recoveryKind live e.workerIdentity with
    | runnerInterrupted => nofun
    | ambiguousLiveOrphan => nofun
  · cases e.workerIdentity with
    | none => exact pure_advances _
    | some worker => exact (onWorkers_advances _).bind fun _ ↦ pure_advances _
  · show e.executionId ++ ":recovery:" ++ _ = _
    have hrecovery : ":recovery" ++ ":" = ":recovery:" := rfl
    rw [← hrecovery, ← String.append_assoc]
  · cases recoveryKind live e.workerIdentity with
    | runnerInterrupted => decide
    | ambiguousLiveOrphan => decide
  · cases recoveryKind live e.workerIdentity with
    | runnerInterrupted => decide
    | ambiguousLiveOrphan => decide

theorem recoverAll_advances (live : List String) (es : List ExecutionRow) :
    (recoverAll live es).Respects (Advances own) := by
  induction es with
  | nil => exact pure_advances _
  | cons e es ih =>
    exact (recoverOne_advances live e).bind fun _ ↦ ih.bind fun _ ↦ pure_advances _

theorem recoverRunning_advances (live : List String) :
    (recoverRunning live).Respects (Advances own) :=
  (read_advances _).bind fun rows ↦
    .transaction (recoverAll_advances live rows).carries

end Advances

/-- **The invariant of an orderly store.** The slots are accounted for, nothing is paused, and an
execution with the event of an end has ended. -/
structure Orderly (S : ControlStore) : Prop where
  slotted : S.Slotted
  unpaused : ∀ e ∈ S.executions.rows, e.state ≠ .paused
  ended : ∀ v ∈ S.events.rows, ∀ id, IsEnding id v.eventId →
    ∃ s, S.stateOf id = some s ∧ s.IsTerminal

theorem orderly_initial (installationId : Option String) : Orderly (initial installationId) where
  slotted := slotted_initial installationId
  unpaused := forall_mem_nil _
  ended := forall_mem_nil _

theorem Orderly.advances {own : Option String} (hS : Orderly S) (hmoves : ReflTransGen Moves S S')
    (hadvances : Advances own S S')
    (hown : ∀ id ∈ own, ∃ s, S'.stateOf id = some s ∧ s.IsTerminal) : Orderly S' := by
  refine ⟨slotted_of_moves hmoves hS.slotted, hadvances.unpaused hS.unpaused, fun v hv id hid ↦ ?_⟩
  rcases hadvances.events v hv with hv | hnew
  · obtain ⟨s, hs, hterminal⟩ := hS.ended v hv id hid
    exact ⟨s, terminal_of_moves hmoves hs hterminal, hterminal⟩
  · exact hown id (hnew id hid)

/-! ### Finishing an execution -/

theorem finish_runs {reason : String} {changed : Bool}
    (h : (finish id state reason).Runs c changed c') :
    state.IsTerminal ∧
      (changed = true ∧ (c.store.stateOf id = some .running ∨ c.store.stateOf id = some .queued) ∧
        c'.store.stateOf id = some state ∨
      changed = false ∧ c'.store = c.store ∧
        ¬(c.store.stateOf id = some .running ∨ c.store.stateOf id = some .queued)) := by
  obtain ⟨hterminal, h⟩ := h.of_ensure_bind
  obtain ⟨c₁, c₂, hbegin, hbody, hend⟩ := Query.Runs.of_transaction h
  obtain ⟨n, c₃, hupdate, h₃⟩ := hbody.of_bind
  obtain ⟨T, hT, hchanged, hstore⟩ := onExecutions_runs hupdate
  have hid : ∀ r : ExecutionRow, decide (r.executionId = id ∧ (r.state = .running ∨
      r.state = .queued)) = true → r.executionId = id := fun r hr ↦ (of_decide_eq_true hr).1
  refine ⟨hterminal, ?_⟩
  rw [hbegin] at hT hchanged
  split at h₃
  · rename_i hone
    obtain ⟨_, c₄, hevent, h₄⟩ := h₃.of_bind
    obtain ⟨_, c₅, husage, h₅⟩ := h₄.of_bind
    obtain ⟨_, c₆, hhistory, h₆⟩ := h₅.of_bind
    obtain ⟨_, c₇, hevidence, h₇⟩ := h₆.of_bind
    obtain ⟨_, c₈, hobservation, h₈⟩ := h₇.of_bind
    obtain ⟨_, rfl, hrelease⟩ := h₈.of_bind_pure
    have hkeep : Keeps c₃.store c₈.store :=
      ((((insertEvent_keeps _).of_runs hevent).trans ((insertEvent_keeps _).of_runs husage)).trans
        (sideTable_keeps.of_runs hhistory)).trans
          ((sideTable_keeps.of_runs hevidence).trans (sideTable_keeps.of_runs hobservation))
    obtain ⟨e, he, hpe⟩ := exists_execution_of_count hid (by rw [← hchanged, hone]; exact Nat.one_pos)
    refine .inl ⟨rfl, ?_, ?_⟩
    · rw [stateOf, he]
      exact (of_decide_eq_true hpe).2.imp (congrArg some) (congrArg some)
    · have hbecomes : Becomes c.store { c.store with executions := T } id state :=
        becomes_of_update hT (fun _ ↦ rfl) hid he hpe rfl
      have hlast : c'.store.executions = T := by
        rw [hend, (releaseControlPlaneReservation_runs hrelease).1, hkeep.executions, hstore]
      have hstate := hbecomes id
      rw [if_pos rfl] at hstate
      rw [← hstate]
      show (c'.store.executions.find _).map _ = (T.find _).map _
      rw [hlast]
  · rename_i hnone
    obtain ⟨rfl, rfl⟩ := h₃.of_pure
    have hle := count_execution_le_one (S := c.store) hid
    rw [← hchanged] at hle
    have hzero : n = 0 := by omega
    have hnobody := Table.count_eq_zero_iff.1 (hchanged.symm.trans hzero)
    have hsame := Table.update_none hT hnobody
    refine .inr ⟨rfl, ?_, fun hstate ↦ ?_⟩
    · rw [hend, hstore, hsame, hbegin]
    · obtain ⟨e, he, hestate⟩ : ∃ e, c.store.execution id = some e ∧
          (e.state = .running ∨ e.state = .queued) := by
        rcases hstate with hstate | hstate
        all_goals
          obtain ⟨e, he, hestate⟩ := map_eq_some_iff.1 hstate
        · exact ⟨e, he, .inl hestate⟩
        · exact ⟨e, he, .inr hestate⟩
      obtain ⟨hmem, hide⟩ := mem_of_execution he
      have hno := hnobody e hmem
      simp [hide, hestate] at hno

theorem sideTable_returns : Query.Returns sideTable S () S :=
  rfl

theorem finish_returns (reason : String) (hterminal : state.IsTerminal)
    (hstate : S.stateOf id = some .running ∨ S.stateOf id = some .queued)
    (hfresh : ∀ v ∈ S.events.rows, ¬IsEnding id v.eventId) :
    ∃ S', (finish id state reason).Returns S true S' := by
  have hexecution : (S.execution id).isSome := by
    rcases hstate with hstate | hstate
    all_goals
      obtain ⟨e, he, -⟩ := map_eq_some_iff.1 hstate
      rw [he]
      rfl
  obtain ⟨T, hT⟩ := Table.exists_update (T := S.executions)
    (p := fun e ↦ e.executionId = id ∧ (e.state = .running ∨ e.state = .queued))
    (f := fun e ↦ { e with state := state }) (fun _ _ _ ↦ rfl) fun _ _ _ _ ↦ rfl
  have hone : S.executions.count
      (fun e ↦ e.executionId = id ∧ (e.state = .running ∨ e.state = .queued)) = 1 := by
    obtain ⟨e, he⟩ := isSome_iff_exists.1 hexecution
    obtain ⟨hmem, hid⟩ := mem_of_execution he
    have hestate : e.state = .running ∨ e.state = .queued := by
      rw [stateOf, he] at hstate
      exact hstate.imp some.inj some.inj
    have hpos : 0 < S.executions.count
        (fun e ↦ e.executionId = id ∧ (e.state = .running ∨ e.state = .queued)) :=
      Table.count_pos_iff.2 ⟨e, hmem, decide_eq_true ⟨hid, hestate⟩⟩
    have hle := count_execution_le_one (S := S)
      (p := fun e ↦ e.executionId = id ∧ (e.state = .running ∨ e.state = .queued))
      fun r hr ↦ (of_decide_eq_true hr).1
    omega
  have hupdate : (onExecutions fun T ↦ T.modify
      (fun e ↦ e.executionId = id ∧ (e.state = .running ∨ e.state = .queued))
      fun e ↦ { e with state := state }).Returns S 1 { S with executions := T } :=
    .changePart (by rw [Table.modify, hT, hone]; rfl)
  have hstill : ∀ {S' : ControlStore}, S'.executions = T → (S'.execution id).isSome := by
    intro S' hS'
    show (S'.executions.find _).isSome
    rw [hS', Table.find_update hT fun _ ↦ rfl, isSome_map]
    exact hexecution
  have husageId : id ++ ":usage_finalized" = id ++ ":" ++ "usage_finalized" := by
    rw [String.append_assoc]
    rfl
  obtain ⟨cursor, V, hevent⟩ := insertEvent_returns (S := { S with executions := T })
    ⟨id ++ ":" ++ state.name, id, state.name, .reason reason⟩ (hstill rfl) fun v hv heq ↦
      hfresh v hv ⟨state.name, hterminal.name_mem, heq⟩
  obtain ⟨V', hV', hstore⟩ := insertEvent_runs hevent
  obtain rfl : V = V' := congrArg ControlStore.events hstore
  obtain ⟨cursor', V', husage⟩ := insertEvent_returns (S := { S with executions := T, events := V })
    ⟨id ++ ":usage_finalized", id, "usage_finalized", .usageUnknown⟩ (hstill rfl) fun v hv heq ↦ by
      change v.eventId = id ++ ":usage_finalized" at heq
      rw [husageId] at heq
      rcases (Table.mem_insert hV').1 hv with hv | rfl
      · exact hfresh v hv ⟨"usage_finalized", by decide, heq⟩
      · exact state.name_ne_usageFinalized ((String.append_right_inj _).1 heq)
  obtain ⟨S', hrelease⟩ := releaseControlPlaneReservation_returns
    (S := { S with executions := T, events := V' }) id "execution_terminal"
  refine ⟨S', (Query.Returns.ensure hterminal).bind (Query.Returns.transaction ?_)⟩
  refine hupdate.bind ?_
  rw [if_pos rfl]
  exact hevent.bind (husage.bind (sideTable_returns.bind (sideTable_returns.bind
    (sideTable_returns.bind (hrelease.bind Query.Returns.pure)))))

/-! ### The calls of the service -/

/-- One call of the service, or of a repository operation that it is built on. -/
inductive ServiceCall
  | schedule (call : ControlCall)
  | cancel (scope : CapabilityScope) (execution project : String)
  | endForeground (execution : String)
  | mintSession (issuer scope : CapabilityScope) (credential expiresAt : String)
  | revokeSession (now hash : String)
  | requestEscalation (now credential requestJson : String)
  | reportAgentEvent (now credential : String) (authority : Authority) (kind payload : String)
  | recordLateOutcome (execution worker payload : String)

/-- The operation that a call names, without its answer. -/
def ServiceCall.query (service : ControlPlaneService) : ServiceCall → ControlQuery Unit
  | .schedule call => call.query
  | .cancel scope execution project => do
    let _ ← ControlPlaneService.cancel scope execution project
    pure ()
  | .endForeground execution => do
    let _ ← ControlPlaneService.endForeground execution
    pure ()
  | .mintSession issuer scope credential expiresAt => do
    let _ ← service.mintSession issuer scope credential expiresAt
    pure ()
  | .revokeSession now hash => do
    let _ ← FamiliarAi.revokeSession now hash
    pure ()
  | .requestEscalation now credential requestJson => do
    let _ ← service.requestEscalation now credential requestJson
    pure ()
  | .reportAgentEvent now credential authority kind payload => do
    let _ ← service.reportAgentEvent now credential authority kind payload
    pure ()
  | .recordLateOutcome execution worker payload => do
    let _ ← FamiliarAi.recordLateOutcome service.host execution worker payload
    pure ()

/-- The store after a sequence of calls, each with what the engine answers to its statements. -/
def ControlStore.serve (service : ControlPlaneService) (S : ControlStore)
    (calls : List (ServiceCall × List (Option FamiliarError))) : ControlStore :=
  calls.foldl (fun S call ↦ ((call.1.query service).run ⟨S, call.2⟩).2.store) S

def KeepsOrder (S S' : ControlStore) : Prop :=
  Orderly S → Orderly S'

instance : Std.Refl KeepsOrder := ⟨fun _ h ↦ h⟩

instance : IsTrans ControlStore KeepsOrder := ⟨fun _ _ _ h h' hS ↦ h' (h hS)⟩

section KeepsOrder

variable {α : Type} {m : ControlQuery α} {service : ControlPlaneService}

theorem keepsOrder_of_moves (hmoves : m.Respects (ReflTransGen Moves))
    (hadvances : m.Respects (Advances none)) : m.Respects KeepsOrder :=
  fun c hS ↦ hS.advances (hmoves c) (hadvances c) nofun

theorem keepsOrder_of_keeps (hkeeps : m.Respects Keeps) (hadvances : m.Respects (Advances none)) :
    m.Respects KeepsOrder :=
  keepsOrder_of_moves (moves_of_keeps hkeeps) hadvances

theorem keepsOrder_of_readOnly (h : m.ReadOnly) : m.Respects KeepsOrder :=
  .of_readOnly h

theorem finish_keepsOrder (id : String) (state : ExecutionState) (reason : String) :
    (finish id state reason).Respects KeepsOrder := by
  refine .of_atomic (finish_atomic _ _ _) fun c changed c' h hS ↦ ?_
  obtain ⟨hterminal, ⟨-, -, hstate⟩ | ⟨-, hsame, -⟩⟩ := finish_runs h
  · refine hS.advances ((finish_moves id state reason).of_runs h)
      ((finish_advances reason).of_runs h) fun id' hid' ↦ ?_
    obtain rfl : id = id' := some.inj hid'
    exact ⟨state, hstate, hterminal⟩
  · rw [hsame]
    exact hS

theorem control_keepsOrder (call : ControlCall) : call.query.Respects KeepsOrder := by
  have hmoves := query_moves call
  cases call with
  | registerProject projectId root priority ceiling =>
    exact keepsOrder_of_moves hmoves (registerProject_advances _ _ _ _)
  | setProjectState projectId state =>
    exact keepsOrder_of_moves hmoves ((setProjectState_advances _ _).bind fun _ ↦ pure_advances _)
  | submit now request =>
    exact keepsOrder_of_moves hmoves ((submit_advances _ _).bind fun _ ↦ pure_advances _)
  | claimNext globalCeiling generation =>
    exact keepsOrder_of_moves hmoves ((claimNext_advances _ _).bind fun _ ↦ pure_advances _)
  | bindWorker execution identity pid start tokenHash generation =>
    exact keepsOrder_of_moves hmoves (bindWorker_advances _ _ _ _ _ _)
  | finish id state reason =>
    exact (finish_keepsOrder id state reason).bind fun _ ↦ keepsOrder_of_readOnly .pure
  | cancel id =>
    exact (finish_keepsOrder id _ _).bind fun _ ↦ keepsOrder_of_readOnly .pure
  | recoverRunning live =>
    exact keepsOrder_of_moves hmoves ((recoverRunning_advances _).bind fun _ ↦ pure_advances _)

theorem cancel_keepsOrder (scope : CapabilityScope) (execution project : String) :
    (ControlPlaneService.cancel scope execution project).Respects KeepsOrder :=
  (keepsOrder_of_readOnly .ofExcept).bind fun _ ↦
    (keepsOrder_of_readOnly .read).bind fun _ ↦
      (finish_keepsOrder _ _ _).bind fun _ ↦ keepsOrder_of_readOnly .pure

theorem endForeground_keepsOrder (execution : String) :
    (ControlPlaneService.endForeground execution).Respects KeepsOrder := by
  refine (keepsOrder_of_readOnly .read).bind fun record ↦ ?_
  split
  · exact (keepsOrder_of_readOnly .read).bind fun _ ↦
      (finish_keepsOrder _ _ _).bind fun _ ↦ keepsOrder_of_readOnly .pure
  · exact keepsOrder_of_readOnly .pure

theorem write_keepsOrder {f : ControlStore → Option ControlStore} {e : FamiliarError}
    (h : ∀ S S', f S = some S' → S'.executions = S.executions ∧
      S'.reservations = S.reservations ∧ S'.events = S.events) :
    (Query.write e f : ControlQuery Unit).Respects KeepsOrder := by
  refine keepsOrder_of_keeps (.write fun S S' hwrite ↦ ?_) (.write fun S S' hwrite ↦ ?_)
  · obtain ⟨hexecutions, hreservations, -⟩ := h S S' hwrite
    exact ⟨hexecutions, hreservations⟩
  · obtain ⟨hexecutions, -, hevents⟩ := h S S' hwrite
    exact .of_eq hevents hexecutions

theorem mintSession_keepsOrder (issuer scope : CapabilityScope) (credential expiresAt : String) :
    (service.mintSession issuer scope credential expiresAt).Respects KeepsOrder := by
  refine (keepsOrder_of_readOnly .ensure).bind fun _ ↦
    (keepsOrder_of_readOnly .ensure).bind fun _ ↦
      (write_keepsOrder fun S S' h ↦ ?_).bind fun _ ↦ keepsOrder_of_readOnly .pure
  split at h
  · obtain ⟨T, -, rfl⟩ := map_eq_some_iff.1 h
    exact ⟨rfl, rfl, rfl⟩
  · cases h

theorem revokeSession_keepsOrder (now hash : String) :
    (FamiliarAi.revokeSession now hash).Respects KeepsOrder := by
  refine .bind (keepsOrder_of_keeps ?_ ?_) fun _ ↦
    keepsOrder_of_readOnly .pure
  · exact .changePart fun _ _ ↦ ⟨rfl, rfl⟩
  · exact .changePart fun _ _ ↦ .of_eq rfl rfl

theorem authenticate_keepsOrder (now credential : String) :
    (service.authenticate now credential).Respects KeepsOrder :=
  keepsOrder_of_readOnly (.bind .read fun _ ↦ .ofExcept)

theorem requestEscalation_keepsOrder (now credential requestJson : String) :
    (service.requestEscalation now credential requestJson).Respects KeepsOrder := by
  refine (authenticate_keepsOrder _ _).bind fun scope ↦
    (keepsOrder_of_readOnly .ofExcept).bind fun _ ↦
      (keepsOrder_of_readOnly .ofExcept).bind fun project ↦
        (keepsOrder_of_readOnly .ofExcept).bind fun execution ↦
          (keepsOrder_of_readOnly .read).bind fun earlier ↦
            (write_keepsOrder fun S S' h ↦ ?_).bind fun _ ↦
              keepsOrder_of_readOnly .pure
  split at h
  · obtain ⟨T, -, rfl⟩ := map_eq_some_iff.1 h
    exact ⟨rfl, rfl, rfl⟩
  · cases h

theorem reportAgentEvent_keepsOrder (now credential : String) (authority : Authority)
    (kind payload : String) :
    (service.reportAgentEvent now credential authority kind payload).Respects KeepsOrder := by
  refine (authenticate_keepsOrder _ _).bind fun scope ↦
    (keepsOrder_of_readOnly .ofExcept).bind fun _ ↦
      (keepsOrder_of_readOnly .ofExcept).bind fun execution ↦
        (keepsOrder_of_readOnly .ensure).bind fun _ ↦
          (keepsOrder_of_readOnly .ensure).bind fun _ ↦
            (keepsOrder_of_readOnly .read).bind fun sequence ↦ ?_
  exact keepsOrder_of_keeps (insertEvent_keeps _) (insertEvent_advances_of_part
    (execution ++ ":" ++ kind) (toString sequence) rfl (toString_noColon _) (toString_not_ending _))

theorem recordLateOutcome_keepsOrder (host : Host) (execution worker payload : String) :
    (FamiliarAi.recordLateOutcome host execution worker payload).Respects KeepsOrder := by
  refine (keepsOrder_of_readOnly .ensure).bind fun _ ↦
    (keepsOrder_of_readOnly .read).bind fun attempt ↦ ?_
  rcases attempt with _ | attempt
  · exact keepsOrder_of_readOnly .pure
  refine .bind (keepsOrder_of_keeps (.write fun S S' h ↦ ?_)
    (.write fun S S' h ↦ ?_)) fun _ ↦ keepsOrder_of_readOnly .pure
  · split at h
    · obtain rfl := some.inj h
      exact ⟨rfl, rfl⟩
    · cases h
  · split at h
    · obtain rfl := some.inj h
      refine ⟨fun v hv ↦ ?_, fun hS ↦ hS⟩
      rcases Table.mem_insertOrIgnore hv with hv | rfl
      · exact .inl hv
      · exact .inr fun id hending ↦
          absurd hending (not_isEnding (toString_noColon _) (toString_not_ending _))
    · cases h

theorem serviceCall_keepsOrder (call : ServiceCall) : (call.query service).Respects KeepsOrder := by
  cases call with
  | schedule call => exact control_keepsOrder call
  | cancel scope execution project =>
    exact (cancel_keepsOrder _ _ _).bind fun _ ↦ keepsOrder_of_readOnly .pure
  | endForeground execution =>
    exact (endForeground_keepsOrder _).bind fun _ ↦ keepsOrder_of_readOnly .pure
  | mintSession issuer scope credential expiresAt =>
    exact (mintSession_keepsOrder _ _ _ _).bind fun _ ↦ keepsOrder_of_readOnly .pure
  | revokeSession now hash =>
    exact (revokeSession_keepsOrder _ _).bind fun _ ↦ keepsOrder_of_readOnly .pure
  | requestEscalation now credential requestJson =>
    exact (requestEscalation_keepsOrder _ _ _).bind fun _ ↦
      keepsOrder_of_readOnly .pure
  | reportAgentEvent now credential authority kind payload =>
    exact (reportAgentEvent_keepsOrder _ _ _ _ _).bind fun _ ↦
      keepsOrder_of_readOnly .pure
  | recordLateOutcome execution worker payload =>
    exact (recordLateOutcome_keepsOrder _ _ _ _).bind fun _ ↦
      keepsOrder_of_readOnly .pure

theorem serve_orderly {calls : List (ServiceCall × List (Option FamiliarError))} (hS : Orderly S) :
    Orderly (S.serve service calls) := by
  induction calls generalizing S with
  | nil => exact hS
  | cons call calls ih => exact ih (serviceCall_keepsOrder call.1 ⟨S, call.2⟩ hS)

end KeepsOrder

/-! ### What ends an execution -/

/-- The operation ends the execution: it succeeds on an engine without faults, and where it succeeds the
execution has ended and holds no slot. Where it fails, nothing has changed. -/
structure Ends (S : ControlStore) (id : String) (state : ExecutionState)
    (m : ControlQuery (Option ℕ × Bool)) : Prop where
  returns : ∃ pid S', m.Returns S (pid, true) S'
  ended : ∀ faults pid changed c', m.Runs ⟨S, faults⟩ (pid, changed) c' →
    changed = true ∧ state.IsTerminal ∧ c'.store.stateOf id = some state ∧ c'.store.holds id = 0
  failed : ∀ faults e c', m.Fails ⟨S, faults⟩ e c' → c'.store = S

/-- Whatever the engine answers, the operation leaves the store as it is. -/
def Spared (S : ControlStore) (m : ControlQuery (Option ℕ × Bool)) : Prop :=
  ∀ faults, (m.run ⟨S, faults⟩).2.store = S

section Ends

variable {scope : CapabilityScope} {project : String} {state : ExecutionState} {pid : Option ℕ}
  {changed : Bool}

theorem holds_eq_zero (hS : Orderly S) {s : ExecutionState} (hs : S.stateOf id = some s)
    (hterminal : s.IsTerminal) : S.holds id = 0 := by
  rw [hS.slotted id, hs, any_some, hterminal.not_occupies]
  rfl

theorem Ends.of_finish {m : ControlQuery (Option ℕ × Bool)} (reason : String) (hS : Orderly S)
    (hterminal : state.IsTerminal)
    (hstate : S.stateOf id = some .running ∨ S.stateOf id = some .queued)
    (hreturns : ∀ S', (finish id state reason).Returns S true S' → ∃ pid, m.Returns S (pid, true) S')
    (hruns : ∀ faults pid changed c', m.Runs ⟨S, faults⟩ (pid, changed) c' →
      ∃ c₁ c₂, c₁.store = S ∧ (finish id state reason).Runs c₁ changed c₂ ∧ c'.store = c₂.store)
    (hatomic : m.Atomic) : Ends S id state m := by
  refine ⟨?_, fun faults pid changed c' h ↦ ?_, fun faults e c' h ↦ hatomic _ e c' h⟩
  · obtain ⟨S', hfinish⟩ := finish_returns reason hterminal hstate fun v hv hending ↦ by
      obtain ⟨s, hs, hended⟩ := hS.ended v hv id hending
      rcases hstate with hstate | hstate
      · cases hstate.symm.trans hs
        exact hended
      · cases hstate.symm.trans hs
        exact hended
    obtain ⟨pid, hm⟩ := hreturns S' hfinish
    exact ⟨pid, S', hm⟩
  · obtain ⟨c₁, c₂, hc₁, hfinish, hc'⟩ := hruns _ pid changed c' h
    have hS' : Orderly c₂.store := (finish_keepsOrder id state reason).of_runs hfinish (hc₁ ▸ hS)
    rw [hc']
    obtain ⟨-, ⟨rfl, -, hlast⟩ | ⟨-, -, hno⟩⟩ := finish_runs hfinish
    · exact ⟨rfl, hterminal, hlast, holds_eq_zero hS' hlast hterminal⟩
    · rw [hc₁] at hno
      exact absurd hstate hno

theorem cancel_runs (h : (ControlPlaneService.cancel scope id project).Runs c (pid, changed) c') :
    ∃ c₁ c₂, c₁.store = c.store ∧
      (finish id .cancelled "operator_cancelled").Runs c₁ changed c₂ ∧ c'.store = c₂.store := by
  obtain ⟨_, -, h₁⟩ := h.of_ofExcept_bind
  obtain ⟨_, c₂, hpid, h₂⟩ := h₁.of_bind
  obtain ⟨_, c₃, hfinish, hpure⟩ := h₂.of_bind
  obtain ⟨heq, rfl⟩ := hpure.of_pure
  obtain ⟨-, rfl⟩ := Prod.mk.inj heq
  exact ⟨c₂, c₃, hpid.of_read.2, hfinish, rfl⟩

theorem cancel_atomic : (ControlPlaneService.cancel scope id project).Atomic :=
  .bind .ofExcept fun _ ↦ .bind .read fun _ ↦
    .bind_pure (finish_atomic _ _ _)

theorem cancel_ends (hS : Orderly S) (hauthorised : require scope .control project (some id) = .ok ())
    (hstate : S.stateOf id = some .running ∨ S.stateOf id = some .queued) :
    Ends S id .cancelled (ControlPlaneService.cancel scope id project) := by
  have hrequire : Query.Returns (.ofExcept (require scope .control project (some id))) S () S :=
    Query.runs_ofExcept.2 ⟨hauthorised, rfl⟩
  refine Ends.of_finish "operator_cancelled" hS trivial hstate (fun S' hfinish ↦ ?_)
    (fun _ _ _ _ ↦ cancel_runs) cancel_atomic
  exact ⟨(S.workerPid id).filter (· < 2 ^ 31),
    hrequire.bind (Query.Returns.read.bind (hfinish.bind .pure))⟩

theorem cancel_spared (hstate : ¬(S.stateOf id = some .running ∨ S.stateOf id = some .queued)) :
    Spared S (ControlPlaneService.cancel scope id project) := by
  intro faults
  cases hrun : (ControlPlaneService.cancel scope id project).run ⟨S, faults⟩ with
  | mk r c' =>
    rcases r with e | a
    · exact cancel_atomic _ e c' hrun
    obtain ⟨c₁, c₂, hc₁, hfinish, hc'⟩ := cancel_runs hrun
    obtain ⟨-, ⟨-, hlive, -⟩ | ⟨-, hsame, -⟩⟩ := finish_runs hfinish
    · rw [hc₁] at hlive
      exact absurd hlive hstate
    · rw [hc', hsame, hc₁]

theorem endForeground_runs (h : (ControlPlaneService.endForeground id).Runs c (pid, changed) c') :
    (c.store.execution id).any (·.mode = .foregroundOnly) = true ∧
        (∃ c₁ c₂, c₁.store = c.store ∧
          (finish id .foregroundEnded "foreground_session_ended").Runs c₁ changed c₂ ∧
            c'.store = c₂.store) ∨
      (c.store.execution id).any (·.mode = .foregroundOnly) = false ∧ c'.store = c.store := by
  obtain ⟨c₁, hc₁, h₁⟩ := h.of_read_bind
  split at h₁
  · rename_i hforeground
    obtain ⟨_, c₂, hpid, h₂⟩ := h₁.of_bind
    obtain ⟨_, c₃, hfinish, hpure⟩ := h₂.of_bind
    obtain ⟨heq, rfl⟩ := hpure.of_pure
    obtain ⟨-, rfl⟩ := Prod.mk.inj heq
    exact .inl ⟨hforeground, c₂, c₃, hpid.of_read.2.trans hc₁, hfinish, rfl⟩
  · rename_i hforeground
    obtain ⟨-, rfl⟩ := h₁.of_pure
    exact .inr ⟨by simpa using hforeground, hc₁⟩

theorem endForeground_atomic (id : String) : (ControlPlaneService.endForeground id).Atomic := by
  refine .bind .read fun record ↦ ?_
  split
  · exact .bind .read fun _ ↦
      .bind_pure (finish_atomic _ _ _)
  · exact Query.ReadOnly.pure.atomic

theorem endForeground_ends (hS : Orderly S)
    (hforeground : (S.execution id).any (·.mode = .foregroundOnly) = true)
    (hstate : S.stateOf id = some .running ∨ S.stateOf id = some .queued) :
    Ends S id .foregroundEnded (ControlPlaneService.endForeground id) := by
  have hterminal : ExecutionState.foregroundEnded.IsTerminal := trivial
  refine Ends.of_finish "foreground_session_ended" hS hterminal hstate (fun S' hfinish ↦ ?_) (fun faults pid changed c' h ↦ ?_)
    (endForeground_atomic id)
  · refine ⟨(S.workerPid id).filter (· < 2 ^ 31), Query.Returns.read.bind ?_⟩
    rw [if_pos hforeground]
    exact Query.Returns.read.bind (hfinish.bind .pure)
  · rcases endForeground_runs h with ⟨-, hfinish⟩ | ⟨hno, -⟩
    · exact hfinish
    · cases hforeground.symm.trans hno

theorem endForeground_spared
    (hspared : (S.execution id).any (·.mode = .foregroundOnly) = false ∨
      ¬(S.stateOf id = some .running ∨ S.stateOf id = some .queued)) :
    Spared S (ControlPlaneService.endForeground id) := by
  intro faults
  cases hrun : (ControlPlaneService.endForeground id).run ⟨S, faults⟩ with
  | mk r c' =>
    rcases r with e | a
    · exact endForeground_atomic id _ e c' hrun
    rcases endForeground_runs hrun with ⟨hforeground, c₁, c₂, hc₁, hfinish, hc'⟩ | ⟨-, hsame⟩
    · obtain ⟨-, ⟨-, hlive, -⟩ | ⟨-, hsame, -⟩⟩ := finish_runs hfinish
      · rw [hc₁] at hlive
        rcases hspared with hno | hno
        · cases hforeground.symm.trans hno
        · exact absurd hlive hno
      · rw [hc', hsame, hc₁]
    · exact hsame

end Ends

/-- **Ending an execution, in every reachable store.** What has not ended is queued or running, or is a
live orphan. An authorised cancel ends what is queued or running, and so does the end of its foreground
session; a live orphan is left with the slot that it holds. -/
theorem serve_ends (service : ControlPlaneService) (installationId : Option String)
    (calls : List (ServiceCall × List (Option FamiliarError))) (id : String) (s : ExecutionState)
    (hstate : ((initial installationId).serve service calls).stateOf id = some s)
    (hlive : ¬s.IsTerminal) :
    let S := (initial installationId).serve service calls
    (s = .queued ∨ s = .running) ∧
        (∀ scope project, require scope .control project (some id) = .ok () →
          Ends S id .cancelled (ControlPlaneService.cancel scope id project)) ∧
        (if (S.execution id).any (·.mode = .foregroundOnly) then
          Ends S id .foregroundEnded (ControlPlaneService.endForeground id)
        else Spared S (ControlPlaneService.endForeground id)) ∨
      s = .ambiguousLiveOrphan ∧ S.holds id = 1 ∧
        (∀ scope project, Spared S (ControlPlaneService.cancel scope id project)) ∧
        Spared S (ControlPlaneService.endForeground id) := by
  intro S
  have hS : Orderly S := serve_orderly (orderly_initial installationId)
  have hends : s = .queued ∨ s = .running → S.stateOf id = some .running ∨ S.stateOf id = some .queued := by
    rintro (rfl | rfl)
    · exact .inr hstate
    · exact .inl hstate
  cases s with
  | completed | failed | cancelled | foregroundEnded => exact absurd trivial hlive
  | queued | running =>
    have hrun := hends (by simp)
    refine .inl ⟨by simp, fun scope project hauthorised ↦ cancel_ends hS hauthorised hrun, ?_⟩
    split
    · exact endForeground_ends hS ‹_› hrun
    · rename_i hmode
      exact endForeground_spared (.inl (by simpa using hmode))
  | paused =>
    obtain ⟨e, he, hpaused⟩ := map_eq_some_iff.1 hstate
    exact absurd hpaused (hS.unpaused e (mem_of_execution he).1)
  | ambiguousLiveOrphan =>
    have hno : ¬(S.stateOf id = some .running ∨ S.stateOf id = some .queued) := by
      rintro (h | h) <;> cases hstate.symm.trans h
    refine .inr ⟨rfl, ?_, fun scope project ↦ cancel_spared hno, endForeground_spared (.inr hno)⟩
    rw [hS.slotted id, hstate]
    rfl

def hostOperator : CapabilityScope :=
  ⟨.operator, none, none, none, none, [.observe, .control]⟩

/-- A service on a host that takes every text for JSON. -/
def plainService : ControlPlaneService :=
  { host := ⟨fun credential ↦ credential, fun _ ↦ true⟩ }

def boundWorker : List (ServiceCall × List (Option FamiliarError)) :=
  [(.schedule (.registerProject "alpha" "/alpha" 0 1), []),
    (.schedule (.submit "t" ⟨"a1", "alpha", "k1", .foregroundOnly, 0, "[]"⟩), []),
    (.schedule (.claimNext 1 1), []), (.schedule (.bindWorker "a1" "w1" 4711 "boot-7" "token" 1), [])]

/-- A cancel of it ends it, and gives its slot back. -/
theorem serve_ends_boundWorker :
    Ends ((initial none).serve plainService boundWorker) "a1" .cancelled
      (ControlPlaneService.cancel hostOperator "a1" "alpha") := by
  have hends := serve_ends plainService none boundWorker "a1" .running (by decide +kernel) (by decide)
  rcases hends with ⟨-, hcancel, -⟩ | ⟨horphan, -⟩
  · exact hcancel hostOperator "alpha" (by decide +kernel)
  · cases horphan

/-- Recovery finds its worker alive. -/
def liveOrphan : ControlStore :=
  (initial none).serve plainService (boundWorker ++ [(.schedule (.recoverRunning ["w1"]), [])])

/-- A cancel of a live orphan, and the end of its session, leave it with its slot. The process of an
execution that has completed is still signalled. -/
theorem liveOrphan_remains :
    (liveOrphan.stateOf "a1" = some .ambiguousLiveOrphan ∧
      ∀ m ∈ [ControlPlaneService.cancel hostOperator "a1" "alpha", ControlPlaneService.endForeground "a1"],
        (m.run ⟨liveOrphan, []⟩).1 = .ok (none, false) ∧
          (m.run ⟨liveOrphan, []⟩).2.store.stateOf "a1" = some .ambiguousLiveOrphan ∧
          (m.run ⟨liveOrphan, []⟩).2.store.holds "a1" = 1) ∧
      let S := (initial none).serve plainService
        (boundWorker ++ [(.schedule (.finish "a1" .completed "worker_exited"), [])])
      S.stateOf "a1" = some .completed ∧
        ((ControlPlaneService.cancel hostOperator "a1" "alpha").run ⟨S, []⟩).1 = .ok (some 4711, false) := by
  decide +kernel

end FamiliarAi
