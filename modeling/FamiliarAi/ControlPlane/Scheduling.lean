import FamiliarAi.ControlPlane.Slots

/-!
# The scheduling operations are sequences of moves

Each operation of the control plane, at whatever statement it fails, takes the store through a
sequence of the moves of `FamiliarAi.ControlPlane.Slots`. A successful claim is looked at more
closely: it stays within the global ceiling and the ceiling of the project it claims for.
-/

namespace FamiliarAi

open Relational Relation ControlStore

variable {S S' : ControlStore} {c c' : Connection ControlStore FamiliarError} {id : String}
  {p : ExecutionRow → Bool} {e : ExecutionRow} {T : Table executionSchema}
  {f : ExecutionRow → ExecutionRow} {s : ExecutionState}

theorem onExecutions_runs {n : ℕ} (h : (onExecutions fun T ↦ T.modify p f).Runs c n c') :
    ∃ T, c.store.executions.update p f = some T ∧ n = c.store.executions.count p ∧
      c'.store = { c.store with executions := T } := by
  obtain ⟨T, hT, hstore⟩ := Query.Runs.of_changePart h
  obtain ⟨hupdate, hn⟩ := Table.modify_eq_some hT
  exact ⟨T, hupdate, hn, hstore⟩

theorem execution_eq_some (he : e ∈ S.executions.rows) (hid : e.executionId = id) :
    S.execution id = some e :=
  Table.find_eq_of_key he (by simpa using hid) fun e' _ h' ↦ by
    simp [executionSchema, hid, of_decide_eq_true h']

theorem mem_of_execution (h : S.execution id = some e) :
    e ∈ S.executions.rows ∧ e.executionId = id := by
  obtain ⟨hmem, hid⟩ := Table.find_some h
  exact ⟨hmem, of_decide_eq_true hid⟩

theorem becomes_of_update (h : S.executions.update p f = some T)
    (hf : ∀ r, (f r).executionId = r.executionId) (hp : ∀ r, p r = true → r.executionId = id)
    (he : S.execution id = some e) (hpe : p e = true) (hs : (f e).state = s) :
    Becomes S { S with executions := T } id s := by
  intro id'
  show (T.find fun e ↦ decide (e.executionId = id')).map _ = _
  rw [Table.find_update h fun r ↦ by rw [hf]]
  show ((S.execution id').map _).map _ = _
  by_cases heq : id' = id
  · rw [if_pos heq, heq, he]
    simp [hpe, hs]
  · rw [if_neg heq, stateOf]
    rcases hfind : S.execution id' with _ | r
    · rfl
    have hid := (mem_of_execution hfind).2
    have hpr : p r = false := by
      by_contra hpr
      exact heq (hid.symm.trans (hp r (by simpa using hpr)))
    simp [hpr]

theorem exists_execution_of_count (hp : ∀ r, p r = true → r.executionId = id)
    (hcount : 0 < S.executions.count p) :
    ∃ e, S.execution id = some e ∧ p e = true := by
  obtain ⟨e, he, hpe⟩ := Table.count_pos_iff.1 hcount
  exact ⟨e, execution_eq_some he (hp e hpe), hpe⟩

theorem registerProject_keeps (projectId root : String) (priority : ℤ) (ceiling : ℕ) :
    (registerProject projectId root priority ceiling).Respects Keeps :=
  onProjects_keeps _

theorem setProjectState_keeps (projectId state : String) :
    (setProjectState projectId state).Respects Keeps :=
  (ofExcept_keeps _).bind fun _ ↦ (onProjects_keeps _).bind fun _ ↦ pure_keeps _

theorem moves_of_keeps {α : Type} {m : ControlQuery α} (h : m.Respects Keeps) :
    m.Respects (ReflTransGen Moves) :=
  fun c ↦ ReflTransGen.single (h c).moves

theorem moves_of_insert (h : S.executions.insert e = some T) (hqueued : e.state = .queued) :
    Moves S { S with executions := T } := by
  have hnone : S.execution e.executionId = none := by
    rcases hfind : S.execution e.executionId with _ | e'
    · rfl
    obtain ⟨hmem, hid⟩ := mem_of_execution hfind
    have hclash := Table.not_clash_of_insert h hmem
    simp [executionSchema, hid] at hclash
  refine .queue e.executionId (congrArg (Option.map _) hnone) (fun id' ↦ ?_) fun _ ↦ rfl
  show (T.find fun e ↦ decide (e.executionId = id')).map _ = _
  rw [Table.find_insert h]
  show ((S.execution id').or _).map _ = _
  by_cases heq : id' = e.executionId
  · rw [if_pos heq, heq, hnone]
    simp [hqueued]
  · rw [if_neg heq, stateOf]
    have hne : ¬e.executionId = id' := fun h ↦ heq h.symm
    cases hfind : S.execution id' with
    | none => simp [hne]
    | some r => simp

theorem submit_moves (now : String) (request : Submission) :
    (submit now request).Respects (ReflTransGen Moves) := by
  refine .transaction fun c a c' h ↦ ?_
  obtain ⟨duplicate, c₁, hread, h₁⟩ := h.of_bind
  rw [← hread.of_read.2]
  split at h₁
  · obtain ⟨-, rfl⟩ := h₁.of_pure
    exact .refl
  · obtain ⟨changed, c₂, hinsert, h₂⟩ := h₁.of_bind
    obtain ⟨rfl, h₃⟩ := h₂.of_ensure_bind
    obtain ⟨cursor, -, hevent⟩ := h₃.of_bind_pure
    have hchange := hinsert.of_change
    split at hchange
    · obtain ⟨T, hT, hr⟩ := Option.map_eq_some_iff.1 hchange
      have hqueue : Moves c₁.store c₂.store := by
        rw [← (Prod.mk.inj hr).2]
        exact moves_of_insert hT rfl
      exact (ReflTransGen.single hqueue).tail ((insertEvent_keeps _).of_runs hevent).moves
    · -- no row was inserted
      cases (Prod.mk.inj (Option.some.inj hchange)).1

theorem nextClaim_spec {p : ProjectRow} (h : S.nextClaim = some (e, p)) :
    e ∈ S.executions.rows ∧ e.state = .queued ∧ S.project e.projectId = some p ∧
      p.state = .active ∧ (S.occupiedIn e.projectId : ℤ) < p.concurrencyCeiling := by
  have hmem := (List.mem_insertionSort _).1 (List.mem_of_head? h)
  obtain ⟨e', he', hcandidate⟩ := List.mem_filterMap.1 hmem
  split at hcandidate
  · rename_i p' hp'
    split at hcandidate
    · rename_i hadmitted
      cases hcandidate
      exact ⟨he', hadmitted.1, hp', hadmitted.2⟩
    · cases hcandidate
  · cases hcandidate

/-- What a claim does: nothing, or it moves the next candidate to `running`, for which there was room
under both ceilings. -/
theorem claimNext_runs {globalCeiling ownerGeneration : ℕ} {a : Option String}
    (h : (claimNext globalCeiling ownerGeneration).Runs c a c') :
    a = none ∧ Keeps c.store c'.store ∨
      ∃ e p T, a = some e.executionId ∧ e ∈ c.store.executions.rows ∧ e.state = .queued ∧
        c.store.project e.projectId = some p ∧ p.state = .active ∧
        c.store.occupied < globalCeiling ∧
        (c.store.occupiedIn e.projectId : ℤ) < p.concurrencyCeiling ∧
        c.store.executions.update (fun r ↦ r.executionId = e.executionId ∧ r.state = .queued)
          (fun r ↦ { r with state := .running, attempt := r.attempt + 1 }) = some T ∧
        c'.store.executions = T ∧
        ∀ id, c'.store.holds id = c.store.holds id + if id = e.executionId then 1 else 0 := by
  obtain ⟨c₀, c₉, hstore, hbody, hstore'⟩ := h.of_transaction
  rw [hstore', ← hstore]
  obtain ⟨occupied, c₁, hread, h₁⟩ := hbody.of_bind
  obtain ⟨hoccupied, hstore₁⟩ := hread.of_read
  obtain ⟨_, c₂, hpool, h₂⟩ := h₁.of_bind
  obtain ⟨pools, hstore₂⟩ := ensureSlotPool_runs hpool
  rw [hstore₁] at hstore₂
  have hkeep : Keeps c₀.store c₂.store := by
    rw [hstore₂]
    exact ⟨rfl, rfl⟩
  split at h₂
  · obtain ⟨ha, rfl⟩ := h₂.of_pure
    cases ha
    exact .inl ⟨rfl, hkeep⟩
  · rename_i hroom
    obtain ⟨selected, c₃, hselected, h₃⟩ := h₂.of_bind
    obtain ⟨hnext, hstore₃⟩ := hselected.of_read
    split at h₃
    · obtain ⟨ha, rfl⟩ := h₃.of_pure
      cases ha
      refine .inl ⟨rfl, ?_⟩
      rw [hstore₃]
      exact hkeep
    · rename_i _ e p
      obtain ⟨he, hqueued, hproject, hactive, hceiling⟩ := nextClaim_spec hnext.symm
      rw [hkeep.executions] at he
      rw [hstore₂] at hproject
      rw [hkeep.occupiedIn] at hceiling
      obtain ⟨projectOccupied, c₄, hread', h₄⟩ := h₃.of_bind
      obtain ⟨_, c₅, hpool', h₅⟩ := h₄.of_bind
      obtain ⟨_, c₆, hacquire, h₆⟩ := h₅.of_bind
      obtain ⟨_, c₇, hclaim, h₇⟩ := h₆.of_bind
      obtain ⟨_, c₈, hevent, h₈⟩ := h₇.of_bind
      obtain ⟨_, c₁₀, hsequence, hpure⟩ := h₈.of_bind
      obtain ⟨ha, rfl⟩ := hpure.of_pure
      have hbefore : Keeps c₀.store c₅.store := by
        refine (hkeep.trans ?_).trans ((ensureSlotPool_keeps _ _ _).of_runs hpool')
        rw [← hstore₃]
        exact (read_keeps _).of_runs hread'
      have hrest : Keeps c₇.store c₁₀.store :=
        ((insertEvent_keeps _).of_runs hevent).trans ((onProjects_keeps _).of_runs hsequence)
      obtain ⟨hexecutions, hholds⟩ := acquireControlPlaneReservation_runs hacquire
      obtain ⟨T, hT, -, hstore₇⟩ := onExecutions_runs hclaim
      rw [hexecutions, hbefore.executions] at hT
      refine .inr ⟨e, p, T, ha.symm, he, hqueued, hproject, hactive, ?_,
        hceiling, hT, ?_, fun id ↦ ?_⟩
      · rw [← hoccupied]
        omega
      · rw [hrest.executions, hstore₇]
      · rw [hrest.holds, hstore₇, ← hbefore.holds]
        exact hholds id

theorem moves_of_claim (he : e ∈ S.executions.rows) (hqueued : e.state = .queued)
    (hT : S.executions.update (fun r ↦ r.executionId = e.executionId ∧ r.state = .queued) (fun r ↦ { r with state := .running, attempt := r.attempt + 1 }) = some T)
    (hexecutions : S'.executions = T)
    (hholds : ∀ id, S'.holds id = S.holds id + if id = e.executionId then 1 else 0) :
    Moves S S' := by
  have hfind := execution_eq_some he rfl
  refine .claim e.executionId ?_ (fun id' ↦ ?_) hholds
  · rw [stateOf, hfind, Option.map_some, hqueued]
  · have hbecomes := becomes_of_update (s := .running) hT (fun _ ↦ rfl)
      (fun r hr ↦ (of_decide_eq_true hr).1) hfind (by simp [hqueued]) rfl id'
    rw [← hbecomes]
    show (S'.executions.find _).map _ = _
    rw [hexecutions]
    rfl

theorem claimNext_moves (globalCeiling ownerGeneration : ℕ) :
    (claimNext globalCeiling ownerGeneration).Respects (ReflTransGen Moves) := by
  refine .of_atomic .transaction fun c a c' h ↦ ReflTransGen.single ?_
  rcases claimNext_runs h with ⟨-, hkeep⟩ |
    ⟨e, p, T, -, he, hqueued, -, -, -, -, hT, hexecutions, hholds⟩
  · exact hkeep.moves
  · exact moves_of_claim he hqueued hT hexecutions hholds

theorem moves_of_update_of_state (h : S.executions.update p f = some T)
    (hf : ∀ r, (f r).executionId = r.executionId) (hstate : ∀ r, (f r).state = r.state) :
    Moves S { S with executions := T } := by
  refine .keep (fun id' ↦ ?_) fun _ ↦ rfl
  show (T.find fun e ↦ decide (e.executionId = id')).map _ = _
  rw [Table.find_update h fun r ↦ by rw [hf], Option.map_map]
  show (S.execution id').map _ = (S.execution id').map _
  congr 1
  funext r
  show (if p r then f r else r).state = r.state
  split
  · exact hstate r
  · rfl

theorem bindWorker_moves (execution identity : String) (pid : ℕ) (start tokenHash : String)
    (generation : ℕ) :
    (bindWorker execution identity pid start tokenHash generation).Respects
      (ReflTransGen Moves) := by
  refine .transaction fun c a c' h ↦ ?_
  obtain ⟨attempt, c₁, hread, h₁⟩ := h.of_bind
  obtain ⟨attempt', -, h₂⟩ := h₁.of_ofExcept_bind
  obtain ⟨_, c₃, hworker, h₃⟩ := h₂.of_bind
  obtain ⟨_, -, hbind⟩ := h₃.of_bind_pure
  have hkeep : Keeps c.store c₃.store :=
    ((read_keeps _).of_runs hread).trans ((onWorkers_keeps _).of_runs hworker)
  obtain ⟨T, hT, -, hstore⟩ := onExecutions_runs hbind
  rw [hstore]
  exact (ReflTransGen.single hkeep.moves).tail
    (moves_of_update_of_state hT (fun _ ↦ rfl) fun _ ↦ rfl)

theorem moves_of_leave {S₁ S₂ S₃ : ControlStore}
    (hfrom : S.stateOf id = some .running ∨ S.stateOf id = some .queued)
    (hfree : s.occupies = false) (hstate : Becomes S S₁ id s)
    (hreservations : S₁.reservations = S.reservations) (hkeep : Keeps S₁ S₂)
    (hexecutions : S₃.executions = S₂.executions)
    (hholds : ∀ id', S₃.holds id' = S₂.holds id' - if id' = id then 1 else 0) (hlast : Keeps S₃ S')
    :
    Moves S S' := by
  refine .leave id s hfrom hfree (fun id' ↦ ?_) fun id' ↦ ?_
  · have hsame : S₃.stateOf id' = S₂.stateOf id' := by
      show (S₃.executions.find _).map _ = _
      rw [hexecutions]
      rfl
    rw [hlast.stateOf, hsame, hkeep.stateOf, hstate]
  · have hsame : S₁.holds id' = S.holds id' := by
      show S₁.reservations.count _ = _
      rw [hreservations]
      rfl
    rw [hlast.holds, hholds, hkeep.holds, hsame]

theorem count_execution_le_one (hp : ∀ r, p r = true → r.executionId = id) :
    S.executions.count p ≤ 1 :=
  Table.count_le_one fun r _ r' _ hr hr' ↦ by
    simp [executionSchema, hp r hr, hp r' hr']

theorem finish_atomic (id : String) (state : ExecutionState) (reason : String) :
    (finish id state reason).Atomic :=
  .bind .ensure fun _ ↦ .transaction

theorem finish_moves (id : String) (state : ExecutionState) (reason : String) :
    (finish id state reason).Respects (ReflTransGen Moves) := by
  refine .ensure_bind fun hterminal ↦ .transaction fun c a c' h ↦ ?_
  obtain ⟨changed, c₁, hupdate, h₁⟩ := h.of_bind
  obtain ⟨T, hT, hchanged, hstore⟩ := onExecutions_runs hupdate
  have hid : ∀ r : ExecutionRow, decide (r.executionId = id ∧ (r.state = .running ∨
      r.state = .queued)) = true → r.executionId = id := fun r hr ↦ (of_decide_eq_true hr).1
  split at h₁
  · rename_i hone
    obtain ⟨_, c₂, hevent, h₂⟩ := h₁.of_bind
    obtain ⟨_, c₃, husage, h₃⟩ := h₂.of_bind
    obtain ⟨_, c₄, hhistory, h₄⟩ := h₃.of_bind
    obtain ⟨_, c₅, hevidence, h₅⟩ := h₄.of_bind
    obtain ⟨_, c₆, hobservation, h₆⟩ := h₅.of_bind
    obtain ⟨_, -, hrelease⟩ := h₆.of_bind_pure
    have hkeep : Keeps c₁.store c₆.store :=
      ((((insertEvent_keeps _).of_runs hevent).trans ((insertEvent_keeps _).of_runs husage)).trans
        (sideTable_keeps.of_runs hhistory)).trans
          ((sideTable_keeps.of_runs hevidence).trans (sideTable_keeps.of_runs hobservation))
    obtain ⟨hexecutions, hholds⟩ := releaseControlPlaneReservation_runs hrelease
    obtain ⟨e, he, hpe⟩ := exists_execution_of_count hid (by rw [← hchanged, hone]; exact Nat.one_pos)
    have hfrom : c.store.stateOf id = some .running ∨ c.store.stateOf id = some .queued := by
      rw [stateOf, he]
      exact (of_decide_eq_true hpe).2.imp (congrArg some) (congrArg some)
    have hbecomes : Becomes c.store c₁.store id state := by
      rw [hstore]
      exact becomes_of_update hT (fun _ ↦ rfl) hid he hpe rfl
    exact ReflTransGen.single (moves_of_leave hfrom hterminal.not_occupies hbecomes
      (by rw [hstore]) hkeep hexecutions hholds (.refl _))
  · -- the execution is neither running nor queued
    rename_i hnone
    obtain ⟨-, rfl⟩ := h₁.of_pure
    have hle := count_execution_le_one (S := c.store) hid
    rw [← hchanged] at hle
    have hzero : changed = 0 := by omega
    have hsame := Table.update_none hT (Table.count_eq_zero_iff.1 (hchanged.symm.trans hzero))
    rw [hstore, hsame]

end FamiliarAi
