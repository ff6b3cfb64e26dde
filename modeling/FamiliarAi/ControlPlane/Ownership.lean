import FamiliarAi.ControlPlane.Cancellation
import FamiliarAi.ControlPlane.Isolation

/-!
# What the operations touch of other executions

An operation on an execution writes the row and the events of that execution and of no other. No
operation moves an execution to another project, and none changes what a session may do: a session is
revoked or expires.
-/

namespace FamiliarAi

open Relational ControlStore

/-- What the store knows of one execution. -/
structure ExecutionPart where
  row : Option ExecutionRow
  events : List ControlEventRow
  deriving DecidableEq

namespace ControlStore

variable {S S' S'' : ControlStore} {own : Option String} {p id : String}

def executionPart (S : ControlStore) (id : String) : ExecutionPart where
  row := S.execution id
  events := S.events.rows.filter fun v ↦ v.executionId = id

/-- The execution may be ended: it is running or queued. -/
def Endable (id : String) (S : ControlStore) : Prop :=
  S.stateOf id = some .running ∨ S.stateOf id = some .queued

instance : Decidable (Endable id S) :=
  inferInstanceAs (Decidable (_ ∨ _))

theorem isSome_of_endable (h : Endable id S) : (S.execution id).isSome := by
  rcases h with h | h
  all_goals
    obtain ⟨e, he, -⟩ := Option.map_eq_some_iff.1 h
    rw [he]
    rfl

/-- Every execution stays in its project, and every session keeps its scope. -/
structure KeepsScopes (S S' : ControlStore) : Prop where
  projects : ∀ id e, S.execution id = some e →
    ∃ e', S'.execution id = some e' ∧ e'.projectId = e.projectId
  sessions : ∀ s ∈ S.sessions.rows,
    ∃ s' ∈ S'.sessions.rows, s'.sessionHash = s.sessionHash ∧ s'.scope = s.scope

/-- At most the given execution is touched. -/
structure TouchesOnly (own : Option String) (S S' : ControlStore) : Prop extends KeepsScopes S S' where
  others : ∀ id, own ≠ some id → S'.executionPart id = S.executionPart id

theorem KeepsScopes.refl (S : ControlStore) : KeepsScopes S S :=
  ⟨fun _ e he ↦ ⟨e, he, rfl⟩, fun s hs ↦ ⟨s, hs, rfl, rfl⟩⟩

theorem KeepsScopes.trans (h : KeepsScopes S S') (h' : KeepsScopes S' S'') : KeepsScopes S S'' := by
  refine ⟨fun id e he ↦ ?_, fun s hs ↦ ?_⟩
  · obtain ⟨e', he', hproject⟩ := h.projects id e he
    obtain ⟨e'', he'', hproject'⟩ := h'.projects id e' he'
    exact ⟨e'', he'', hproject'.trans hproject⟩
  · obtain ⟨s', hs', hhash, hscope⟩ := h.sessions s hs
    obtain ⟨s'', hs'', hhash', hscope'⟩ := h'.sessions s' hs'
    exact ⟨s'', hs'', hhash'.trans hhash, hscope'.trans hscope⟩

theorem TouchesOnly.trans (h : TouchesOnly own S S') (h' : TouchesOnly own S' S'') :
    TouchesOnly own S S'' :=
  ⟨h.toKeepsScopes.trans h'.toKeepsScopes, fun id hid ↦ (h'.others id hid).trans (h.others id hid)⟩

instance : Std.Refl KeepsScopes := ⟨KeepsScopes.refl⟩

instance : IsTrans ControlStore KeepsScopes := ⟨fun _ _ _ ↦ KeepsScopes.trans⟩

instance : Std.Refl (TouchesOnly own) := ⟨fun S ↦ ⟨.refl S, fun _ _ ↦ rfl⟩⟩

instance : IsTrans ControlStore (TouchesOnly own) := ⟨fun _ _ _ ↦ TouchesOnly.trans⟩

theorem TouchesOnly.eq_of_ne (h : TouchesOnly own S S')
    (hne : S'.executionPart id ≠ S.executionPart id) : own = some id := by
  by_contra hown
  exact hne (h.others id hown)

theorem TouchesOnly.of_eq (hexecutions : S'.executions = S.executions) (hevents : S'.events = S.events)
    (hsessions : S'.sessions = S.sessions) : TouchesOnly own S S' := by
  have hexecution (id : String) : S'.execution id = S.execution id := by
    show S'.executions.find _ = _
    rw [hexecutions]
    rfl
  refine ⟨⟨fun id e he ↦ ⟨e, (hexecution id).trans he, rfl⟩, fun s hs ↦ ⟨s, ?_, rfl, rfl⟩⟩,
    fun id _ ↦ ?_⟩
  · rw [hsessions]
    exact hs
  · rw [executionPart, hexecution, hevents]
    rfl

theorem Sidesteps.touchesOnly (h : Sidesteps S S') : TouchesOnly own S S' :=
  .of_eq h.executions h.events h.sessions

theorem KeepsScopes.ownedBy (h : KeepsScopes S S') (hexists : (S.execution id).isSome)
    (howned : OwnedBy p id S) : OwnedBy p id S' := by
  refine ownedBy_iff.2 fun e' he' ↦ ?_
  obtain ⟨e, he⟩ := Option.isSome_iff_exists.1 hexists
  obtain ⟨e'', he'', hproject⟩ := h.projects id e he
  obtain rfl : e'' = e' := Option.some.inj (he''.symm.trans he')
  exact hproject.trans (ownedBy_iff.1 howned e he)

/-- What is of the project now was of it before. -/
theorem KeepsScopes.ownedBy_of (h : KeepsScopes S S') (howned : OwnedBy p id S') : OwnedBy p id S := by
  refine ownedBy_iff.2 fun e he ↦ ?_
  obtain ⟨e', he', hproject⟩ := h.projects id e he
  exact hproject.symm.trans (ownedBy_iff.1 howned e' he')

end ControlStore

section Statements

variable {S S' : ControlStore} {own : Option String} {id : String} {α : Type}

theorem sidesteps_touchesOnly {m : ControlQuery α} (h : m.Respects Sidesteps) :
    m.Respects (TouchesOnly own) :=
  fun c ↦ (h c).touchesOnly

theorem onProjects_touchesOnly (f : Table projectSchema → Option (α × Table projectSchema)) :
    (onProjects f).Respects (TouchesOnly own) :=
  .changePart fun _ _ ↦ .of_eq rfl rfl rfl

theorem onExecutions_touchesOnly {g : ExecutionRow → Bool} {f : ExecutionRow → ExecutionRow}
    (hg : ∀ r, g r = true → r.executionId = id) (hf : ∀ r, (f r).executionId = r.executionId)
    (hproject : ∀ r, (f r).projectId = r.projectId) :
    (onExecutions fun T ↦ T.modify g f).Respects (TouchesOnly (some id)) := by
  refine .of_atomic .changePart fun c n c' h ↦ ?_
  obtain ⟨T, hT, -, hstore⟩ := onExecutions_runs h
  have hfind (id' : String) : c'.store.execution id' =
      (c.store.execution id').map fun r ↦ if g r then f r else r := by
    rw [hstore]
    exact Table.find_update hT fun r ↦ by rw [hf]
  refine ⟨⟨fun id' e he ↦ ⟨_, (hfind id').trans (congrArg _ he), ?_⟩, fun s hs ↦ ?_⟩, fun id' hid' ↦ ?_⟩
  · show (if g e then f e else e).projectId = e.projectId
    split
    · exact hproject e
    · rfl
  · rw [hstore]
    exact ⟨s, hs, rfl, rfl⟩
  · -- the row of another execution is not the row that is rewritten
    have hsame : c'.store.execution id' = c.store.execution id' := by
      rw [hfind]
      rcases hrow : c.store.execution id' with _ | e
      · rfl
      have hother : ¬g e = true := fun hge ↦
        hid' (congrArg some ((hg e hge).symm.trans (mem_of_execution hrow).2))
      rw [Option.map_some, if_neg hother]
    rw [executionPart, hsame, hstore]
    rfl

theorem insertExecution_touchesOnly {T : Table executionSchema} {e : ExecutionRow}
    (h : S.executions.insert e = some T) :
    TouchesOnly (some e.executionId) S { S with executions := T } := by
  have hfind (id : String) : ({ S with executions := T } : ControlStore).execution id =
      (S.execution id).or (if decide (e.executionId = id) then some e else none) :=
    Table.find_insert h
  refine ⟨⟨fun id e' he' ↦ ⟨e', ?_, rfl⟩, fun s hs ↦ ⟨s, hs, rfl, rfl⟩⟩, fun id hid ↦ ?_⟩
  · rw [hfind, he']
    rfl
  · have hother : ¬e.executionId = id := fun heq ↦ hid (congrArg some heq)
    have hsame : ({ S with executions := T } : ControlStore).execution id = S.execution id := by
      rw [hfind, decide_eq_false hother]
      exact Option.or_none
    rw [executionPart, hsame]
    rfl

theorem insertEvent_touchesOnly {row : ControlEventRow} (hrow : row.executionId = id) :
    (insertEvent row).Respects (TouchesOnly (some id)) := by
  refine .of_atomic .change fun c n c' h ↦ ?_
  obtain ⟨V, hV, hstore⟩ := insertEvent_runs h
  have hexecution (id' : String) : c'.store.execution id' = c.store.execution id' := by
    rw [hstore]
    rfl
  refine ⟨⟨fun id' e he ↦ ⟨e, (hexecution id').trans he, rfl⟩, fun s hs ↦ ?_⟩, fun id' hid' ↦ ?_⟩
  · rw [hstore]
    exact ⟨s, hs, rfl, rfl⟩
  · have hother : ¬row.executionId = id' := fun heq ↦ hid' (congrArg some (hrow.symm.trans heq))
    rw [executionPart, hexecution, hstore]
    show ExecutionPart.mk _ (V.rows.filter _) = _
    rw [Table.rows_insert hV, List.filter_append, List.filter_cons_of_neg (by simpa using hother),
      List.filter_nil, List.append_nil]
    rfl

end Statements

section Operations

variable {S S' : ControlStore} {own : Option String}
  {c c' : Connection ControlStore FamiliarError} {id now : String}

theorem finish_touchesOnly (id : String) (state : ExecutionState) (reason : String) :
    (finish id state reason).Respects (TouchesOnly (some id)) := by
  refine .ensure_bind fun _ ↦ .transaction fun c a c' h ↦
    Query.Respects.of_runs ?_ h
  have hupdate : (onExecutions fun T ↦ T.modify
      (fun e ↦ e.executionId = id ∧ (e.state = .running ∨ e.state = .queued))
      fun e ↦ { e with state := state }).Respects (TouchesOnly (some id)) :=
    onExecutions_touchesOnly (fun r hr ↦ (of_decide_eq_true hr).1) (fun _ ↦ rfl) fun _ ↦ rfl
  have hside : sideTable.Respects (TouchesOnly (some id)) := .of_readOnly Query.ReadOnly.read
  refine hupdate.bind fun changed ↦ ?_
  split
  · refine .bind (insertEvent_touchesOnly rfl) fun _ ↦
      .bind (insertEvent_touchesOnly rfl) fun _ ↦
        hside.bind fun _ ↦ hside.bind fun _ ↦ hside.bind fun _ ↦ ?_
    exact (sidesteps_touchesOnly (releaseControlPlaneReservation_sidesteps _ _)).bind fun _ ↦
      .of_readOnly .pure
  · exact .of_readOnly .pure

theorem registerProject_touchesOnly (projectId root : String) (priority : ℤ) (ceiling : ℕ) :
    (registerProject projectId root priority ceiling).Respects (TouchesOnly own) := by
  show (onProjects _).Respects (TouchesOnly own)
  exact onProjects_touchesOnly _

theorem setProjectState_touchesOnly (projectId state : String) :
    (setProjectState projectId state).Respects (TouchesOnly own) := by
  refine (Query.Respects.of_readOnly Query.ReadOnly.ofExcept).bind fun state ↦
    (onProjects_touchesOnly _).bind fun _ ↦ .of_readOnly .pure

theorem appendAgentEvent_touchesOnly (host : Host) (id kind payload : String) :
    (appendAgentEvent host id kind payload).Respects (TouchesOnly (some id)) :=
  (Query.Respects.of_readOnly Query.ReadOnly.ensure).bind fun _ ↦
    (Query.Respects.of_readOnly Query.ReadOnly.ensure).bind fun _ ↦
      (Query.Respects.of_readOnly Query.ReadOnly.read).bind fun _ ↦ insertEvent_touchesOnly rfl

/-- A report leaves the execution itself as it is. -/
theorem appendAgentEvent_keeps (host : Host) (id kind payload : String) :
    (appendAgentEvent host id kind payload).Respects Keeps :=
  (ensure_keeps _ _).bind fun _ ↦ (ensure_keeps _ _).bind fun _ ↦
    (read_keeps _).bind fun _ ↦ insertEvent_keeps _

theorem revokeSession_touchesOnly (now hash : String) :
    (revokeSession now hash).Respects (TouchesOnly own) := by
  refine .bind (.of_atomic .changePart fun c n c' h ↦ ?_) fun _ ↦ .of_readOnly .pure
  obtain ⟨T, hT, hstore⟩ := Query.Runs.of_changePart h
  have hupdate := (Table.modify_eq_some hT).1
  rw [hstore]
  refine ⟨⟨fun id e he ↦ ⟨e, he, rfl⟩, fun s hs ↦ ?_⟩, fun id _ ↦ rfl⟩
  cases hrevoked : decide (s.sessionHash = hash ∧ s.revokedAt.isNone) with
  | true => exact ⟨_, Table.mem_update_of_pos hupdate hs hrevoked, rfl, rfl⟩
  | false => exact ⟨s, Table.mem_update_of_not hupdate hs hrevoked, rfl, rfl⟩

theorem submit_runs {request : Submission} {ack : SubmissionAck}
    (h : (submit now request).Runs c ack c') :
    ack.duplicate = true ∧ c'.store = c.store ∨
      ack.duplicate = false ∧ TouchesOnly (some request.executionId) c.store c'.store ∧
        ∃ e, c'.store.execution request.executionId = some e ∧ e.projectId = request.projectId := by
  obtain ⟨c₀, c₉, hbegin, hbody, hend⟩ := h.of_transaction
  rw [hend, ← hbegin]
  obtain ⟨duplicate, c₁, hread, h₁⟩ := hbody.of_bind
  rw [← hread.of_read.2]
  split at h₁
  · obtain ⟨rfl, rfl⟩ := h₁.of_pure
    exact .inl ⟨rfl, rfl⟩
  · obtain ⟨changed, c₂, hinsert, h₂⟩ := h₁.of_bind
    obtain ⟨rfl, h₃⟩ := h₂.of_ensure_bind
    obtain ⟨cursor, rfl, hevent⟩ := h₃.of_bind_pure
    refine .inr ⟨rfl, ?_⟩
    have hchange := hinsert.of_change
    split at hchange
    · obtain ⟨T, hT, hr⟩ := Option.map_eq_some_iff.1 hchange
      have hstore := (Prod.mk.inj hr).2
      have hrow : c₂.store.execution request.executionId = some _ :=
        execution_eq_some (by rw [← hstore]; exact (Table.mem_insert hT).2 (.inr rfl)) rfl
      have hevent' := (insertEvent_touchesOnly rfl).of_runs hevent
      obtain ⟨e, he, hproject⟩ := hevent'.projects _ _ hrow
      have hinsert' := insertExecution_touchesOnly hT
      rw [hstore] at hinsert'
      exact ⟨hinsert'.trans hevent', e, he, hproject⟩
    · -- no row was inserted
      cases (Prod.mk.inj (Option.some.inj hchange)).1

end Operations

end FamiliarAi
