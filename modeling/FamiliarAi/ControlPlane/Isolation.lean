import FamiliarAi.ControlPlane.Interruption
import FamiliarAi.ControlPlane.Service

/-!
# What the operations touch of other projects

The store is seen as the parts of its projects: the project's row, its executions with their events,
and the sessions bound to it. An operation on an execution writes the part of the project that the
execution belongs to and no other (`Confines`), whatever project its caller had in mind. So whether a
method keeps to one project depends on whether it asks for the execution's project.
-/

namespace FamiliarAi

open Relational ControlStore List Option

/-- What the store knows of one project. -/
structure ProjectPart where
  project : Option ProjectRow
  executions : List ExecutionRow
  events : List ControlEventRow
  sessions : List SessionRow

namespace ControlStore

variable {S S' S'' : ControlStore} {p q id : String}

/-- The execution, if there is one, belongs to the project. -/
def OwnedBy (p id : String) (S : ControlStore) : Prop :=
  (S.execution id).all (fun e ↦ decide (e.projectId = p)) = true

instance : Decidable (OwnedBy p id S) :=
  inferInstanceAs (Decidable (_ = true))

theorem ownedBy_iff : OwnedBy p id S ↔ ∀ e, S.execution id = some e → e.projectId = p := by
  unfold OwnedBy
  cases S.execution id with
  | none => simp
  | some e => simp

def partOf (S : ControlStore) (q : String) : ProjectPart where
  project := S.project q
  executions := S.executions.rows.filter fun e ↦ e.projectId = q
  events := S.events.rows.filter fun v ↦ (S.execution v.executionId).any fun e ↦ e.projectId = q
  sessions := S.sessions.rows.filter fun s ↦ s.scope.projectId = some q

/-- The parts of the projects other than `p` are the same, and no session is lost. -/
structure Spares (p : String) (S S' : ControlStore) : Prop where
  others : ∀ q, q ≠ p → S'.partOf q = S.partOf q
  sessions : ∀ s ∈ S.sessions.rows, s ∈ S'.sessions.rows

theorem Spares.refl (p : String) (S : ControlStore) : Spares p S S :=
  ⟨fun _ _ ↦ rfl, fun _ h ↦ h⟩

theorem Spares.trans (h : Spares p S S') (h' : Spares p S' S'') : Spares p S S'' :=
  ⟨fun q hq ↦ (h'.others q hq).trans (h.others q hq), fun s hs ↦ h'.sessions s (h.sessions s hs)⟩

instance : Std.Refl (Spares p) := ⟨Spares.refl p⟩

instance : IsTrans ControlStore (Spares p) := ⟨fun _ _ _ ↦ Spares.trans⟩

/-- No part of any project is written. -/
structure Sidesteps (S S' : ControlStore) : Prop where
  projects : S'.projects = S.projects
  executions : S'.executions = S.executions
  events : S'.events = S.events
  sessions : S'.sessions = S.sessions

instance : Std.Refl Sidesteps := ⟨fun _ ↦ ⟨rfl, rfl, rfl, rfl⟩⟩

instance : IsTrans ControlStore Sidesteps :=
  ⟨fun _ _ _ h h' ↦ ⟨h'.projects.trans h.projects, h'.executions.trans h.executions,
    h'.events.trans h.events, h'.sessions.trans h.sessions⟩⟩

theorem Sidesteps.execution (h : Sidesteps S S') (id : String) :
    S'.execution id = S.execution id := by
  show S'.executions.find _ = _
  rw [h.executions]
  rfl

theorem Sidesteps.spares (h : Sidesteps S S') : Spares p S S' := by
  refine ⟨fun q _ ↦ ?_, fun s hs ↦ by rwa [h.sessions]⟩
  have hproject : S'.project q = S.project q := by
    show S'.projects.find _ = _
    rw [h.projects]
    rfl
  simp only [partOf, hproject, h.executions, h.events, h.sessions, h.execution]

theorem Spares.mem_of_foreign {e : ExecutionRow} (h : Spares p S S')
    (he : S'.execution id = some e) (hne : e.projectId ≠ p) : S.execution id = some e := by
  obtain ⟨hmem, hid⟩ := mem_of_execution he
  have hfilter : e ∈ (S'.partOf e.projectId).executions :=
    mem_filter.2 ⟨hmem, by simp⟩
  rw [h.others _ hne] at hfilter
  exact execution_eq_some (mem_filter.1 hfilter).1 hid

theorem Spares.ownedBy (h : Spares p S S') (howned : OwnedBy p id S) : OwnedBy p id S' := by
  refine ownedBy_iff.2 fun e he ↦ ?_
  by_contra hne
  exact hne (ownedBy_iff.1 howned e (h.mem_of_foreign he hne))

/-- If the execution belongs to the project, the other projects are spared. -/
def Confines (p id : String) (S S' : ControlStore) : Prop :=
  OwnedBy p id S → Spares p S S'

instance : Std.Refl (Confines p id) := ⟨fun S _ ↦ .refl p S⟩

instance : IsTrans ControlStore (Confines p id) :=
  ⟨fun _ _ _ h h' howned ↦ (h howned).trans (h' ((h howned).ownedBy howned))⟩

theorem Sidesteps.confines (h : Sidesteps S S') : Confines p id S S' :=
  fun _ ↦ h.spares

end ControlStore

/-! ### Statements -/

section Statements

variable {S S' : ControlStore} {p id : String} {α : Type}

theorem onPools_sidesteps (f : Table poolSchema → Option (α × Table poolSchema)) :
    (onPools f).Respects Sidesteps :=
  .changePart fun _ _ ↦ ⟨rfl, rfl, rfl, rfl⟩

theorem onReservations_sidesteps
    (f : Table reservationSchema → Option (α × Table reservationSchema)) :
    (onReservations f).Respects Sidesteps :=
  .changePart fun _ _ ↦ ⟨rfl, rfl, rfl, rfl⟩

theorem insertReservationEvent_sidesteps (row : EventRow) :
    (insertReservationEvent row).Respects Sidesteps := by
  refine .write fun S S' h ↦ ?_
  split at h
  · rw [← some.inj h]
    exact ⟨rfl, rfl, rfl, rfl⟩
  · cases h

theorem releaseControlPlaneReservation_sidesteps (execution reason : String) :
    (releaseControlPlaneReservation execution reason).Respects Sidesteps := by
  refine (Query.Respects.of_readOnly Query.ReadOnly.read).bind fun reservation ↦ ?_
  rcases reservation with _ | reservation
  · exact .of_readOnly Query.ReadOnly.pure
  exact (Query.Respects.of_readOnly Query.ReadOnly.read).bind fun items ↦
    (Query.Respects.forEach (fun _ ↦ onPools_sidesteps _) items).bind fun _ ↦
      (onReservations_sidesteps _).bind fun _ ↦ insertReservationEvent_sidesteps _

/-- Rewriting rows that do not meet a condition leaves the rows that do as they are. -/
theorem filter_map_eq {ρ : Type} {l : List ρ} {f : ρ → ρ} {b : ρ → Bool}
    (hb : ∀ r ∈ l, b (f r) = b r) (hf : ∀ r ∈ l, b r = true → f r = r) :
    (l.map f).filter b = l.filter b := by
  induction l with
  | nil => rfl
  | cons r l ih =>
    have htail := ih (fun r' hr' ↦ hb r' (mem_cons_of_mem _ hr'))
      fun r' hr' ↦ hf r' (mem_cons_of_mem _ hr')
    rw [map_cons]
    rcases hr : b r with _ | _
    · rw [filter_cons_of_neg (by rw [hb r mem_cons_self, hr]; simp),
        filter_cons_of_neg (by simp [hr]), htail]
    rw [filter_cons_of_pos (by rw [hb r mem_cons_self, hr]),
      filter_cons_of_pos hr, htail, hf r mem_cons_self hr]

theorem onExecutions_confines {g : ExecutionRow → Bool} {f : ExecutionRow → ExecutionRow}
    (hg : ∀ r, g r = true → r.executionId = id) (hf : ∀ r, (f r).executionId = r.executionId)
    (hproject : ∀ r, (f r).projectId = r.projectId) :
    (onExecutions fun T ↦ T.modify g f).Respects (Confines p id) := by
  refine .of_atomic .changePart fun c n c' h howned ↦ ?_
  obtain ⟨T, hT, -, hstore⟩ := onExecutions_runs h
  have hfind : ∀ id', c'.store.execution id' =
      (c.store.execution id').map fun r ↦ if g r then f r else r := by
    intro id'
    rw [hstore]
    exact Table.find_update hT fun r ↦ by rw [hf]
  have hsame : ∀ q id', (c'.store.execution id').any (fun e ↦ decide (e.projectId = q)) =
      (c.store.execution id').any fun e ↦ decide (e.projectId = q) := by
    intro q id'
    rw [hfind, Option.any_map]
    congr 1
    funext r
    show decide ((if g r then f r else r).projectId = q) = _
    split
    · rw [hproject]
    · rfl
  refine ⟨fun q hq ↦ ?_, fun s hs ↦ by rw [hstore]; exact hs⟩
  have hrows : c'.store.executions.rows.filter (fun e ↦ decide (e.projectId = q)) =
      c.store.executions.rows.filter fun e ↦ decide (e.projectId = q) := by
    rw [hstore]
    show T.rows.filter _ = _
    rw [Table.rows_update hT]
    refine filter_map_eq (fun r _ ↦ ?_) fun r hr hrq ↦ ?_
    · split
      · rw [hproject]
      · rfl
    · -- a row of another project is not the row that is rewritten
      rw [if_neg]
      intro hgr
      exact hq ((of_decide_eq_true hrq).symm.trans
        (ownedBy_iff.1 howned r (execution_eq_some hr (hg r hgr))))
  simp only [partOf, hrows, hsame]
  rw [hstore]
  rfl

theorem insertEvent_confines {row : ControlEventRow} (hrow : row.executionId = id) :
    (insertEvent row).Respects (Confines p id) := by
  refine .of_atomic .change fun c n c' h howned ↦ ?_
  obtain ⟨V, hV, hstore⟩ := insertEvent_runs h
  have hexecution : ∀ id', c'.store.execution id' = c.store.execution id' := by
    intro id'
    rw [hstore]
    rfl
  refine ⟨fun q hq ↦ ?_, fun s hs ↦ by rw [hstore]; exact hs⟩
  have hother : (c.store.execution row.executionId).any (fun e ↦ decide (e.projectId = q)) =
      false := by
    rw [hrow]
    rcases hfind : c.store.execution id with _ | e
    · rfl
    have he := ownedBy_iff.1 howned e hfind
    simp [he, Ne.symm hq]
  have hevents : V.rows.filter (fun v ↦
      (c.store.execution v.executionId).any fun e ↦ decide (e.projectId = q)) =
      c.store.events.rows.filter fun v ↦
        (c.store.execution v.executionId).any fun e ↦ decide (e.projectId = q) := by
    rw [Table.rows_insert hV, filter_append, filter_cons_of_neg (by simp [hother])]
    simp
  simp only [partOf, hexecution]
  rw [hstore]
  show ProjectPart.mk _ _ (V.rows.filter _) _ = _
  rw [hevents]
  rfl

end Statements

/-! ### Operations -/

section Operations

variable {S S' : ControlStore} {c c' : Connection ControlStore FamiliarError} {p id : String}

theorem sidesteps_confines {α : Type} {m : ControlQuery α} (h : m.Respects Sidesteps) :
    m.Respects (Confines p id) :=
  fun c ↦ (h c).confines

theorem finish_confines (id : String) (state : ExecutionState) (reason : String) :
    (finish id state reason).Respects (Confines p id) := by
  refine .ensure_bind fun _ ↦ .transaction fun c a c' h ↦
    Query.Respects.of_runs ?_ h
  have hupdate := onExecutions_confines (p := p)
    (g := fun e ↦ e.executionId = id ∧ (e.state = .running ∨ e.state = .queued))
    (f := fun e ↦ { e with state := state }) (fun r hr ↦ (of_decide_eq_true hr).1)
    (fun _ ↦ rfl) fun _ ↦ rfl
  have hside : sideTable.Respects (Confines p id) := .of_readOnly Query.ReadOnly.read
  refine hupdate.bind fun changed ↦ ?_
  split
  · refine .bind (insertEvent_confines rfl) fun _ ↦
      .bind (insertEvent_confines rfl) fun _ ↦
        hside.bind fun _ ↦ hside.bind fun _ ↦ hside.bind fun _ ↦ ?_
    exact (sidesteps_confines (releaseControlPlaneReservation_sidesteps _ _)).bind fun _ ↦
      .of_readOnly .pure
  · exact .of_readOnly .pure

theorem spares_of_projects {T : Table projectSchema}
    (h : ∀ q, q ≠ p → (T.find fun r ↦ decide (r.projectId = q)) = S.project q) :
    Spares p S { S with projects := T } := by
  refine ⟨fun q hq ↦ ?_, fun s hs ↦ hs⟩
  show ProjectPart.mk (T.find fun r ↦ decide (r.projectId = q)) _ _ _ = _
  rw [h q hq]
  rfl

theorem find_update_project {T T' : Table projectSchema} {f : ProjectRow → ProjectRow} {q : String}
    (h : T.update (fun r ↦ r.projectId = p) f = some T') (hf : ∀ r, (f r).projectId = r.projectId)
    (hq : q ≠ p) : (T'.find fun r ↦ decide (r.projectId = q)) = T.find fun r ↦ r.projectId = q := by
  rw [Table.find_update h fun r ↦ by rw [hf]]
  rcases hfind : T.find fun r ↦ decide (r.projectId = q) with _ | r
  · rfl
  have hr := of_decide_eq_true (Table.find_some hfind).2
  simp [hr, hq]

theorem registerProject_spares (p root : String) (priority : ℤ) (ceiling : ℕ) :
    (registerProject p root priority ceiling).Respects (Spares p) := by
  show (onProjects _).Respects (Spares p)
  refine .of_atomic .changePart fun c n c' h ↦ ?_
  obtain ⟨T, hT, hstore⟩ := Query.Runs.of_changePart h
  rw [hstore]
  refine spares_of_projects fun q hq ↦ ?_
  split at hT
  · obtain ⟨T', hinsert, heq⟩ := map_eq_some_iff.1 hT
    obtain rfl : T' = T := (Prod.mk.inj heq).2
    rw [Table.find_insert hinsert]
    simp [Ne.symm hq, project]
  · obtain ⟨T', hupdate, heq⟩ := map_eq_some_iff.1 hT
    obtain rfl : T' = T := (Prod.mk.inj heq).2
    exact find_update_project hupdate (fun _ ↦ rfl) hq

theorem setProjectState_spares (p state : String) :
    (setProjectState p state).Respects (Spares p) := by
  refine (Query.Respects.of_readOnly Query.ReadOnly.ofExcept).bind fun state ↦
    .bind ?_ fun _ ↦ .of_readOnly .pure
  refine Query.Respects.of_atomic Query.Atomic.changePart fun c n c' h ↦ ?_
  obtain ⟨T, hT, hstore⟩ := Query.Runs.of_changePart h
  rw [hstore]
  exact spares_of_projects fun q hq ↦
    find_update_project (Table.modify_eq_some hT).1 (fun _ ↦ rfl) hq

theorem insertExecution_spares {T : Table executionSchema} {e : ExecutionRow}
    (h : S.executions.insert e = some T) (he : e.projectId = p) :
    Spares p S { S with executions := T } ∧ OwnedBy p e.executionId { S with executions := T } := by
  have hfind : ∀ id, ({ S with executions := T } : ControlStore).execution id =
      (S.execution id).or (if decide (e.executionId = id) then some e else none) :=
    fun id ↦ Table.find_insert h
  refine ⟨⟨fun q hq ↦ ?_, fun s hs ↦ hs⟩, ?_⟩
  · have hne : e.projectId ≠ q := fun heq ↦ hq (heq.symm.trans he)
    have hsame : ∀ id, (({ S with executions := T } : ControlStore).execution id).any
        (fun r ↦ decide (r.projectId = q)) = (S.execution id).any fun r ↦ r.projectId = q := by
      intro id
      rw [hfind]
      cases S.execution id with
      | some r => rfl
      | none =>
        show (if _ then some e else none : Option ExecutionRow).any _ = false
        split
        · simp [hne]
        · rfl
    have hrows : T.rows.filter (fun r ↦ decide (r.projectId = q)) =
        S.executions.rows.filter fun r ↦ decide (r.projectId = q) := by
      rw [Table.rows_insert h, filter_append, filter_cons_of_neg (by simp [hne])]
      simp
    simp only [partOf, hsame]
    show ProjectPart.mk _ (T.rows.filter _) _ _ = _
    rw [hrows]
    rfl
  · -- the id was free, so the new row is the one that is found
    refine ownedBy_iff.2 fun r hr ↦ ?_
    rw [hfind] at hr
    rcases hold : S.execution e.executionId with _ | r'
    · rw [hold] at hr
      simp only [decide_true, if_true, none_or, some.injEq] at hr
      rw [← hr, he]
    obtain ⟨hmem, hid⟩ := mem_of_execution hold
    have hclash := Table.not_clash_of_insert h hmem
    simp [executionSchema, hid] at hclash

theorem submit_spares {now : String} {request : Submission} {ack : SubmissionAck}
    (h : (submit now request).Runs c ack c') (hp : request.projectId = p)
    (hkey : ∀ d ∈ c.store.duplicateOf request.idempotencyKey, OwnedBy p d.1 c.store) :
    Spares p c.store c'.store ∧ OwnedBy p ack.executionId c'.store := by
  obtain ⟨c₀, c₉, hbegin, hbody, hend⟩ := h.of_transaction
  rw [hend, ← hbegin]
  rw [← hbegin] at hkey
  obtain ⟨duplicate, c₁, hread, h₁⟩ := hbody.of_bind
  obtain ⟨hduplicate, hstore₁⟩ := hread.of_read
  rw [hduplicate] at h₁
  rw [← hstore₁]
  split at h₁
  · rename_i id cursor hfound
    obtain ⟨rfl, rfl⟩ := h₁.of_pure
    refine ⟨.refl p _, ?_⟩
    rw [hstore₁]
    exact hkey (id, cursor) hfound
  · obtain ⟨changed, c₂, hinsert, h₂⟩ := h₁.of_bind
    obtain ⟨rfl, h₃⟩ := h₂.of_ensure_bind
    obtain ⟨cursor, rfl, hevent⟩ := h₃.of_bind_pure
    have hchange := hinsert.of_change
    split at hchange
    · obtain ⟨T, hT, hr⟩ := map_eq_some_iff.1 hchange
      have hstore₂ := (Prod.mk.inj hr).2
      obtain ⟨hspares, howned⟩ := insertExecution_spares hT hp
      rw [hstore₂] at hspares howned
      have hspares' := (insertEvent_confines rfl).of_runs hevent howned
      exact ⟨hspares.trans hspares', hspares'.ownedBy howned⟩
    · -- no row was inserted
      cases (Prod.mk.inj (some.inj hchange)).1

theorem storeSession_spares {hash expiresAt : String} {scope : CapabilityScope} {u : Unit}
    (h : (storeSession hash scope expiresAt).Runs c u c') (hp : scope.projectId = some p) :
    Spares p c.store c'.store ∧
      ∃ s ∈ c'.store.sessions.rows, s.sessionHash = hash ∧ s.scope = scope := by
  have hwrite := h.of_write
  split at hwrite
  · obtain ⟨T, hT, hstore⟩ := map_eq_some_iff.1 hwrite
    rw [← hstore]
    refine ⟨⟨fun q hq ↦ ?_, fun s hs ↦ (Table.mem_insert hT).2 (.inl hs)⟩,
      ⟨_, (Table.mem_insert hT).2 (.inr rfl), rfl, rfl⟩⟩
    show ProjectPart.mk _ _ _ (T.rows.filter _) = _
    rw [Table.rows_insert hT, filter_append, filter_cons_of_neg (by simp [hp, Ne.symm hq])]
    simp [partOf, execution, project]
  · cases hwrite

theorem pendingGate_sidesteps (hash : String) (scope : CapabilityScope) (request : String) :
    (pendingGate hash scope request).Respects Sidesteps := by
  refine (Query.Respects.of_readOnly Query.ReadOnly.ofExcept).bind fun project ↦
    (Query.Respects.of_readOnly Query.ReadOnly.ofExcept).bind fun execution ↦
      (Query.Respects.of_readOnly Query.ReadOnly.read).bind fun earlier ↦
        Query.Respects.bind ?_ fun _ ↦ .of_readOnly Query.ReadOnly.pure
  refine Query.Respects.write fun S S' h ↦ ?_
  split at h
  · obtain ⟨T, -, hstore⟩ := map_eq_some_iff.1 h
    rw [← hstore]
    exact ⟨rfl, rfl, rfl, rfl⟩
  · cases h

theorem appendAgentEvent_confines (host : Host) (id kind payload : String) :
    (appendAgentEvent host id kind payload).Respects (Confines p id) :=
  (Query.Respects.of_readOnly Query.ReadOnly.ensure).bind fun _ ↦
    (Query.Respects.of_readOnly Query.ReadOnly.ensure).bind fun _ ↦
      (Query.Respects.of_readOnly Query.ReadOnly.read).bind fun _ ↦ insertEvent_confines rfl

end Operations

end FamiliarAi
