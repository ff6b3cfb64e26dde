import FamiliarAi.Relational.Query

/-!
# Loops with a state of their own, and transactions with a recovery

Two more ways of putting queries together. `foldEach` runs a query for each element of a list and
hands what the one has answered to the next. `transactionOr` runs another query where the body of a
transaction has failed, outside of what the transaction has put back.

A loop is verified with a property of what it has done so far (`Runs.foldEach_invariant`,
`Runs.of_forEach`): the property speaks of the elements before the current one, and each round
extends it by one element. `Returns.exists_forEach` says that such a loop runs to its end where each
of its rounds does.
-/

namespace Relational

namespace Query

variable {σ ε : Type*} {α β : Type}

def foldEach (f : α → β → Query σ ε α) : α → List β → Query σ ε α
  | a, [] => pure a
  | a, b :: bs => do
    let a ← f a b
    foldEach f a bs

/-- Begin a transaction and run the body. When that fails, what was written is dropped and `recover`
runs before the failure is reported; when the commit fails, what was written is dropped. -/
def transactionOr (body : Query σ ε α) (recover : Query σ ε Unit) : Query σ ε α :=
  fun c ↦ match (control.andThen fun _ ↦ body).run c with
    | (.error e, c') => (recover.andThen fun _ ↦ fail e).run ⟨c.store, c'.faults⟩
    | (.ok a, c') => match control.run c' with
      | (.ok _, c'') => (.ok a, c'')
      | (.error e, c'') => (.error e, ⟨c.store, c''.faults⟩)

variable {c c' : Connection σ ε} {a a' : α} {bs : List β} {e : ε} {s : σ}

/-! ### Loops -/

section Loops

variable {f : α → β → Query σ ε α} {g : β → Query σ ε Unit} {u : Unit} {P : List β → σ → Prop}

@[simp] theorem runs_foldEach_nil : (foldEach f a []).Runs c a' c' ↔ a = a' ∧ c = c' :=
  runs_pure

theorem runs_foldEach_cons {b : β} :
    (foldEach f a (b :: bs)).Runs c a' c' ↔
      ∃ a₁ c₁, (f a b).Runs c a₁ c₁ ∧ (foldEach f a₁ bs).Runs c₁ a' c' :=
  runs_bind

/-- **What a loop has done.** A property of the elements that are done and of what the last of them
has answered holds at the end, if it holds before the first one and each round keeps it. -/
theorem Runs.foldEach_invariant {P : List β → α → σ → Prop} (h : (foldEach f a bs).Runs c a' c')
    (hstart : P [] a c.store)
    (hstep : ∀ done b rest a c a' c', bs = done ++ b :: rest → P done a c.store →
      (f a b).Runs c a' c' → P (done ++ [b]) a' c'.store) : P bs a' c'.store := by
  -- the rounds before the current one are the parameter of the induction
  suffices hmain : ∀ done rest a c, bs = done ++ rest → P done a c.store →
      (foldEach f a rest).Runs c a' c' → P bs a' c'.store from hmain [] bs a c rfl hstart h
  intro done rest
  induction rest generalizing done with
  | nil =>
    intro a c hbs hP hrun
    obtain ⟨rfl, rfl⟩ := runs_foldEach_nil.1 hrun
    rw [hbs, List.append_nil]
    exact hP
  | cons b rest ih =>
    intro a c hbs hP hrun
    obtain ⟨a₁, c₁, hround, hrest⟩ := runs_foldEach_cons.1 hrun
    exact ih (done ++ [b]) a₁ c₁ (by rw [hbs, List.append_assoc, List.singleton_append])
      (hstep done b rest a c a₁ c₁ hbs hP hround) hrest

theorem Runs.of_foldEach (h : (foldEach f a bs).Runs c a' c') (hstart : P [] c.store)
    (hstep : ∀ done b rest a c a' c', bs = done ++ b :: rest → P done c.store → (f a b).Runs c a' c' → P (done ++ [b]) c'.store) :
    P bs c'.store :=
  h.foldEach_invariant (P := fun done _ s ↦ P done s) hstart hstep

theorem Runs.of_forEach (h : (forEach bs g).Runs c u c') (hstart : P [] c.store)
    (hstep : ∀ done b rest c c', bs = done ++ b :: rest → P done c.store → (g b).Runs c () c' → P (done ++ [b]) c'.store) :
    P bs c'.store := by
  suffices hmain : ∀ done rest c, bs = done ++ rest → P done c.store →
      (forEach rest g).Runs c u c' → P bs c'.store from hmain [] bs c rfl hstart h
  intro done rest
  induction rest generalizing done with
  | nil =>
    intro c hbs hP hrun
    obtain rfl := runs_forEach_nil.1 hrun
    rw [hbs, List.append_nil]
    exact hP
  | cons b rest ih =>
    intro c hbs hP hrun
    obtain ⟨c₁, hround, hrest⟩ := runs_forEach_cons.1 hrun
    exact ih (done ++ [b]) c₁ (by rw [hbs, List.append_assoc, List.singleton_append])
      (hstep done b rest c c₁ hbs hP hround) hrest

/-- A loop runs to its end on an engine without faults, if every round does where the rounds before
it have led. -/
theorem Returns.exists_forEach (hstart : P [] s)
    (hstep : ∀ done b rest s, bs = done ++ b :: rest → P done s → ∃ s', (g b).Returns s () s' ∧ P (done ++ [b]) s')
    :
    ∃ s', (Query.forEach bs g).Returns s () s' ∧ P bs s' := by
  suffices hmain : ∀ done rest s, bs = done ++ rest → P done s →
      ∃ s', (Query.forEach rest g).Returns s () s' ∧ P bs s' from hmain [] bs s rfl hstart
  intro done rest
  induction rest generalizing done with
  | nil =>
    intro s hbs hP
    rw [List.append_nil] at hbs
    exact ⟨s, Returns.pure, hbs ▸ hP⟩
  | cons b rest ih =>
    intro s hbs hP
    obtain ⟨s₁, hround, hP₁⟩ := hstep done b rest s hbs hP
    obtain ⟨s', hrest, hP'⟩ := ih (done ++ [b]) s₁
      (by rw [hbs, List.append_assoc, List.singleton_append]) hP₁
    exact ⟨s', hround.bind hrest, hP'⟩

theorem Returns.writePart {τ : Type} {get : σ → τ} {set : σ → τ → σ} {f : τ → Option τ} {t : τ}
    (h : f (get s) = some t) : (writePart e get set f).Returns s () (set s t) :=
  Returns.changePart (by rw [h]; rfl)

end Loops

section Recovery

variable {body : Query σ ε α} {recover : Query σ ε Unit}

theorem Runs.of_transactionOr (h : (transactionOr body recover).Runs c a c') :
    ∃ c₁ c₂, c₁.store = c.store ∧ body.Runs c₁ a c₂ ∧ c'.store = c₂.store := by
  unfold Runs run transactionOr at h
  split at h
  · obtain ⟨_, _, -, hfail⟩ := runs_andThen.1 h
    exact absurd hfail not_runs_fail
  · rename_i a' c₂ hbody
    obtain ⟨_, c₁, hbegin, hbody⟩ := runs_andThen.1 hbody
    split at h
    · rename_i u c₃ hend
      cases h
      exact ⟨c₁, c₂, hbegin.of_read.2, hbody, (Runs.of_read hend).2⟩
    · cases h

theorem Fails.of_transactionOr {R : σ → σ → Prop} [Std.Refl R]
    (h : (transactionOr body recover).Fails c e c') (hrecover : recover.Respects R) :
    R c.store c'.store := by
  unfold Fails Query.run Query.transactionOr at h
  split at h
  · rename_i e' c₁ hbody
    have hrun := hrecover ⟨c.store, c₁.faults⟩
    change andThen recover (fun _ ↦ fail e') _ = _ at h
    unfold andThen at h
    split at h
    · rename_i u c₂ hrecovered
      rw [hrecovered] at hrun
      cases h
      exact hrun
    · rename_i e₂ c₂ hrecovered
      rw [hrecovered] at hrun
      cases h
      exact hrun
  · split at h
    · cases h
    · cases h
      exact Std.Refl.refl _

end Recovery

end Query

end Relational
