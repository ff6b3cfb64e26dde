import Mathlib.Data.List.Basic

/-!
# Programs that talk to an environment

A program performs operations, and an environment answers them. The answer may depend on everything
that was performed and answered before, so a property proved for every environment holds whatever the
parties behind it do. What was performed is kept in a history.

A program ends with a value, or it leaves early with a result of its own; programs are total, so one
of the two happens. `After m h Q E` says that `m`, started after the history `h`, ends with `Q` or
leaves with `E`. The rules take a program apart along its structure (`After.bind`, `after_perform`,
`After.foldlM`).
-/

namespace Interaction

open List

/-- An operation with its answer. -/
structure Event (Op : Type) (Answer : Op → Type) where
  op : Op
  answer : Answer op

/-- What was performed, the last event first. -/
abbrev History (Op : Type) (Answer : Op → Type) := List (Event Op Answer)

abbrev Environment (Op : Type) (Answer : Op → Type) :=
  History Op Answer → (op : Op) → Answer op

/-- A program that ends with a value in `α` or leaves early with a result in `ε`. -/
def Program (Op : Type) (Answer : Op → Type) (ε α : Type) :=
  Environment Op Answer → History Op Answer → Except ε α × History Op Answer

namespace Program

variable {Op : Type} {Answer : Op → Type} {ε α β : Type} {γ : Type} {items done : List γ}

def run (m : Program Op Answer ε α) (env : Environment Op Answer) (h : History Op Answer) :
    Except ε α × History Op Answer :=
  m env h

/-- Leave with a result. -/
def exit (e : ε) : Program Op Answer ε α :=
  fun _ h ↦ (.error e, h)

def perform (op : Op) : Program Op Answer ε (Answer op) :=
  fun env h ↦ (.ok (env h op), ⟨op, env h op⟩ :: h)

/-- Run `m`, then what it asks for, unless it left. -/
def andThen (m : Program Op Answer ε α) (f : α → Program Op Answer ε β) : Program Op Answer ε β :=
  fun env h ↦ match m.run env h with
    | (.ok a, h') => (f a).run env h'
    | (.error e, h') => (.error e, h')

instance : Monad (Program Op Answer ε) where
  pure a := fun _ h ↦ (.ok a, h)
  bind := andThen

/-- Started after `h`, the program ends with `Q` or leaves with `E`. -/
def After (env : Environment Op Answer) (m : Program Op Answer ε α) (h : History Op Answer)
    (Q : α → History Op Answer → Prop) (E : ε → History Op Answer → Prop) : Prop :=
  match m.run env h with
  | (.ok a, h') => Q a h'
  | (.error e, h') => E e h'

variable {env : Environment Op Answer} {m : Program Op Answer ε α}
  {f : α → Program Op Answer ε β} {h : History Op Answer}
  {Q Q' : α → History Op Answer → Prop} {R : β → History Op Answer → Prop}
  {E E' : ε → History Op Answer → Prop}

@[simp]
theorem after_pure {a : α} : After env (pure a : Program Op Answer ε α) h Q E ↔ Q a h :=
  Iff.rfl

@[simp]
theorem after_exit {e : ε} : After env (exit e : Program Op Answer ε α) h Q E ↔ E e h :=
  Iff.rfl

@[simp]
theorem after_perform {op : Op} {Q : Answer op → History Op Answer → Prop} :
    After env (perform op : Program Op Answer ε (Answer op)) h Q E ↔
      Q (env h op) (⟨op, env h op⟩ :: h) :=
  Iff.rfl

theorem after_bind :
    After env (m >>= f) h R E ↔ After env m h (fun a h' ↦ After env (f a) h' R E) E := by
  show After env (andThen m f) h R E ↔ _
  unfold After
  simp only [run, andThen]
  rcases m env h with ⟨_ | _, h'⟩ <;> rfl

/-- What is ensured may be weakened. -/
theorem After.mono (hm : After env m h Q E) (hQ : ∀ a h', Q a h' → Q' a h')
    (hE : ∀ e h', E e h' → E' e h') : After env m h Q' E' := by
  unfold After at hm ⊢
  rcases hrun : m.run env h with ⟨e | a, h'⟩
  · rw [hrun] at hm
    exact hE e h' hm
  · rw [hrun] at hm
    exact hQ a h' hm

/-- What is ensured of the value may be weakened. -/
theorem After.imp (hm : After env m h Q E) (hQ : ∀ a h', Q a h' → Q' a h') :
    After env m h Q' E :=
  hm.mono hQ fun _ _ he ↦ he

/-- One step after the other. -/
theorem After.bind (hm : After env m h Q E) (hf : ∀ a h', Q a h' → After env (f a) h' R E) :
    After env (m >>= f) h R E :=
  after_bind.2 (hm.imp hf)

/-- **A loop over a list.** The invariant speaks of the elements that were gone through. -/
theorem After.foldlM {step : β → γ → Program Op Answer ε β}
    {I : List γ → β → History Op Answer → Prop} {b : β} (hb : I done b h)
    (hstep : ∀ done b c h', c ∈ items → I done b h' → After env (step b c) h' (I (done ++ [c])) E) :
    After env (items.foldlM step b) h (I (done ++ items)) E := by
  induction items generalizing done b h with
  | nil => rwa [foldlM_nil, after_pure, append_nil]
  | cons c items ih =>
    rw [foldlM_cons, after_bind]
    refine (hstep done b c h mem_cons_self hb).imp fun b' h' hb' ↦ ?_
    have htail := ih hb' fun done b c h' hc ↦ hstep done b c h' (mem_cons_of_mem _ hc)
    rwa [append_assoc] at htail

/-- **A loop that only performs.** The invariant speaks of the elements that were gone through. -/
theorem After.forM {g : γ → Program Op Answer ε PUnit} {I : List γ → History Op Answer → Prop}
    (hI : I done h)
    (hstep : ∀ done c h', c ∈ items → I done h' → After env (g c) h' (fun _ ↦ I (done ++ [c])) E) :
    After env (items.forM g) h (fun _ ↦ I (done ++ items)) E := by
  induction items generalizing done h with
  | nil =>
    show I (done ++ []) h
    rwa [append_nil]
  | cons c items ih =>
    show After env (g c >>= fun _ ↦ items.forM g) h _ E
    rw [after_bind]
    refine (hstep done c h mem_cons_self hI).imp fun _ h' hI' ↦ ?_
    have htail := ih hI' fun done c h' hc ↦ hstep done c h' (mem_cons_of_mem _ hc)
    rwa [append_assoc] at htail

/-- How a program ends. -/
theorem After.result (hm : After env m h Q E) :
    (∃ a, (m.run env h).1 = .ok a ∧ Q a (m.run env h).2) ∨
      ∃ e, (m.run env h).1 = .error e ∧ E e (m.run env h).2 := by
  unfold After at hm
  rcases hrun : m.run env h with ⟨e | a, h'⟩
  · exact .inr ⟨e, rfl, by rwa [hrun] at hm⟩
  · exact .inl ⟨a, rfl, by rwa [hrun] at hm⟩

end Program

/-!
## Monitors

A monitor reads a history event by event and keeps what it has to know of it. When what a program
ensures is told by the monitor alone, histories disappear from the proof: `M.Ensures env F m s Q` says
that `m`, started when the monitor knows `s`, ends with `Q` of what the monitor knows then, or leaves
with `F` of it. The rules of `After` carry over.
-/

/-- What is known of a history. An event adds to it. -/
structure Monitor (Op : Type) (Answer : Op → Type) (S : Type) where
  state : History Op Answer → S
  step : S → Event Op Answer → S
  state_cons : ∀ event history, state (event :: history) = step (state history) event

namespace Monitor

variable {Op : Type} {Answer : Op → Type} {S ε α β : Type}

/-- The program ensures `Q` of what is known at its end, or leaves with `F`. -/
def Ensures (M : Monitor Op Answer S) (env : Environment Op Answer) (F : ε → S → Prop)
    (m : Program Op Answer ε α) (s : S) (Q : α → S → Prop) : Prop :=
  ∀ h, M.state h = s → m.After env h (fun a h' ↦ Q a (M.state h')) fun e h' ↦ F e (M.state h')

variable {M : Monitor Op Answer S} {env : Environment Op Answer} {F : ε → S → Prop} {s : S}
  {m : Program Op Answer ε α} {f : α → Program Op Answer ε β} {Q Q' : α → S → Prop}
  {R : β → S → Prop}

theorem ensures_pure {a : α} (ha : Q a s) :
    M.Ensures env F (pure a : Program Op Answer ε α) s Q := by
  rintro h rfl
  exact ha

theorem ensures_exit {e : ε} (he : F e s) :
    M.Ensures env F (Program.exit e : Program Op Answer ε α) s Q := by
  rintro h rfl
  exact he

theorem ensures_perform {op : Op} {Q : Answer op → S → Prop}
    (hQ : ∀ answer, (∃ h, env h op = answer) → Q answer (M.step s ⟨op, answer⟩)) :
    M.Ensures env F (Program.perform op : Program Op Answer ε (Answer op)) s Q := by
  rintro h rfl
  show Q (env h op) (M.state (⟨op, env h op⟩ :: h))
  rw [M.state_cons]
  exact hQ _ ⟨h, rfl⟩

/-- One step after the other. -/
theorem Ensures.bind (hm : M.Ensures env F m s Q)
    (hf : ∀ a s', Q a s' → M.Ensures env F (f a) s' R) : M.Ensures env F (m >>= f) s R :=
  fun h hs ↦ (hm h hs).bind fun a h' ha ↦ hf a _ ha h' rfl

theorem Ensures.imp (hm : M.Ensures env F m s Q) (hQ : ∀ a s', Q a s' → Q' a s') :
    M.Ensures env F m s Q' :=
  fun h hs ↦ (hm h hs).imp fun a _ ha ↦ hQ a _ ha

/-- **A loop over a list.** The invariant speaks of the elements that were gone through. -/
theorem Ensures.foldlM {γ : Type} {step : β → γ → Program Op Answer ε β}
    {I : List γ → β → S → Prop} {items done : List γ} {b : β} (hb : I done b s)
    (hstep : ∀ done b c s', c ∈ items → I done b s' →
      M.Ensures env F (step b c) s' (I (done ++ [c]))) :
    M.Ensures env F (items.foldlM step b) s (I (done ++ items)) := by
  rintro h rfl
  exact Program.After.foldlM (I := fun done b h ↦ I done b (M.state h)) hb
    fun done b c h' hc hI ↦ hstep done b c _ hc hI h' rfl

end Monitor

/-!
## Rules for what is performed

A rule says which events are allowed after which histories. `Grows P h h'` says that the history has
grown from `h` to `h'` by events that the rule `P` allows. It is reflexive and transitive, so what the
parts of a program keep to, the program and a run of programs keep to.
-/

variable {Op : Type} {Answer : Op → Type}

/-- The history has grown by events that the rule allows after what was before them. -/
inductive Grows (P : History Op Answer → Event Op Answer → Prop) (h : History Op Answer) :
    History Op Answer → Prop
  | refl : Grows P h h
  | cons {h' : History Op Answer} {e : Event Op Answer} (hgrows : Grows P h h') (he : P h' e) :
      Grows P h (e :: h')

namespace Grows

variable {P P' : History Op Answer → Event Op Answer → Prop} {h h' h'' : History Op Answer}
  {before : History Op Answer}

theorem trans (hgrows : Grows P h h') (hgrows' : Grows P h' h'') : Grows P h h'' := by
  induction hgrows' with
  | refl => exact hgrows
  | cons _ he ih => exact .cons ih he

theorem mono_of_suffix (hgrows : Grows P h h')
    (hP : ∀ before e, e :: before <:+ h' → P before e → P' before e) : Grows P' h h' := by
  induction hgrows with
  | refl => exact .refl
  | cons _ he ih =>
    refine .cons (ih fun before e hsuffix ↦ ?_) (hP _ _ (suffix_refl _) he)
    exact hP before e (hsuffix.trans (suffix_cons _ _))

theorem mono (hgrows : Grows P h h') (hP : ∀ h e, P h e → P' h e) : Grows P' h h' :=
  hgrows.mono_of_suffix fun before e _ ↦ hP before e

/-- What was performed before stays in the history. -/
theorem suffix (hgrows : Grows P h h') : h <:+ h' := by
  induction hgrows with
  | refl => exact suffix_refl h
  | cons _ _ ih => exact ih.trans (suffix_cons _ _)

theorem allowed (hgrows : Grows P h h') {e : Event Op Answer} (he : e :: before <:+ h')
    (hbefore : h <:+ before) : P before e := by
  induction hgrows with
  | refl =>
    have hlength := (he.trans hbefore).length_le
    rw [length_cons] at hlength
    omega
  | @cons h' e' hgrows he' ih =>
    rcases suffix_cons_iff.1 he with heq | he
    · obtain ⟨rfl, rfl⟩ := cons.inj heq
      exact he'
    · exact ih he

/-- What was performed on the way. -/
theorem of_suffix (hgrows : Grows P h h') (hbefore : h <:+ before) (hafter : before <:+ h') :
    Grows P h before := by
  induction hgrows with
  | refl =>
    rw [hafter.sublist.antisymm hbefore.sublist]
    exact .refl
  | cons hgrows he ih =>
    rcases suffix_cons_iff.1 hafter with rfl | hafter
    · exact .cons hgrows he
    · exact ih hafter

theorem invariant (hgrows : Grows P h h') {I : History Op Answer → Prop} (hI : I h)
    (hstep : ∀ h' e, h <:+ h' → P h' e → I h' → I (e :: h')) : I h' := by
  induction hgrows with
  | refl => exact hI
  | cons hgrows he ih => exact hstep _ _ hgrows.suffix he ih

end Grows

end Interaction
