import Mathlib.Order.Iterate
import Mathlib.Data.List.Basic

/-!
# Transition systems

A system starts in some states and answers an event with the next state, or with nothing when the
event cannot happen where it stands. Several parties that act in any order are one system whose events
are the steps of all of them.

A run may be restricted by a condition on the state and the event of each of its steps. What holds at
the start and is kept by the steps under the condition holds in every state of such a run
(`Reaches.invariant`). A concrete run is evaluated with `run`.
-/

namespace Transition

/-- What starts where, and what an event does. -/
structure System (σ ε : Type) where
  start : σ → Prop
  step : σ → ε → Option σ

namespace System

variable {σ ε : Type} {S : System σ ε} {C D : σ → ε → Prop} {s s' : σ} {e : ε} {es : List ε}

/-- The states of the runs whose steps all meet the condition. -/
inductive Reaches (S : System σ ε) (C : σ → ε → Prop) : σ → Prop
  | start {s : σ} : S.start s → Reaches S C s
  | step {s s' : σ} {e : ε} : Reaches S C s → C s e → S.step s e = some s' → Reaches S C s'

/-- The states of all runs. -/
abbrev Reachable (S : System σ ε) : σ → Prop :=
  S.Reaches fun _ _ ↦ True

/-- **The induction over a run.** -/
theorem Reaches.invariant {I : σ → Prop} (h : S.Reaches C s) (hstart : ∀ s, S.start s → I s)
    (hstep : ∀ s e s', I s → C s e → S.step s e = some s' → I s') : I s := by
  induction h with
  | start hs => exact hstart _ hs
  | step _ hC hs ih => exact hstep _ _ _ ih hC hs

/-- Follow the events as long as the condition is met. -/
def run (S : System σ ε) (C : σ → ε → Prop) [∀ s e, Decidable (C s e)] : σ → List ε → Option σ
  | s, [] => some s
  | s, e :: es => if C s e then (S.step s e).bind fun s' ↦ S.run C s' es else none

theorem Reaches.of_run [∀ s e, Decidable (C s e)] (h : S.Reaches C s)
    (hrun : S.run C s es = some s') : S.Reaches C s' := by
  induction es generalizing s with
  | nil =>
    obtain rfl := Option.some.inj hrun
    exact h
  | cons e es ih =>
    rw [run] at hrun
    split at hrun
    · rename_i hC
      obtain ⟨t, ht, hrest⟩ := Option.bind_eq_some_iff.1 hrun
      exact ih (h.step hC ht) hrest
    · cases hrun

theorem reaches_get [∀ s e, Decidable (C s e)] (hs : S.start s) (hrun : (S.run C s es).isSome) :
    S.Reaches C ((S.run C s es).get hrun) :=
  (Reaches.start hs).of_run (Option.some_get hrun).symm

theorem exists_reaches [∀ s e, Decidable (C s e)] {P : σ → Prop} [DecidablePred P] (hs : S.start s)
    (es : List ε) (hrun : (S.run C s es).any (fun s' ↦ decide (P s')) = true) :
    ∃ s', S.Reaches C s' ∧ P s' := by
  obtain ⟨s', hs', hP⟩ := (Option.any_eq_true _ _).1 hrun
  exact ⟨s', (Reaches.start hs).of_run hs', of_decide_eq_true hP⟩

end System

/-!
## Loops

A loop does the same round again and again, each on the state that the last one left, until a round
comes to an outcome. Nothing says that one ever does: a loop is run for a number of rounds, and it
ends when its rounds lower a measure (`exists_loop`).

A loop that looks for a fixed point of a monotone function from below cannot swing between two
values, and finds one when the function leaves some bound alone (`iterate_eq_of_le_bound`).
-/

/-- What a round of a loop comes to. -/
inductive Round (σ α : Type)
  | done (outcome : α)
  /-- The loop goes on. -/
  | next (s : σ)

/-- The outcome of the loop, if it has one within `n` rounds. -/
def loop {σ α : Type} (round : σ → Round σ α) : ℕ → σ → Option α
  | 0, _ => none
  | n + 1, s =>
    match round s with
    | .done outcome => some outcome
    | .next s' => loop round n s'

section Loop

variable {σ α : Type} (round : σ → Round σ α) (I : σ → Prop) (R : σ → α → Prop)

/-- **A loop whose rounds lower a measure ends.** What the last round finds out about its outcome is
handed back through the rounds before it. -/
theorem exists_loop (measure : σ → ℕ)
    (hdone : ∀ s outcome, I s → round s = .done outcome → R s outcome)
    (hnext : ∀ s s', I s → round s = .next s' →
      I s' ∧ measure s' < measure s ∧ ∀ outcome, R s' outcome → R s outcome)
    {n : ℕ} {s : σ} (hs : I s) (hn : measure s < n) :
    ∃ outcome, loop round n s = some outcome ∧ R s outcome := by
  induction n generalizing s with
  | zero => exact absurd hn (Nat.not_lt_zero _)
  | succ n ih =>
    rw [loop]
    cases hround : round s with
    | done outcome => exact ⟨outcome, rfl, hdone s outcome hs hround⟩
    | next s' =>
      obtain ⟨hs', hlower, hback⟩ := hnext s s' hs hround
      obtain ⟨outcome, hloop, hR⟩ := ih hs' (by omega)
      exact ⟨outcome, hloop, hback outcome hR⟩

end Loop

section Iterate

variable {f : ℕ → ℕ} {bound : ℕ}

theorem monotone_iterate_zero (hf : Monotone f) : Monotone fun n ↦ f^[n] 0 :=
  hf.monotone_iterate_of_le_map (Nat.zero_le _)

theorem iterate_le_bound (hf : Monotone f) (hbound : f bound ≤ bound) (n : ℕ) :
    f^[n] 0 ≤ bound := by
  induction n with
  | zero => exact Nat.zero_le _
  | succ n ih =>
    rw [Function.iterate_succ_apply']
    exact (hf ih).trans hbound

/-- **A monotone function that does not leave a bound has a fixed point that is found from below**,
in no more steps than the bound. -/
theorem iterate_eq_of_le_bound (hf : Monotone f) (hbound : f bound ≤ bound) :
    f^[bound + 1] 0 = f^[bound] 0 := by
  refine Nat.stabilises_of_monotone (monotone_iterate_zero hf) (iterate_le_bound hf hbound) ?_
    (Nat.le_succ bound)
  intro n hn
  show f^[n + 1] 0 = f^[n + 2] 0
  rw [Function.iterate_succ_apply' f (n + 1), ← hn, ← Function.iterate_succ_apply' f n]
  exact hn.symm ▸ rfl

end Iterate

/-!
## Parties

The parties of a system stand in a list, and a step is taken by one of them at its own place. What
each party may assert, by its place and its state, is an assertion of the system as well: after a
step the party that took it has to establish its own assertion, and the others have to find theirs
undisturbed.
-/

variable {π : Type} {A B : ℕ → π → Prop} {parties : List π} {i : ℕ} {p p' : π}

/-- Every party's assertion holds at its place. -/
def Everyone (A : ℕ → π → Prop) (parties : List π) : Prop :=
  ∀ i p, parties[i]? = some p → A i p

namespace Everyone

theorem nil : Everyone A [] :=
  fun _ _ h ↦ nomatch h

theorem imp (h : Everyone A parties) (hAB : ∀ j q, parties[j]? = some q → A j q → B j q) :
    Everyone B parties :=
  fun j q hq ↦ hAB j q hq (h j q hq)

/-- **Non-interference.** One party takes a step. -/
theorem set (h : Everyone A parties) (hown : B i p')
    (hothers : ∀ j q, j ≠ i → parties[j]? = some q → A j q → B j q) :
    Everyone B (parties.set i p') := by
  intro j q hq
  by_cases hj : j = i
  · subst hj
    obtain ⟨rfl, -⟩ : p' = q ∧ j < parties.length := by
      rw [List.getElem?_set_self'] at hq
      rcases hget : parties[j]? with _ | old
      · rw [hget] at hq
        cases hq
      rw [hget] at hq
      exact ⟨Option.some.inj hq, (List.getElem?_eq_some_iff.1 hget).1⟩
    exact hown
  · rw [List.getElem?_set_ne (Ne.symm hj)] at hq
    exact hothers j q hj hq (h j q hq)

theorem concat (h : Everyone A parties) (hnew : B parties.length p)
    (hothers : ∀ j q, parties[j]? = some q → A j q → B j q) : Everyone B (parties ++ [p]) := by
  intro j q hq
  rcases Nat.lt_trichotomy j parties.length with hj | rfl | hj
  · rw [List.getElem?_append_left hj] at hq
    exact hothers j q hq (h j q hq)
  · rw [List.getElem?_concat_length] at hq
    obtain rfl := Option.some.inj hq
    exact hnew
  · rw [List.getElem?_eq_none (by rw [List.length_append]; exact hj)] at hq
    cases hq

end Everyone

end Transition
