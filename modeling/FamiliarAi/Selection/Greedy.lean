import Mathlib.Algebra.BigOperators.Group.List.Basic
import Mathlib.Algebra.Order.Ring.Nat
import Mathlib.Data.List.Nodup

/-!
# Greedy selection

Items with weights come in an order, and each is taken if it fits beside what was taken before it.
`Greedy.pick` is the selection as a recursion, and `Greedy.Chooses` says what it selects without one:
an item is taken exactly when it fits beside the taken items that come **before** it, in whatever
order these are listed.
-/

namespace Greedy

open List

variable {α : Type*} (w : α → ℕ) (capacity : ℕ)

/-- The items that fit, each beside those taken before it and the weight used at the start. -/
def pick (used : ℕ) : List α → List α
  | [] => []
  | a :: items =>
    if used + w a ≤ capacity then a :: pick (used + w a) items else pick used items

variable {w capacity} {used : ℕ}

theorem pick_cons_of_le {a : α} (h : used + w a ≤ capacity) (items : List α) :
    pick w capacity used (a :: items) = a :: pick w capacity (used + w a) items :=
  if_pos h

theorem pick_cons_of_lt {a : α} (h : ¬used + w a ≤ capacity) (items : List α) :
    pick w capacity used (a :: items) = pick w capacity used items :=
  if_neg h

theorem pick_sublist (used : ℕ) (items : List α) : (pick w capacity used items).Sublist items := by
  induction items generalizing used with
  | nil => exact .slnil
  | cons a items ih =>
    by_cases ha : used + w a ≤ capacity
    · rw [pick_cons_of_le ha]
      exact (ih _).cons_cons a
    · rw [pick_cons_of_lt ha]
      exact (ih _).cons a

/-- What is taken never weighs more than there is room for. -/
theorem used_add_sum_pick_le (h : used ≤ capacity) (items : List α) :
    used + ((pick w capacity used items).map w).sum ≤ capacity := by
  induction items generalizing used with
  | nil => exact h
  | cons a items ih =>
    by_cases ha : used + w a ≤ capacity
    · rw [pick_cons_of_le ha, map_cons, sum_cons]
      have := ih ha
      omega
    · rw [pick_cons_of_lt ha]
      exact ih h

section Before

variable (before : α → α → Prop) [DecidableRel before]

variable (w capacity used) in
def Chooses (items chosen : List α) : Prop :=
  ∀ a ∈ items, a ∈ chosen ↔ used + ((chosen.filter fun b ↦ before b a).map w).sum + w a ≤ capacity

variable {before}

theorem Chooses.perm {items items' chosen chosen' : List α}
    (h : Chooses w capacity used before items chosen) (hitems : items.Perm items')
    (hchosen : chosen.Perm chosen') : Chooses w capacity used before items' chosen' := by
  intro a ha
  rw [← hchosen.mem_iff, h a (hitems.mem_iff.2 ha),
    ((hchosen.filter fun b ↦ before b a).map w).sum_eq]

theorem chooses_pick {items : List α} (hsorted : items.Pairwise before)
    (hasymm : ∀ a b, before a b → ¬before b a) :
    Chooses w capacity used before items (pick w capacity used items) := by
  induction items generalizing used with
  | nil => exact fun a ha ↦ absurd ha not_mem_nil
  | cons a items ih =>
    obtain ⟨hfirst, hrest⟩ := pairwise_cons.1 hsorted
    have hirrefl (c : α) : ¬before c c := fun h ↦ hasymm c c h h
    have hout (used : ℕ) : a ∉ pick w capacity used items := fun h ↦
      hirrefl a (hfirst a ((pick_sublist used items).subset h))
    -- nothing that is taken later comes before the first item
    have hnone (used : ℕ) : (pick w capacity used items).filter (fun b ↦ before b a) = [] := by
      refine filter_eq_nil_iff.2 fun b hb ↦ ?_
      rw [decide_eq_true_eq]
      exact hasymm a b (hfirst b ((pick_sublist used items).subset hb))
    intro c hc
    by_cases hle : used + w a ≤ capacity
    · rw [pick_cons_of_le hle]
      rcases mem_cons.1 hc with rfl | hc
      · rw [filter_cons_of_neg (by simpa using hirrefl c), hnone]
        exact ⟨fun _ ↦ hle, fun _ ↦ mem_cons_self⟩
      · have hac := hfirst c hc
        have hne : c ≠ a := fun h ↦ hirrefl a (h ▸ hac)
        rw [filter_cons_of_pos (by simpa using hac), map_cons, sum_cons,
          mem_cons, or_iff_right hne, ih hrest c hc, Nat.add_assoc used (w a)]
    · rw [pick_cons_of_lt hle]
      rcases mem_cons.1 hc with rfl | hc
      · rw [hnone]
        exact ⟨fun h ↦ absurd h (hout used), fun h ↦ absurd h hle⟩
      · exact ih hrest c hc

end Before

end Greedy
