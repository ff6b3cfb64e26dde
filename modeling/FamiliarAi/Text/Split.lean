import FamiliarAi.Text.Basic
import Mathlib.Data.List.TakeWhile

/-!
# Pieces between separators

The pieces of a text are those that the library of lists knows. None of them holds the separator,
and two texts with a separator between them have the pieces of the one and then those of the other.
-/

namespace Text

open List

variable {p : Char → Bool} {separator : Char} {text : List Char} {c : Char}
  {pattern before : List Char}

theorem splitOn_eq_listSplitOn (separator : Char) (text : List Char) :
    splitOn separator text = text.splitOn separator := by
  induction text with
  | nil => rfl
  | cons c text ih =>
    rw [splitOn, splitOn_cons_eq_if_modifyHead, ih]
    simp only [beq_iff_eq]
    split
    · rfl
    · cases hpieces : text.splitOn separator with
      | nil => exact absurd hpieces (List.splitOn_ne_nil _ _)
      | cons piece pieces => rfl

theorem splitOn_append_cons (separator : Char) (text rest : List Char) :
    splitOn separator (text ++ separator :: rest) =
      splitOn separator text ++ splitOn separator rest := by
  simp only [splitOn_eq_listSplitOn, splitOn_append_cons_self]

theorem notMem_of_mem_splitOn {text piece : List Char} (h : piece ∈ splitOn separator text) :
    separator ∉ piece := by
  induction text generalizing piece with
  | nil =>
    rw [splitOn, mem_singleton] at h
    rw [h]
    exact not_mem_nil
  | cons c text ih =>
    rw [splitOn] at h
    split at h
    · rcases mem_cons.1 h with rfl | h
      · exact not_mem_nil
      · exact ih h
    · rename_i hc
      split at h
      · rename_i hnil
        exact absurd hnil (splitOn_ne_nil separator text)
      · rename_i first pieces hpieces
        rw [hpieces] at ih
        rcases mem_cons.1 h with rfl | h
        · rw [mem_cons, not_or]
          exact ⟨fun heq ↦ hc heq.symm, ih mem_cons_self⟩
        · exact ih (mem_cons_of_mem _ h)

theorem splitOn_of_notMem (h : separator ∉ text) :
    splitOn separator text = [text] := by
  induction text with
  | nil => rfl
  | cons c text ih =>
    rw [mem_cons, not_or] at h
    rw [splitOn, if_neg (Ne.symm h.1), ih h.2]

theorem eq_of_append_cons_eq {before before' last last' : List Char} (hlast : separator ∉ last)
    (hlast' : separator ∉ last') (h : before ++ separator :: last = before' ++ separator :: last') :
    last = last' := by
  have hpieces := congrArg (splitOn separator) h
  rw [splitOn_append_cons, splitOn_append_cons, splitOn_of_notMem hlast, splitOn_of_notMem hlast']
    at hpieces
  exact (append_inj' hpieces rfl).2 |> singleton_inj.1

def splitFirst? (pattern : List Char) : List Char → Option (List Char × List Char)
  | [] => (stripPrefix? pattern []).map fun rest ↦ ([], rest)
  | c :: text =>
    match stripPrefix? pattern (c :: text) with
    | some rest => some ([], rest)
    | none => (splitFirst? pattern text).map fun parts ↦ (c :: parts.1, parts.2)

theorem splitFirst?_append_of_notMem (hc : c ∉ before) (text : List Char) :
    splitFirst? (c :: pattern) (before ++ text) =
      (splitFirst? (c :: pattern) text).map fun parts ↦ (before ++ parts.1, parts.2) := by
  induction before with
  | nil => simp
  | cons d before ih =>
    rw [mem_cons, not_or] at hc
    have hstrip : stripPrefix? (c :: pattern) (d :: (before ++ text)) = none := if_neg hc.1
    rw [cons_append, splitFirst?, hstrip, ih hc.2, Option.map_map]
    rfl

theorem splitFirst?_append_append (hc : c ∉ before) (after : List Char) :
    splitFirst? (c :: pattern) (before ++ (c :: pattern ++ after)) = some (before, after) := by
  rw [splitFirst?_append_of_notMem hc, cons_append, splitFirst?, ← cons_append,
    stripPrefix?_append, Option.map_some, append_nil]

/-- Drop the characters of a kind at the end. -/
def trimEnd (p : Char → Bool) (text : List Char) : List Char :=
  (text.reverse.dropWhile p).reverse

/-- Drop the characters of a kind at both ends. -/
def trimWhere (p : Char → Bool) (text : List Char) : List Char :=
  trimEnd p (text.dropWhile p)

theorem trimEnd_isPrefix (p : Char → Bool) (text : List Char) : trimEnd p text <+: text := by
  have hsuffix := dropWhile_suffix p (l := text.reverse)
  rwa [← reverse_prefix, reverse_reverse] at hsuffix

theorem trimEnd_eq_self (h : ∀ c ∈ text.getLast?, p c = false) : trimEnd p text = text := by
  rw [trimEnd]
  rcases hreverse : text.reverse with _ | ⟨c, rest⟩
  · rw [reverse_eq_nil_iff.1 hreverse]; rfl
  have hc : p c = false := h c (by rw [getLast?_eq_head?_reverse, hreverse]; rfl)
  rw [dropWhile_cons_of_neg (by rw [hc]; exact Bool.false_ne_true), ← hreverse, reverse_reverse]

/-- Nothing is trimmed where both ends stay. -/
theorem trimWhere_eq_self (hhead : ∀ c ∈ text.head?, p c = false)
    (hlast : ∀ c ∈ text.getLast?, p c = false) :
    trimWhere p text = text := by
  have hdrop : text.dropWhile p = text := by
    cases text with
    | nil => rfl
    | cons c text =>
      exact dropWhile_cons_of_neg (by rw [hhead c rfl]; exact Bool.false_ne_true)
  rw [trimWhere, hdrop, trimEnd_eq_self hlast]

theorem trimWhere_cons (hc : p c = true) (text : List Char) :
    trimWhere p (c :: text) = trimWhere p text := by
  rw [trimWhere, dropWhile_cons_of_pos hc]
  rfl

/-- A character that stays at the head is not trimmed away. -/
theorem trimWhere_cons_ne_nil (hc : p c = false) (text : List Char) :
    trimWhere p (c :: text) ≠ [] := by
  intro h
  rw [trimWhere, trimEnd, reverse_eq_nil_iff, dropWhile_eq_nil_iff,
    dropWhile_cons_of_neg (by rw [hc]; exact Bool.false_ne_true)] at h
  have htrimmed := h c (mem_reverse.2 mem_cons_self)
  rw [hc] at htrimmed
  cases htrimmed

/-!
## Occurrences of a pattern

A pattern occurs in a text at each position from which the text goes on with it, and occurrences may
overlap. A scan from the left that goes on behind each occurrence meets only some of them: an
occurrence that begins inside one that is met is hidden (`Hidden`), and what begins inside a hidden
one may be met again.
-/

variable {α : Type} {pattern text before after : List α} {i j : ℕ}

/-- The pattern begins at the position. -/
def OccursAt (pattern text : List α) (i : ℕ) : Prop :=
  pattern <+: text.drop i

instance OccursAt.decidable [DecidableEq α] (pattern text : List α) (i : ℕ) :
    Decidable (OccursAt pattern text i) :=
  inferInstanceAs (Decidable (pattern <+: text.drop i))

/-- The position is inside an earlier occurrence that is not hidden itself. -/
def Hidden (pattern text : List α) (i : ℕ) : Prop :=
  ∃ j, ∃ _ : j < i, i < j + pattern.length ∧ OccursAt pattern text j ∧ ¬Hidden pattern text j
termination_by i

theorem hidden_iff : Hidden pattern text i ↔ ∃ j < i, i < j + pattern.length ∧
    OccursAt pattern text j ∧ ¬Hidden pattern text j := by
  rw [Hidden]
  simp only [exists_prop]

theorem OccursAt.add_length_le (h : OccursAt pattern text i) (hpattern : pattern ≠ []) :
    i + pattern.length ≤ text.length := by
  have hlength := List.IsPrefix.length_le h
  have hpos := length_pos_iff.2 hpattern
  rw [length_drop] at hlength
  omega

theorem drop_append_append (before after : List α) (hi : i ≤ text.length) :
    (before ++ text ++ after).drop (before.length + i) = text.drop i ++ after := by
  rw [append_assoc, ← drop_drop, drop_left, drop_append_of_le_length hi]

theorem OccursAt.append (h : OccursAt pattern text i) (hi : i ≤ text.length) :
    OccursAt pattern (before ++ text ++ after) (before.length + i) := by
  rw [OccursAt, drop_append_append before after hi]
  exact h.trans (prefix_append _ _)

end Text
