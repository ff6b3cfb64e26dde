import FamiliarAi.Text.Split

/-!
# Text that is written

Lists with commas between their items, and documents of lines. Both are read back as they were
written when the separators do not occur in the parts.
-/

namespace Text

open List

variable {items : List (List Char)} {ls : List (List Char)}

/-! ### Lists with commas -/

/-- The items with commas and blanks between them. -/
def commaList : List (List Char) → List Char
  | [] => []
  | first :: rest => [','].intercalate (first :: rest.map (' ' :: ·))

theorem splitOn_commaList (hne : items ≠ []) (hcomma : ∀ item ∈ items, ',' ∉ item) :
    ∃ first rest, items = first :: rest ∧
      splitOn ',' (commaList items) = first :: rest.map (' ' :: ·) := by
  obtain ⟨first, rest, rfl⟩ := exists_cons_of_ne_nil hne
  refine ⟨first, rest, rfl, ?_⟩
  rw [commaList, splitOn_eq_listSplitOn, splitOn_intercalate]
  · intro piece hpiece
    rcases mem_cons.1 hpiece with rfl | hpiece
    · exact hcomma piece mem_cons_self
    · obtain ⟨item, hitem, rfl⟩ := mem_map.1 hpiece
      have hitem := hcomma item (mem_cons_of_mem _ hitem)
      simp [hitem]
  · exact cons_ne_nil _ _

theorem map_trimWhere_splitOn (hne : items ≠ []) (hcomma : ∀ item ∈ items, ',' ∉ item)
    {p : Char → Bool} (hblank : p ' ' = true) (htrim : ∀ item ∈ items, trimWhere p item = item) :
    (splitOn ',' (commaList items)).map (trimWhere p) = items := by
  obtain ⟨first, rest, rfl, hsplit⟩ := splitOn_commaList hne hcomma
  rw [hsplit, map_cons, htrim first mem_cons_self, map_map]
  refine congrArg _ ((map_congr_left fun item hitem ↦ ?_).trans (map_id rest))
  exact (trimWhere_cons hblank item).trans (htrim item (mem_cons_of_mem _ hitem))

theorem commaList_cons (first : List Char) (rest : List (List Char)) :
    ∃ others, commaList (first :: rest) = first ++ others := by
  rcases rest with _ | ⟨second, rest⟩
  · exact ⟨[], by simp [commaList, List.intercalate]⟩
  exact ⟨',' :: [','].intercalate ((second :: rest).map (' ' :: ·)),
    by simp [commaList, List.intercalate]⟩

theorem mem_commaList {c : Char} (hc : c ∈ commaList items) :
    c = ',' ∨ c = ' ' ∨ ∃ item ∈ items, c ∈ item := by
  rcases items with _ | ⟨first, rest⟩
  · cases hc
  induction rest generalizing first with
  | nil => exact .inr (.inr ⟨first, mem_cons_self, by simpa [commaList] using hc⟩)
  | cons second rest ih =>
    have htext : commaList (first :: second :: rest) =
        first ++ ',' :: ' ' :: commaList (second :: rest) := by
      cases rest <;> simp [commaList, List.intercalate]
    rw [htext, mem_append, mem_cons, mem_cons] at hc
    rcases hc with hc | rfl | rfl | hc
    · exact .inr (.inr ⟨first, mem_cons_self, hc⟩)
    · exact .inl rfl
    · exact .inr (.inl rfl)
    · rcases ih second hc with rfl | rfl | ⟨item, hitem, hc⟩
      · exact .inl rfl
      · exact .inr (.inl rfl)
      · exact .inr (.inr ⟨item, mem_cons_of_mem _ hitem, hc⟩)

/-- Lines, each with its end. -/
def document (ls : List (List Char)) : List Char :=
  ls.flatMap (· ++ ['\n'])

theorem document_cons (l : List Char) (ls : List (List Char)) :
    document (l :: ls) = l ++ '\n' :: document ls := by
  simp [document]

theorem lines_document (hfeed : ∀ l ∈ ls, '\n' ∉ l) (hreturn : ∀ l ∈ ls, '\r' ∉ l) :
    lines (document ls) = ls := by
  induction ls with
  | nil => rfl
  | cons l ls ih =>
    rw [forall_mem_cons] at hfeed hreturn
    rw [document_cons, lines_append hfeed.1 hreturn.1, ih hfeed.2 hreturn.2]

theorem lines_intercalate (hne : ls ≠ []) (hlast : ls.getLast hne ≠ []) (hfeed : ∀ l ∈ ls, '\n' ∉ l)
    (hreturn : ∀ l ∈ ls, '\r' ∉ l) :
    lines (['\n'].intercalate ls) = ls := by
  have hpieces : splitOn '\n' (['\n'].intercalate ls) = ls := by
    rw [splitOn_eq_listSplitOn, splitOn_intercalate _ hfeed hne]
  have hended :
      ls.dropLast.map (fun line ↦ (stripSuffix? ['\r'] line).getD line) = ls.dropLast := by
    refine (map_congr_left fun l hl ↦ ?_).trans (map_id _)
    rw [stripSuffix?_of_notMem (hreturn l (mem_of_mem_dropLast hl)), Option.getD_none]
    rfl
  obtain ⟨c, rest, hcons⟩ := exists_cons_of_ne_nil hlast
  simp only [lines, hpieces, hended, getLast?_eq_some_getLast hne, hcons]
  rw [← hcons, dropLast_append_getLast]

theorem splitBy_starts {α : Type} (starts : α → Bool) {groups : List (List α)}
    (h : ∀ group ∈ groups, ∃ first rest, group = first :: rest ∧ starts first = true ∧
      ∀ x ∈ rest, starts x = false) :
    groups.flatten.splitBy (fun _ x ↦ !starts x) = groups := by
  refine splitBy_flatten ?_ ?_ ?_
  · intro hnil
    obtain ⟨first, rest, hgroup, -⟩ := h [] hnil
    cases hgroup
  · intro group hgroup
    obtain ⟨first, rest, rfl, -, hrest⟩ := h group hgroup
    clear hgroup
    induction rest generalizing first with
    | nil => exact .singleton _
    | cons second rest ih =>
      rw [forall_mem_cons] at hrest
      exact isChain_cons_cons.2 ⟨by rw [hrest.1]; rfl, ih second hrest.2⟩
  · induction groups with
    | nil => exact .nil
    | cons group groups ih =>
      rw [forall_mem_cons] at h
      rcases groups with _ | ⟨next, groups⟩
      · exact .singleton _
      obtain ⟨first, rest, rfl, -⟩ := h.1
      obtain ⟨first', rest', rfl, hstarts, -⟩ := h.2 _ mem_cons_self
      refine isChain_cons_cons.2 ⟨⟨cons_ne_nil _ _, cons_ne_nil _ _, ?_⟩, ih h.2⟩
      rw [head_cons, hstarts]
      rfl

theorem splitInclusive_document (h : ∀ l ∈ ls, '\n' ∉ l) :
    splitInclusive '\n' (document ls) = ls.map (· ++ ['\n']) := by
  have hdocument : document ls = (ls.map (· ++ ['\n'])).flatten := flatMap_def
  rw [splitInclusive, hdocument]
  refine splitBy_flatten ?_ ?_ ?_
  · rw [mem_map]
    rintro ⟨l, -, hnil⟩
    exact append_ne_nil_of_right_ne_nil l (cons_ne_nil _ _) hnil
  · refine forall_mem_map.2 fun l hl ↦ ?_
    have hfeed := h l hl
    clear hl
    induction l with
    | nil => exact .singleton _
    | cons c l ih =>
      rw [mem_cons, not_or] at hfeed
      have hc : decide (c ≠ '\n') = true := decide_eq_true (Ne.symm hfeed.1)
      cases l with
      | nil => exact isChain_cons_cons.2 ⟨hc, .singleton _⟩
      | cons d l => exact isChain_cons_cons.2 ⟨hc, ih hfeed.2⟩
  · clear hdocument
    induction ls with
    | nil => exact .nil
    | cons l ls ih =>
      rw [forall_mem_cons] at h
      rcases ls with _ | ⟨next, ls⟩
      · exact .singleton _
      refine isChain_cons_cons.2 ⟨⟨append_ne_nil_of_right_ne_nil _ (cons_ne_nil _ _),
        append_ne_nil_of_right_ne_nil _ (cons_ne_nil _ _), ?_⟩, ih h.2⟩
      rw [getLast_concat]
      rfl

end Text
