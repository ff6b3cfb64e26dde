import FamiliarAi.Json.Basic
import FamiliarAi.Text.Basic

/-!
# Sizes of JSON texts

The size of a number grows with the number, and a text of printable ASCII characters is as long in a
string as it is outside, up to the two quotation marks.
-/

namespace Json

open Text List

variable {members members' : List (String × Json)} {c : Char}

/-- Characters that a string keeps as they are, in one byte. -/
def IsPlain (c : Char) : Prop :=
  32 ≤ c.toNat ∧ c.toNat < 128 ∧ c ≠ '"' ∧ c ≠ '\\'

instance : DecidablePred IsPlain :=
  fun _ ↦ inferInstanceAs (Decidable (_ ∧ _ ∧ _ ∧ _))

theorem utf8Size_eq_one (h : c.toNat < 128) : c.utf8Size = 1 := by
  rw [Char.utf8Size_eq_one_iff, UInt32.le_iff_toNat_le]
  exact Nat.le_of_lt_succ h

theorem escapeChar_of_isPlain (h : IsPlain c) : escapeChar c = [c] := by
  obtain ⟨hlow, -, hquote, hbackslash⟩ := h
  have hne {d : Char} (hd : d.toNat < 32) : c ≠ d := by
    rintro rfl
    omega
  have hshort : shortEscape c = none := by
    unfold shortEscape
    rw [if_neg hquote, if_neg hbackslash, if_neg (hne (by decide)), if_neg (hne (by decide)),
      if_neg (hne (by decide)), if_neg (hne (by decide)), if_neg (hne (by decide))]
  simp [escapeChar, hshort, Nat.not_lt.2 hlow]

theorem byteSize_renderChars {text : List Char} (h : ∀ c ∈ text, IsPlain c) :
    byteSize (renderChars text) = text.length + 1 := by
  induction text with
  | nil => rfl
  | cons c text ih =>
    have hc := h c mem_cons_self
    rw [renderChars, escapeChar_of_isPlain hc, byteSize_append, byteSize_cons, byteSize_nil,
      utf8Size_eq_one hc.2.1, ih fun d hd ↦ h d (mem_cons_of_mem _ hd), length_cons]
    omega

theorem byteSize_renderStr {s : String} (h : ∀ c ∈ s.toList, IsPlain c) :
    byteSize (renderStr s) = s.toList.length + 2 := by
  rw [renderStr, byteSize_cons, byteSize_renderChars h]
  have hquote : Char.utf8Size '"' = 1 := by decide
  omega

theorem length_le_byteSize_renderChars (text : List Char) :
    text.length + 1 ≤ byteSize (renderChars text) := by
  induction text with
  | nil => exact Nat.le_refl 1
  | cons c text ih =>
    have hescape : 0 < byteSize (escapeChar c) := by
      unfold escapeChar
      split
      · rw [byteSize_cons]
        exact Nat.add_pos_left (Char.utf8Size_pos _) _
      · split_ifs
        · rw [byteSize_cons]
          exact Nat.add_pos_left (Char.utf8Size_pos _) _
        · rw [byteSize_cons]
          exact Nat.add_pos_left (Char.utf8Size_pos _) _
    rw [renderChars, byteSize_append, length_cons]
    omega

theorem byteSize_renderChars_le (text : List Char) :
    byteSize (renderChars text) ≤ 6 * text.length + 1 := by
  induction text with
  | nil => exact Nat.le_refl 1
  | cons c text ih =>
    have hescape : byteSize (escapeChar c) ≤ 6 := by
      have hbackslash : Char.utf8Size '\\' = 1 := by decide
      have hu : Char.utf8Size 'u' = 1 := by decide
      have hzero : Char.utf8Size '0' = 1 := by decide
      have hhex : ∀ n < 16, (Nat.digitChar n).utf8Size = 1 := by decide
      have hsize (d : Char) : d.utf8Size ≤ 4 := Char.utf8Size_le_four d
      unfold escapeChar
      split
      · rename_i letter _
        have hletter := hsize letter
        simp only [byteSize_cons, byteSize_nil, hbackslash]
        omega
      · split_ifs with hcontrol
        · have hhigh := hhex (c.toNat / 16) (by omega)
          have hlow := hhex (c.toNat % 16) (by omega)
          simp only [byteSize_cons, byteSize_nil, hbackslash, hu, hzero, hhigh, hlow]
          omega
        · have hc := hsize c
          simp only [byteSize_cons, byteSize_nil]
          omega
    rw [renderChars, byteSize_append, length_cons]
    omega

theorem byteSize_toDigits (n : ℕ) :
    byteSize (Nat.toDigits 10 n) = (Nat.toDigits 10 n).length := by
  have hone : ∀ c ∈ Nat.toDigits 10 n, c.utf8Size = 1 := by
    intro c hc
    have hdigit := Nat.isDigit_of_mem_toDigits (by decide) (by decide) hc
    simp only [Char.isDigit, Bool.and_eq_true, decide_eq_true_eq] at hdigit
    exact utf8Size_eq_one (Nat.lt_of_le_of_lt (UInt32.le_iff_toNat_le.1 hdigit.2) (by decide))
  generalize Nat.toDigits 10 n = digits at hone
  induction digits with
  | nil => rfl
  | cons c digits ih =>
    rw [byteSize_cons, hone c mem_cons_self, length_cons,
      ih fun d hd ↦ hone d (mem_cons_of_mem _ hd)]
    omega

theorem byteSize_render_nat (n : ℕ) :
    byteSize (Json.nat n).render = (Nat.toDigits 10 n).length :=
  byteSize_toDigits n

/-- **The size of a number grows with the number.** -/
theorem length_toDigits_mono {m n : ℕ} (h : m ≤ n) :
    (Nat.toDigits 10 m).length ≤ (Nat.toDigits 10 n).length := by
  have hpos := Nat.length_toDigits_pos (b := 10) (n := n)
  have hn := (Nat.length_toDigits_le_iff (by decide) hpos).1 (Nat.le_refl _)
  exact (Nat.length_toDigits_le_iff (by decide) hpos).2 (Nat.lt_of_le_of_lt h hn)

def valuesSize (members : List (String × Json)) : ℕ :=
  (members.map fun member ↦ byteSize member.2.render).sum

@[simp]
theorem valuesSize_nil : valuesSize [] = 0 :=
  rfl

@[simp]
theorem valuesSize_cons (member : String × Json) (members : List (String × Json)) :
    valuesSize (member :: members) = byteSize member.2.render + valuesSize members := by
  simp [valuesSize]

@[simp]
theorem valuesSize_append (members members' : List (String × Json)) :
    valuesSize (members ++ members') = valuesSize members + valuesSize members' := by
  simp [valuesSize]

theorem byteSize_renderMember (member : String × Json) :
    byteSize (renderMember member) =
      byteSize (renderStr member.1) + 1 + byteSize member.2.render := by
  obtain ⟨name, value⟩ := member
  have hcolon : Char.utf8Size ':' = 1 := by decide
  rw [renderMember, byteSize_append, byteSize_cons, hcolon, Nat.add_assoc]

theorem byteSize_renderMoreMembers_add (h : members.map Prod.fst = members'.map Prod.fst) :
    byteSize (renderMoreMembers members) + valuesSize members' =
      byteSize (renderMoreMembers members') + valuesSize members := by
  induction members generalizing members' with
  | nil =>
    cases members' with
    | nil => rfl
    | cons member' members' => cases h
  | cons member members ih =>
    rcases members' with _ | ⟨member', members'⟩
    · cases h
    obtain ⟨hname, hnames⟩ := cons.inj h
    have hrest := ih hnames
    simp only [renderMoreMembers, byteSize_cons, byteSize_append, byteSize_renderMember, hname,
      valuesSize_cons]
    omega

/-- **The size of an object grows with the sizes of its values, and by as much.** -/
theorem byteSize_render_obj_add (h : members.map Prod.fst = members'.map Prod.fst) :
    byteSize (obj members).render + valuesSize members' =
      byteSize (obj members').render + valuesSize members := by
  rcases members with _ | ⟨member, members⟩
  · cases members' with
    | nil => rfl
    | cons member' members' => cases h
  rcases members' with _ | ⟨member', members'⟩
  · cases h
  obtain ⟨hname, hnames⟩ := cons.inj h
  have hrest := byteSize_renderMoreMembers_add hnames
  simp only [render, renderMembers, byteSize_cons, byteSize_append, byteSize_renderMember,
    hname, valuesSize_cons]
  omega

theorem byteSize_render_obj_concat (members : List (String × Json)) (name : String)
    (value value' : Json) :
    byteSize (obj (members ++ [(name, value)])).render + byteSize value'.render =
      byteSize (obj (members ++ [(name, value')])).render + byteSize value.render := by
  have hnames : (members ++ [(name, value)]).map Prod.fst =
      (members ++ [(name, value')]).map Prod.fst := by
    rw [map_append, map_append]
    rfl
  have hsize := byteSize_render_obj_add hnames
  simp only [valuesSize_append, valuesSize_cons, valuesSize_nil] at hsize
  omega

end Json
