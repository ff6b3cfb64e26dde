import Mathlib.Data.Int.Notation
import Mathlib.Data.List.Basic
/-!
# JSON texts

JSON values and the compact text that a serialiser writes for them: no white space between tokens,
integers in decimal, strings with the two mandatory escapes, the five short ones and the control
characters in hexadecimal. The members of an object stay in the order in which they are given.

The text determines the value (`render_injective`). It even does so inside a longer text: a value
is followed by a delimiter or by nothing, and two texts that begin with a value and go on with a
delimiter begin with the same value (`render_append_inj`).
-/

/-- A JSON value whose numbers are integers. -/
inductive Json
  | null
  | bool (b : Bool)
  | num (n : ℤ)
  | str (s : String)
  | arr (items : List Json)
  | obj (members : List (String × Json))

namespace Json

open List

section Values

variable {α : Type}

def nat (n : ℕ) : Json :=
  .num n

/-- A missing value is `null`. -/
def option (encode : α → Json) : Option α → Json
  | none => .null
  | some a => encode a

def array (encode : α → Json) (items : List α) : Json :=
  .arr (items.map encode)

def members : Json → List (String × Json)
  | .obj members => members
  | _ => []

end Values

/-- The letter that stands for a character after a backslash. -/
def shortEscape (c : Char) : Option Char :=
  if c = '"' then some '"'
  else if c = '\\' then some '\\'
  else if c = '\n' then some 'n'
  else if c = '\r' then some 'r'
  else if c = '\t' then some 't'
  else if c = Char.ofNat 8 then some 'b'
  else if c = Char.ofNat 12 then some 'f'
  else none

/-- A character inside a string. -/
def escapeChar (c : Char) : List Char :=
  match shortEscape c with
  | some letter => ['\\', letter]
  | none =>
    if c.toNat < 32 then
      ['\\', 'u', '0', '0', Nat.digitChar (c.toNat / 16), Nat.digitChar (c.toNat % 16)]
    else [c]

/-- The characters of a string with its closing quotation mark. -/
def renderChars : List Char → List Char
  | [] => ['"']
  | c :: text => escapeChar c ++ renderChars text

def renderStr (s : String) : List Char :=
  '"' :: renderChars s.toList

def renderInt : ℤ → List Char
  | .ofNat n => Nat.toDigits 10 n
  | .negSucc n => '-' :: Nat.toDigits 10 (n + 1)

mutual

/-- The text of a value. -/
def render : Json → List Char
  | null => ['n', 'u', 'l', 'l']
  | bool true => ['t', 'r', 'u', 'e']
  | bool false => ['f', 'a', 'l', 's', 'e']
  | num n => renderInt n
  | str s => renderStr s
  | arr items => '[' :: renderItems items
  | obj members => '\x7b' :: renderMembers members

/-- The items of an array from the first one on, with the closing bracket. -/
def renderItems : List Json → List Char
  | [] => [']']
  | item :: items => render item ++ renderMoreItems items

def renderMoreItems : List Json → List Char
  | [] => [']']
  | item :: items => ',' :: (render item ++ renderMoreItems items)

/-- The members of an object from the first one on, with the closing brace. -/
def renderMembers : List (String × Json) → List Char
  | [] => ['\x7d']
  | member :: members => renderMember member ++ renderMoreMembers members

def renderMoreMembers : List (String × Json) → List Char
  | [] => ['\x7d']
  | member :: members => ',' :: (renderMember member ++ renderMoreMembers members)

def renderMember : String × Json → List Char
  | (name, value) => renderStr name ++ ':' :: render value

end

/-! ### The text of a string determines the string -/

variable {r r' : List Char} {c : Char} {j j' : Json} {m n : ℕ}

/-- The character that a letter stands for after a backslash. -/
def escapedBy (letter : Char) : Char :=
  if letter = 'n' then '\n'
  else if letter = 'r' then '\r'
  else if letter = 't' then '\t'
  else if letter = 'b' then Char.ofNat 8
  else if letter = 'f' then Char.ofNat 12
  else letter

theorem escapedBy_shortEscape {c letter : Char} (h : shortEscape c = some letter) :
    escapedBy letter = c := by
  unfold shortEscape at h
  split_ifs at h <;> rw [‹c = _›] <;> obtain rfl := Option.some.inj h <;> rfl

theorem eq_of_shortEscape {c c' letter : Char} (h : shortEscape c = some letter)
    (h' : shortEscape c' = some letter) : c = c' := by
  rw [← escapedBy_shortEscape h, escapedBy_shortEscape h']

theorem shortEscape_ne : shortEscape c ≠ some 'u' := by
  unfold shortEscape
  split_ifs <;> decide

theorem digitChar_inj (hm : m < 16) (hn : n < 16) (h : Nat.digitChar m = Nat.digitChar n) :
    m = n := by
  have hall : ∀ m < 16, ∀ n < 16, Nat.digitChar m = Nat.digitChar n → m = n := by decide
  exact hall m hm n hn h

theorem escapeChar_cases (c : Char) :
    (∃ letter, shortEscape c = some letter ∧ escapeChar c = ['\\', letter]) ∨
      (c.toNat < 32 ∧ escapeChar c = ['\\', 'u', '0', '0', Nat.digitChar (c.toNat / 16),
        Nat.digitChar (c.toNat % 16)]) ∨
      (c ≠ '"' ∧ c ≠ '\\' ∧ escapeChar c = [c]) := by
  unfold escapeChar
  cases hshort : shortEscape c with
  | some letter => exact .inl ⟨letter, rfl, rfl⟩
  | none =>
    have hquote : c ≠ '"' := by
      rintro rfl
      simp [shortEscape] at hshort
    have hbackslash : c ≠ '\\' := by
      rintro rfl
      simp [shortEscape] at hshort
    by_cases hcontrol : c.toNat < 32
    · exact .inr (.inl ⟨hcontrol, if_pos hcontrol⟩)
    · exact .inr (.inr ⟨hquote, hbackslash, if_neg hcontrol⟩)

theorem escapeChar_append_inj {c c' : Char} (h : escapeChar c ++ r = escapeChar c' ++ r') :
    c = c' ∧ r = r' := by
  rcases escapeChar_cases c with ⟨l, hl, he⟩ | ⟨hc, he⟩ | ⟨-, hb, he⟩ <;>
    rcases escapeChar_cases c' with ⟨l', hl', he'⟩ | ⟨hc', he'⟩ | ⟨-, hb', he'⟩ <;>
    rw [he, he'] at h <;> simp only [cons_append, nil_append, cons.injEq] at h
  · obtain ⟨-, rfl, hr⟩ := h
    exact ⟨eq_of_shortEscape hl hl', hr⟩
  · exact absurd (h.2.1 ▸ hl) shortEscape_ne
  · exact absurd h.1.symm hb'
  · exact absurd (h.2.1 ▸ hl') shortEscape_ne
  · obtain ⟨-, -, -, -, hhigh, hlow, hr⟩ := h
    have hhigh := digitChar_inj (by omega) (by omega) hhigh
    have hlow := digitChar_inj (by omega) (by omega) hlow
    exact ⟨Char.toNat_inj.1 (by omega), hr⟩
  · exact absurd h.1.symm hb'
  · exact absurd h.1 hb
  · exact absurd h.1 hb
  · exact h

theorem head_escapeChar_ne (c : Char) : '"' :: r ≠ escapeChar c ++ r' := by
  rcases escapeChar_cases c with ⟨l, -, he⟩ | ⟨-, he⟩ | ⟨hq, -, he⟩
  · rw [he]
    simp
  · rw [he]
    simp
  · rw [he]
    exact fun h ↦ hq (cons.inj h).1.symm

theorem renderChars_append_inj {s s' : List Char}
    (h : renderChars s ++ r = renderChars s' ++ r') : s = s' ∧ r = r' := by
  induction s generalizing s' with
  | nil =>
    rcases s' with _ | ⟨c', s'⟩
    · exact ⟨rfl, (cons.inj h).2⟩
    rw [renderChars, renderChars, append_assoc] at h
    exact absurd h (head_escapeChar_ne c')
  | cons c s ih =>
    rcases s' with _ | ⟨c', s'⟩
    · rw [renderChars, renderChars, append_assoc] at h
      exact absurd h.symm (head_escapeChar_ne c)
    rw [renderChars, renderChars, append_assoc, append_assoc] at h
    obtain ⟨rfl, hrest⟩ := escapeChar_append_inj h
    obtain ⟨rfl, hr⟩ := ih hrest
    exact ⟨rfl, hr⟩

theorem renderStr_append_inj {s s' : String} (h : renderStr s ++ r = renderStr s' ++ r') :
    s = s' ∧ r = r' := by
  obtain ⟨hs, hr⟩ := renderChars_append_inj (cons.inj h).2
  exact ⟨String.toList_inj.1 hs, hr⟩

/-- What may follow a value inside a text. -/
def Delimited (text : List Char) : Prop :=
  ∀ c ∈ text.head?, c = ',' ∨ c = ']' ∨ c = '\x7d'

theorem delimited_nil : Delimited [] := nofun

theorem not_isDigit_of_delimited (h : Delimited r) : ∀ c ∈ r.head?, c.isDigit = false := by
  intro c hc
  rcases h c hc with rfl | rfl | rfl <;> decide

theorem takeWhile_toDigits (n : ℕ) (h : Delimited r) :
    (Nat.toDigits 10 n ++ r).takeWhile Char.isDigit = Nat.toDigits 10 n := by
  have hdigits : ∀ c ∈ Nat.toDigits 10 n, c.isDigit = true := fun c hc ↦
    Nat.isDigit_of_mem_toDigits (by decide) (by decide) hc
  rw [takeWhile_append_of_pos hdigits]
  cases r with
  | nil => simp
  | cons c r =>
    rw [takeWhile_cons_of_neg (by simp [not_isDigit_of_delimited h c rfl]), append_nil]

theorem toDigits_append_inj (hr : Delimited r) (hr' : Delimited r')
    (h : Nat.toDigits 10 m ++ r = Nat.toDigits 10 n ++ r') : m = n ∧ r = r' := by
  have hdigits : Nat.toDigits 10 m = Nat.toDigits 10 n := by
    rw [← takeWhile_toDigits m hr, h, takeWhile_toDigits n hr']
  refine ⟨?_, append_cancel_left (hdigits ▸ h)⟩
  rw [← Nat.ofDigitChars_toDigits (n := m) (by decide : 1 < 10) (Nat.le_refl _), hdigits,
    Nat.ofDigitChars_toDigits (by decide) (Nat.le_refl _)]

theorem isDigit_head_toDigits (n : ℕ) : ∃ c text, Nat.toDigits 10 n = c :: text ∧ c.isDigit := by
  rcases hdigits : Nat.toDigits 10 n with _ | ⟨c, text⟩
  · exact absurd hdigits Nat.toDigits_ne_nil
  have hc : c ∈ Nat.toDigits 10 n := by simp [hdigits]
  exact ⟨c, text, rfl, Nat.isDigit_of_mem_toDigits (by decide) (by decide) hc⟩

theorem renderInt_append_inj {m n : ℤ} (hr : Delimited r) (hr' : Delimited r')
    (h : renderInt m ++ r = renderInt n ++ r') : m = n ∧ r = r' := by
  have hminus : ∀ (k : ℕ) (text text' : List Char), Nat.toDigits 10 k ++ text ≠ '-' :: text' := by
    intro k text text' heq
    obtain ⟨c, rest, hdigits, hc⟩ := isDigit_head_toDigits k
    rw [hdigits] at heq
    rw [(cons.inj heq).1] at hc
    exact absurd hc (by decide)
  cases m with
  | ofNat m =>
    cases n with
    | ofNat n =>
      obtain ⟨rfl, hrest⟩ := toDigits_append_inj hr hr' h
      exact ⟨rfl, hrest⟩
    | negSucc n => exact absurd h (hminus m r _)
  | negSucc m =>
    cases n with
    | ofNat n => exact absurd h.symm (hminus n r' _)
    | negSucc n =>
      obtain ⟨hmn, hrest⟩ := toDigits_append_inj hr hr' (cons.inj h).2
      obtain rfl : m = n := Nat.succ.inj hmn
      exact ⟨rfl, hrest⟩

/-! ### The text of a value determines the value -/

/-- The constructor of a value, as a number. -/
def kind : Json → ℕ
  | null => 0
  | bool true => 1
  | bool false => 2
  | num _ => 3
  | str _ => 4
  | arr _ => 5
  | obj _ => 6

/-- What a text can begin with: the kind of a value that begins with the character. -/
def kindOf (c : Char) : ℕ :=
  if c = 'n' then 0
  else if c = 't' then 1
  else if c = 'f' then 2
  else if c = '-' ∨ c.isDigit then 3
  else if c = '"' then 4
  else if c = '[' then 5
  else if c = '\x7b' then 6
  else 7

theorem kindOf_isDigit (h : c.isDigit) : kindOf c = 3 := by
  have hne : ∀ letter : Char, letter.isDigit = false → c ≠ letter := by
    rintro letter hletter rfl
    rw [h] at hletter
    cases hletter
  unfold kindOf
  rw [if_neg (hne _ (by decide)), if_neg (hne _ (by decide)), if_neg (hne _ (by decide)),
    if_pos (.inr h)]

theorem head_render (j : Json) : ∃ c text, j.render = c :: text ∧ kindOf c = j.kind := by
  cases j with
  | null => exact ⟨_, _, by rw [render], rfl⟩
  | bool b =>
    cases b with
    | false => exact ⟨_, _, by rw [render], rfl⟩
    | true => exact ⟨_, _, by rw [render], rfl⟩
  | num n =>
    cases n with
    | ofNat n =>
      obtain ⟨c, text, hdigits, hc⟩ := isDigit_head_toDigits n
      exact ⟨c, text, by rw [render]; exact hdigits, kindOf_isDigit hc⟩
    | negSucc n => exact ⟨_, _, by rw [render]; rfl, rfl⟩
  | str s => exact ⟨_, _, by rw [render]; rfl, rfl⟩
  | arr items => exact ⟨_, _, by rw [render], rfl⟩
  | obj members => exact ⟨_, _, by rw [render], rfl⟩

theorem kind_eq_of_render (h : j.render ++ r = j'.render ++ r') :
    j.kind = j'.kind := by
  obtain ⟨c, text, hrender, hkind⟩ := head_render j
  obtain ⟨c', text', hrender', hkind'⟩ := head_render j'
  rw [hrender, hrender'] at h
  rw [← hkind, ← hkind', (cons.inj h).1]

/-- No value begins with a delimiter. -/
theorem render_ne {j : Json} (hc : kindOf c = 7) : c :: r ≠ j.render ++ r' := by
  intro h
  obtain ⟨c', text', hrender, hkind⟩ := head_render j
  rw [hrender] at h
  rw [(cons.inj h).1, hkind] at hc
  cases j with
  | bool b => cases b <;> cases hc
  | _ => cases hc

theorem delimited_moreItems (items : List Json) : Delimited (renderMoreItems items ++ r) := by
  rcases items with _ | ⟨item, items⟩
  · rw [renderMoreItems]
    exact fun c hc ↦ .inr (.inl (Option.some.inj hc).symm)
  rw [renderMoreItems]
  exact fun c hc ↦ .inl (Option.some.inj hc).symm

theorem delimited_moreMembers (members : List (String × Json)) :
    Delimited (renderMoreMembers members ++ r) := by
  rcases members with _ | ⟨member, members⟩
  · rw [renderMoreMembers]
    exact fun c hc ↦ .inr (.inr (Option.some.inj hc).symm)
  rw [renderMoreMembers]
  exact fun c hc ↦ .inl (Option.some.inj hc).symm

mutual

theorem render_append_inj : ∀ (j j' : Json) {r r' : List Char}, Delimited r → Delimited r' →
    j.render ++ r = j'.render ++ r' → j = j' ∧ r = r'
  | j, j', r, r', hr, hr', h => by
    have hkind := kind_eq_of_render h
    cases j with
    | null =>
      cases j' with
      | null => exact ⟨rfl, append_cancel_left h⟩
      | bool b => cases b <;> cases hkind
      | _ => cases hkind
    | bool b =>
      cases j' with
      | bool b' =>
        obtain rfl : b = b' := by cases b <;> cases b' <;> first | rfl | cases hkind
        exact ⟨rfl, append_cancel_left h⟩
      | _ => cases b <;> cases hkind
    | num n =>
      cases j' with
      | num n' =>
        rw [render, render] at h
        obtain ⟨rfl, hrest⟩ := renderInt_append_inj hr hr' h
        exact ⟨rfl, hrest⟩
      | bool b => cases b <;> cases hkind
      | _ => cases hkind
    | str s =>
      cases j' with
      | str s' =>
        rw [render, render] at h
        obtain ⟨rfl, hrest⟩ := renderStr_append_inj h
        exact ⟨rfl, hrest⟩
      | bool b => cases b <;> cases hkind
      | _ => cases hkind
    | arr items =>
      cases j' with
      | arr items' =>
        rw [render, render] at h
        obtain ⟨rfl, hrest⟩ := renderItems_append_inj items items' (cons.inj h).2
        exact ⟨rfl, hrest⟩
      | bool b => cases b <;> cases hkind
      | _ => cases hkind
    | obj members =>
      cases j' with
      | obj members' =>
        rw [render, render] at h
        obtain ⟨rfl, hrest⟩ := renderMembers_append_inj members members' (cons.inj h).2
        exact ⟨rfl, hrest⟩
      | bool b => cases b <;> cases hkind
      | _ => cases hkind

theorem renderItems_append_inj : ∀ (items items' : List Json) {r r' : List Char},
    renderItems items ++ r = renderItems items' ++ r' → items = items' ∧ r = r'
  | [], [], r, r', h => by
    rw [renderItems] at h
    exact ⟨rfl, (cons.inj h).2⟩
  | [], item :: items, r, r', h => by
    rw [renderItems, renderItems, append_assoc] at h
    exact absurd h (render_ne (by decide))
  | item :: items, [], r, r', h => by
    rw [renderItems, renderItems, append_assoc] at h
    exact absurd h.symm (render_ne (by decide))
  | item :: items, item' :: items', r, r', h => by
    rw [renderItems, renderItems, append_assoc, append_assoc] at h
    obtain ⟨rfl, hrest⟩ := render_append_inj item item' (delimited_moreItems items)
      (delimited_moreItems items') h
    obtain ⟨rfl, hr⟩ := renderMoreItems_append_inj items items' hrest
    exact ⟨rfl, hr⟩

theorem renderMoreItems_append_inj : ∀ (items items' : List Json) {r r' : List Char},
    renderMoreItems items ++ r = renderMoreItems items' ++ r' → items = items' ∧ r = r'
  | [], [], r, r', h => by
    rw [renderMoreItems] at h
    exact ⟨rfl, (cons.inj h).2⟩
  | [], item :: items, r, r', h => by
    rw [renderMoreItems, renderMoreItems] at h
    exact absurd (cons.inj h).1 (by decide)
  | item :: items, [], r, r', h => by
    rw [renderMoreItems, renderMoreItems] at h
    exact absurd (cons.inj h).1 (by decide)
  | item :: items, item' :: items', r, r', h => by
    rw [renderMoreItems, renderMoreItems, cons_append, cons_append, append_assoc, append_assoc] at h
    obtain ⟨rfl, hrest⟩ := render_append_inj item item' (delimited_moreItems items)
      (delimited_moreItems items') (cons.inj h).2
    obtain ⟨rfl, hr⟩ := renderMoreItems_append_inj items items' hrest
    exact ⟨rfl, hr⟩

theorem renderMembers_append_inj : ∀ (members members' : List (String × Json)) {r r' : List Char},
    renderMembers members ++ r = renderMembers members' ++ r' → members = members' ∧ r = r'
  | [], [], r, r', h => by
    rw [renderMembers] at h
    exact ⟨rfl, (cons.inj h).2⟩
  | [], (name, value) :: members, r, r', h => by
    rw [renderMembers, renderMembers, renderMember] at h
    exact absurd (cons.inj h).1 (by decide)
  | (name, value) :: members, [], r, r', h => by
    rw [renderMembers, renderMembers, renderMember] at h
    exact absurd (cons.inj h).1 (by decide)
  | member :: members, member' :: members', r, r', h => by
    rw [renderMembers, renderMembers, append_assoc, append_assoc] at h
    obtain ⟨rfl, hrest⟩ := renderMember_append_inj member member' (delimited_moreMembers members)
      (delimited_moreMembers members') h
    obtain ⟨rfl, hr⟩ := renderMoreMembers_append_inj members members' hrest
    exact ⟨rfl, hr⟩

theorem renderMoreMembers_append_inj : ∀ (members members' : List (String × Json))
    {r r' : List Char}, renderMoreMembers members ++ r = renderMoreMembers members' ++ r' →
      members = members' ∧ r = r'
  | [], [], r, r', h => by
    rw [renderMoreMembers] at h
    exact ⟨rfl, (cons.inj h).2⟩
  | [], member :: members, r, r', h => by
    rw [renderMoreMembers, renderMoreMembers] at h
    exact absurd (cons.inj h).1 (by decide)
  | member :: members, [], r, r', h => by
    rw [renderMoreMembers, renderMoreMembers] at h
    exact absurd (cons.inj h).1 (by decide)
  | member :: members, member' :: members', r, r', h => by
    rw [renderMoreMembers, renderMoreMembers, cons_append, cons_append,
      append_assoc, append_assoc] at h
    obtain ⟨rfl, hrest⟩ := renderMember_append_inj member member' (delimited_moreMembers members)
      (delimited_moreMembers members') (cons.inj h).2
    obtain ⟨rfl, hr⟩ := renderMoreMembers_append_inj members members' hrest
    exact ⟨rfl, hr⟩

theorem renderMember_append_inj : ∀ (member member' : String × Json) {r r' : List Char},
    Delimited r → Delimited r' → renderMember member ++ r = renderMember member' ++ r' →
      member = member' ∧ r = r'
  | (name, value), (name', value'), r, r', hr, hr', h => by
    rw [renderMember, renderMember, append_assoc, append_assoc] at h
    obtain ⟨rfl, hvalue⟩ := renderStr_append_inj h
    obtain ⟨rfl, hrest⟩ := render_append_inj value value' hr hr' (cons.inj hvalue).2
    exact ⟨rfl, hrest⟩

end

/-- The text determines the value. -/
theorem render_injective (h : j.render = j'.render) : j = j' :=
  (render_append_inj j j' delimited_nil delimited_nil (congrArg (· ++ []) h)).1

variable {α : Type} {encode : α → Json}

theorem option_injective (hencode : Function.Injective encode) (hnull : ∀ a, encode a ≠ null) :
    Function.Injective (option encode)
  | none, none, _ => rfl
  | none, some a, h => absurd h.symm (hnull a)
  | some a, none, h => absurd h (hnull a)
  | some _, some _, h => congrArg some (hencode h)

theorem array_injective (hencode : Function.Injective encode) :
    Function.Injective (array encode) :=
  fun _ _ h ↦ hencode.list_map (Json.arr.inj h)

theorem nat_injective : Function.Injective nat :=
  fun _ _ h ↦ Int.ofNat.inj (Json.num.inj h)

theorem str_injective : Function.Injective str :=
  fun _ _ h ↦ Json.str.inj h

end Json
