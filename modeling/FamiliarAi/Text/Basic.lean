import Mathlib.Algebra.Order.Ring.Nat
import Mathlib.Data.List.Infix
import Mathlib.Data.List.SplitBy

/-!
# Text operations

The operations on text that programs of the workspace use, with the meaning the standard library of
their language gives them: prefixes and suffixes, white space in the sense of Unicode, lines, and
pieces between separators. Everything is defined on the characters of a text by structural
recursion.
-/

namespace Text

open List Option

/-- The text begins with `before`. -/
def StartsWith (text before : String) : Prop :=
  before.toList <+: text.toList

instance : DecidableRel StartsWith := fun text before ↦
  inferInstanceAs (Decidable (before.toList <+: text.toList))

theorem startsWith_or_startsWith {text s t : String} (hs : StartsWith text s)
    (ht : StartsWith text t) : StartsWith s t ∨ StartsWith t s := by
  rcases Nat.le_total s.toList.length t.toList.length with h | h
  · exact .inr (prefix_of_prefix_length_le hs ht h)
  · exact .inl (prefix_of_prefix_length_le ht hs h)

/-- The characters after `before`, if the text begins with it. -/
def stripPrefix? : List Char → List Char → Option (List Char)
  | [], text => some text
  | _ :: _, [] => none
  | c :: before, d :: text => if c = d then stripPrefix? before text else none

theorem stripPrefix?_eq_some {before text rest : List Char}
    (h : stripPrefix? before text = some rest) : text = before ++ rest := by
  induction before generalizing text with
  | nil => exact some.inj h
  | cons c before ih =>
    rcases text with _ | ⟨d, text⟩
    · cases h
    rw [stripPrefix?] at h
    split_ifs at h with hc
    rw [ih h, hc, cons_append]

theorem stripPrefix?_append (before rest : List Char) :
    stripPrefix? before (before ++ rest) = some rest := by
  induction before with
  | nil => cases rest <;> rfl
  | cons c before ih => rw [cons_append, stripPrefix?, if_pos rfl, ih]

/-- The characters before `after`, if the text ends with it. -/
def stripSuffix? (after text : List Char) : Option (List Char) :=
  (stripPrefix? after.reverse text.reverse).map List.reverse

theorem stripSuffix?_eq_some {after text rest : List Char}
    (h : stripSuffix? after text = some rest) : text = rest ++ after := by
  obtain ⟨front, hfront, rfl⟩ := map_eq_some_iff.1 h
  rw [← reverse_reverse text, stripPrefix?_eq_some hfront, reverse_append, reverse_reverse]

theorem stripSuffix?_append (after rest : List Char) :
    stripSuffix? after (rest ++ after) = some rest := by
  rw [stripSuffix?, reverse_append, stripPrefix?_append, map_some, reverse_reverse]

/-- The Unicode property `White_Space`. -/
def isWhiteSpace (c : Char) : Bool :=
  let n := c.toNat
  decide (9 ≤ n ∧ n ≤ 13) || n == 0x20 || n == 0x85 || n == 0xA0 || n == 0x1680 ||
    decide (0x2000 ≤ n ∧ n ≤ 0x200A) || n == 0x2028 || n == 0x2029 || n == 0x202F || n == 0x205F ||
      n == 0x3000

/-- Drop white space at both ends. -/
def trim (text : List Char) : List Char :=
  ((text.dropWhile isWhiteSpace).reverse.dropWhile isWhiteSpace).reverse

def splitOn (separator : Char) : List Char → List (List Char)
  | [] => [[]]
  | c :: text =>
    if c = separator then [] :: splitOn separator text
    else
      match splitOn separator text with
      | [] => [[c]]
      | piece :: pieces => (c :: piece) :: pieces

def splitInclusive (separator : Char) (text : List Char) : List (List Char) :=
  text.splitBy fun c _ ↦ c ≠ separator

/-- The lines of a text, without their ends: a carriage return before a line feed belongs to the
end, and a line feed at the end of the text starts no line. -/
def lines (text : List Char) : List (List Char) :=
  let pieces := splitOn '\n' text
  let ended := pieces.dropLast.map fun line ↦ (stripSuffix? ['\r'] line).getD line
  match pieces.getLast? with
  | some [] | none => ended
  | some last => ended ++ [last]

theorem splitOn_ne_nil (separator : Char) (text : List Char) : splitOn separator text ≠ [] := by
  rcases text with _ | ⟨c, text⟩
  · simp [splitOn]
  rw [splitOn]
  split
  · simp
  · split <;> simp

theorem splitOn_append {separator : Char} {piece : List Char} (hpiece : separator ∉ piece)
    (text : List Char) :
    splitOn separator (piece ++ separator :: text) = piece :: splitOn separator text := by
  induction piece with
  | nil => simp [splitOn]
  | cons c piece ih =>
    have hc : c ≠ separator := (ne_of_not_mem_cons hpiece).symm
    rw [cons_append, splitOn, if_neg hc, ih (not_mem_of_not_mem_cons hpiece)]

theorem stripSuffix?_of_notMem {c : Char} {text : List Char} (hc : c ∉ text) :
    stripSuffix? [c] text = none := by
  rw [stripSuffix?, map_eq_none_iff]
  rcases hreverse : text.reverse with _ | ⟨d, rest⟩
  · rfl
  have hd : d ∈ text := mem_reverse.1 (hreverse ▸ mem_cons_self)
  have hne : c ≠ d := (ne_of_mem_of_not_mem hd hc).symm
  rw [reverse_singleton, stripPrefix?, if_neg hne]

theorem lines_append {line : List Char} (hfeed : '\n' ∉ line) (hreturn : '\r' ∉ line)
    (text : List Char) : lines (line ++ '\n' :: text) = line :: lines text := by
  rw [lines, lines, splitOn_append hfeed]
  rcases hpieces : splitOn '\n' text with _ | ⟨piece, pieces⟩
  · exact absurd hpieces (splitOn_ne_nil '\n' text)
  rw [getLast?_cons_cons, dropLast_cons_cons, map_cons, stripSuffix?_of_notMem hreturn, getD_none]
  split <;> rfl

def byteSize (text : List Char) : ℕ :=
  (text.map Char.utf8Size).sum

@[simp]
theorem byteSize_nil : byteSize [] = 0 :=
  rfl

@[simp]
theorem byteSize_cons (c : Char) (text : List Char) :
    byteSize (c :: text) = c.utf8Size + byteSize text := by
  simp [byteSize]

@[simp]
theorem byteSize_append (text text' : List Char) :
    byteSize (text ++ text') = byteSize text + byteSize text' := by
  simp [byteSize]

theorem size_utf8Encode (text : List Char) : text.utf8Encode.size = byteSize text := by
  induction text with
  | nil => rfl
  | cons c text ih =>
    rw [byteSize_cons, ← ih]
    simp [utf8Encode]

theorem byteSize_toList (s : String) : byteSize s.toList = s.utf8ByteSize := by
  rw [← size_utf8Encode, ← String.size_toByteArray, String.utf8Encode_toList]

theorem byteSize_flatMap_toList (texts : List String) :
    byteSize (texts.flatMap String.toList) = (texts.map String.utf8ByteSize).sum := by
  induction texts with
  | nil => rfl
  | cons s texts ih =>
    rw [flatMap_cons, byteSize_append, byteSize_toList, ih, map_cons, sum_cons]

def encodeUtf8 (text : List Char) : List UInt8 :=
  text.flatMap String.utf8EncodeChar

def decodeUtf8? (bytes : List UInt8) : Option (List Char) :=
  (String.fromUTF8? (ByteArray.mk bytes.toArray)).map String.toList

/-- Different numbers are written differently. -/
theorem toString_nat_injective : Function.Injective (toString : ℕ → String) := by
  intro m n h
  have hdigits : Nat.toDigits 10 m = Nat.toDigits 10 n := by
    simpa using congrArg String.toList h
  rw [← Nat.ofDigitChars_toDigits (b := 10) (n := m) (by decide) (by decide), hdigits,
    Nat.ofDigitChars_toDigits (by decide) (by decide)]

/-!
## Reading bytes as text

Bytes that need not be UTF-8, read as text in the two ways of the standard library: failing at the
first byte that does not belong, or with a replacement character for each broken sequence.
-/

/-- The number of bytes of a character that begins with this one, and the range of the second. -/
def leadRange (lead : UInt8) : Option (ℕ × UInt8 × UInt8) :=
  if lead < 0x80 then some (1, 0x80, 0xBF)
  else if lead < 0xC2 then none
  else if lead < 0xE0 then some (2, 0x80, 0xBF)
  else if lead = 0xE0 then some (3, 0xA0, 0xBF)
  else if lead = 0xED then some (3, 0x80, 0x9F)
  else if lead < 0xF0 then some (3, 0x80, 0xBF)
  else if lead = 0xF0 then some (4, 0x90, 0xBF)
  else if lead < 0xF4 then some (4, 0x80, 0xBF)
  else if lead = 0xF4 then some (4, 0x80, 0x8F)
  else none

/-- Whether the byte continues a character, after the second. -/
def isTail (b : UInt8) : Bool :=
  0x80 ≤ b && b ≤ 0xBF

/-- How the text goes on: with a character, with a sequence that is broken off by its next byte, or
with one that the end breaks off. Each with the number of its bytes. -/
inductive Utf8Front
  | whole (length : ℕ)
  | broken (length : ℕ)
  | incomplete (length : ℕ)

def Utf8Front.length : Utf8Front → ℕ
  | whole n | broken n | incomplete n => n

/-- What stands at the front of `lead :: rest`. -/
def utf8Front (lead : UInt8) (rest : List UInt8) : Utf8Front :=
  match leadRange lead with
  | none => .broken 1
  | some (length, low, high) =>
    let continuing := match rest with
      | [] => 0
      | second :: rest =>
        if length = 1 then 0
        else if low ≤ second && second ≤ high then
          1 + ((rest.take (length - 2)).takeWhile isTail).length
        else 0
    if continuing + 1 = length then .whole length
    else if continuing = rest.length then .incomplete (continuing + 1)
    else .broken (continuing + 1)

/-- The text cut at its characters and broken sequences; there are at most `fuel` of them. -/
def utf8Pieces : ℕ → List UInt8 → List (Utf8Front × List UInt8)
  | 0, _ | _, [] => []
  | fuel + 1, lead :: rest =>
    let front := utf8Front lead rest
    (front, (lead :: rest).take front.length) :: utf8Pieces fuel ((lead :: rest).drop front.length)

/-- `String::from_utf8_lossy`: a replacement character stands for each broken sequence. -/
def fromUtf8Lossy (bytes : List UInt8) : String :=
  String.ofList <| (utf8Pieces bytes.length bytes).flatMap fun
    | (.whole _, piece) => (decodeUtf8? piece).getD []
    | (_, _) => ['\uFFFD']

/-- `String::from_utf8`, with the text of its error. -/
def fromUtf8 (bytes : List UInt8) : Except String String :=
  let isWhole : Utf8Front × List UInt8 → Bool
    | (.whole _, _) => true
    | _ => false
  let pieces := utf8Pieces bytes.length bytes
  let validUpTo := ((pieces.takeWhile isWhole).map (·.1.length)).sum
  match (pieces.dropWhile isWhole).head? with
  | none => .ok (fromUtf8Lossy bytes)
  | some (.incomplete _, _) =>
    .error ("incomplete utf-8 byte sequence from index " ++ toString validUpTo)
  | some (front, _) =>
    .error ("invalid utf-8 sequence of " ++ toString front.length ++ " bytes from index " ++
      toString validUpTo)

example : fromUtf8Lossy [0x68, 0xC3, 0xA9, 0xE2, 0x82, 0x6C] = "hé\uFFFDl" := by decide +kernel

theorem data_utf8Encode (text : List Char) : text.utf8Encode.data.toList = encodeUtf8 text := by
  simp [utf8Encode, encodeUtf8]

theorem decodeUtf8?_eq_some {bytes : List UInt8} {text : List Char} :
    decodeUtf8? bytes = some text ↔ bytes = encodeUtf8 text := by
  rw [decodeUtf8?, String.fromUTF8?]
  constructor
  · intro h
    split at h
    · obtain rfl := some.inj h
      rw [← data_utf8Encode, String.utf8Encode_toList]
      rfl
    · cases h
  · rintro rfl
    have hbytes : ByteArray.mk (encodeUtf8 text).toArray = (String.ofList text).toByteArray := by
      rw [← data_utf8Encode]
      exact String.toByteArray_ofList.symm
    rw [hbytes, dif_pos (String.ofList text).isValidUTF8, map_some, some_inj]
    exact String.toList_ofList

/-- Different texts have different bytes. -/
theorem encodeUtf8_injective : Function.Injective encodeUtf8 := by
  intro text text' h
  have hdecode := decodeUtf8?_eq_some.2 (rfl : encodeUtf8 text = encodeUtf8 text)
  rw [decodeUtf8?_eq_some.2 h] at hdecode
  exact (some.inj hdecode).symm

end Text
