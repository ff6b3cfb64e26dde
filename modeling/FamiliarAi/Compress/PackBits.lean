import Mathlib.Data.List.Basic
import Mathlib.Tactic.IntervalCases

/-!
# Packed bytes

A packed text is a sequence of tokens. A run stands for copies of one byte, a literal for the bytes
that follow. Each token starts with a control byte that holds its length less one in seven bits, and
whether it is a run in the eighth.
-/

namespace PackBits

/-- A piece of a text in packed form. -/
inductive Token
  | run (length : ℕ) (byte : UInt8)
  | literal (bytes : List UInt8)

namespace Token

def length : Token → ℕ
  | run length _ => length
  | literal bytes => bytes.length

def expand : Token → List UInt8
  | run length byte => List.replicate length byte
  | literal bytes => bytes

def isLiteral : Token → Bool
  | run .. => false
  | literal _ => true

theorem length_expand (token : Token) : token.expand.length = token.length := by
  cases token with
  | run length byte => exact List.length_replicate
  | literal bytes => rfl

end Token

/-- The bytes that the tokens stand for. -/
def expand (tokens : List Token) : List UInt8 :=
  tokens.flatMap Token.expand

@[simp]
theorem expand_nil : expand [] = [] :=
  rfl

@[simp]
theorem expand_cons (token : Token) (tokens : List Token) :
    expand (token :: tokens) = token.expand ++ expand tokens :=
  rfl

def lengthByte (length : ℕ) : UInt8 :=
  UInt8.ofNat length - 1

/-- The length is kept by seven bits of the control byte. -/
def Token.Fits (token : Token) : Prop :=
  1 ≤ token.length ∧ token.length ≤ 128

/-- What the control bytes of a length say. -/
structure ControlBytes (length : ℕ) : Prop where
  toNat : (lengthByte length).toNat + 1 = length
  literal : lengthByte length &&& 0x80 = 0
  literalLength : (lengthByte length &&& 0x7f).toNat + 1 = length
  run : (0x80 ||| lengthByte length) &&& 0x80 ≠ 0
  runLength : ((0x80 ||| lengthByte length) &&& 0x7f).toNat + 1 = length

theorem controlBytes {length : ℕ} (hpos : 1 ≤ length) (hfits : length ≤ 128) :
    ControlBytes length := by
  have hall : ∀ n < 128, (lengthByte (n + 1)).toNat + 1 = n + 1 ∧
      lengthByte (n + 1) &&& 0x80 = 0 ∧ (lengthByte (n + 1) &&& 0x7f).toNat + 1 = n + 1 ∧
      (0x80 ||| lengthByte (n + 1)) &&& 0x80 ≠ 0 ∧
      ((0x80 ||| lengthByte (n + 1)) &&& 0x7f).toNat + 1 = n + 1 := by
    decide
  obtain ⟨n, rfl⟩ : ∃ n, length = n + 1 := ⟨length - 1, by omega⟩
  obtain ⟨htoNat, hliteral, hliteralLength, hrun, hrunLength⟩ := hall n (by omega)
  exact ⟨htoNat, hliteral, hliteralLength, hrun, hrunLength⟩

/-- The packed form of a token. -/
def Token.encode : Token → List UInt8
  | run length byte => [0x80 ||| lengthByte length, byte]
  | literal bytes => lengthByte bytes.length :: bytes

/-- The packed form of a sequence of tokens. -/
def encode (tokens : List Token) : List UInt8 :=
  tokens.flatMap Token.encode

@[simp]
theorem encode_cons (token : Token) (tokens : List Token) :
    encode (token :: tokens) = token.encode ++ encode tokens :=
  rfl

def Token.Worthwhile : Token → Prop
  | run length _ => 2 ≤ length
  | literal _ => True

theorem length_encode_le {tokens : List Token} (h : ∀ token ∈ tokens, token.Worthwhile) :
    (encode tokens).length ≤ (expand tokens).length + tokens.countP Token.isLiteral := by
  induction tokens with
  | nil => exact Nat.zero_le _
  | cons token tokens ih =>
    obtain ⟨htoken, htokens⟩ := List.forall_mem_cons.1 h
    have hrest := ih htokens
    rw [encode_cons, expand_cons, List.length_append, List.length_append, Token.length_expand]
    cases token with
    | run length byte =>
      rw [List.countP_cons_of_neg (by simp [Token.isLiteral])]
      have hlength : 2 ≤ length := htoken
      show 2 + _ ≤ length + _ + _
      omega
    | literal bytes =>
      rw [List.countP_cons_of_pos (by simp [Token.isLiteral])]
      show bytes.length + 1 + _ ≤ bytes.length + _ + _
      omega

/-- No literal could have been longer: the text ends behind it, or three equal bytes follow, or it
has all the bytes that it can have, with two that are equal kept together. -/
def MaximalLiteral (bytes rest : List UInt8) : Prop :=
  rest = [] ∨ (∃ byte, List.replicate 3 byte <+: rest) ∨ 128 ≤ bytes.length ∨
    127 ≤ bytes.length ∧ ∃ byte, List.replicate 2 byte <+: rest

end PackBits
