import FamiliarAi.Compress.PackBits

/-!
# The compression of requests

What is sent to a provider is packed in memory. The text is cut into runs of three or more equal
bytes and literals between them, none longer than its control byte can say, and the packed form
stands behind a fixed header. Unpacking reads a text of any origin, so that it checks what is left
of the text before it reads.
-/

namespace FamiliarAi.InputTransform

open PackBits List

variable {rest : List UInt8} {limit : ℕ} {byte : UInt8} {input : List UInt8}

/-! ### Packing -/

def countRun (limit : ℕ) (byte : UInt8) (run : ℕ) : List UInt8 → ℕ
  | [] => run
  | next :: rest => if next = byte ∧ run < limit then countRun limit byte (run + 1) rest else run

/-- How often the first byte stands at the front, up to a limit. -/
def runLength (limit : ℕ) : List UInt8 → ℕ
  | [] => 0
  | byte :: rest => countRun limit byte 1 rest

theorem le_countRun {limit run : ℕ} :
    run ≤ countRun limit byte run rest := by
  induction rest generalizing run with
  | nil => exact le_rfl
  | cons next rest ih =>
    rw [countRun]
    split_ifs
    · exact Nat.le_of_succ_le ih
    · exact le_rfl

theorem countRun_le {limit run : ℕ} (hrun : run ≤ limit) :
    countRun limit byte run rest ≤ limit := by
  induction rest generalizing run with
  | nil => exact hrun
  | cons next rest ih =>
    rw [countRun]
    split_ifs with hnext
    · exact ih hnext.2
    · exact hrun

theorem replicate_countRun {limit run : ℕ} :
    List.replicate (countRun limit byte run rest) byte <+: List.replicate run byte ++ rest := by
  induction rest generalizing run with
  | nil => exact prefix_append _ _
  | cons next rest ih =>
    rw [countRun]
    split_ifs with hnext
    · obtain ⟨rfl, -⟩ := hnext
      have hmove : List.replicate run next ++ next :: rest =
          List.replicate (run + 1) next ++ rest := by
        rw [replicate_succ', append_assoc, singleton_append]
      rw [hmove]
      exact ih
    · exact prefix_append _ _

theorem runLength_pos (hrest : rest ≠ []) :
    0 < runLength limit rest := by
  obtain ⟨byte, rest, rfl⟩ := exists_cons_of_ne_nil hrest
  exact le_countRun

theorem runLength_le (hlimit : 1 ≤ limit) :
    runLength limit rest ≤ limit := by
  cases rest with
  | nil => exact Nat.zero_le _
  | cons byte rest => exact countRun_le hlimit

theorem replicate_runLength (limit : ℕ) (byte : UInt8) (rest : List UInt8) :
    List.replicate (runLength limit (byte :: rest)) byte <+: byte :: rest :=
  replicate_countRun

theorem runLength_le_length :
    runLength limit rest ≤ rest.length := by
  rcases rest with _ | ⟨byte, rest⟩
  · exact le_rfl
  have hprefix := (replicate_runLength limit byte rest).length_le
  rwa [length_replicate] at hprefix

theorem length_drop_runLength_lt (hrest : rest ≠ []) :
    (rest.drop (runLength limit rest)).length < rest.length := by
  have hpos : 0 < runLength limit rest := runLength_pos hrest
  have hle : runLength limit rest ≤ rest.length := runLength_le_length
  rw [length_drop]
  omega

/-- The number of bytes of a literal that has some already: bytes are added as long as no run
follows and they fit, two that are equal together. -/
def scanLiteral (taken : ℕ) (rest : List UInt8) : ℕ :=
  if _ : rest ≠ [] ∧ taken < 128 then
    if 3 ≤ runLength 3 rest then taken
    else if 128 < taken + runLength 3 rest then taken
    else scanLiteral (taken + runLength 3 rest) (rest.drop (runLength 3 rest))
  else taken
termination_by rest.length
decreasing_by exact length_drop_runLength_lt (And.left ‹_›)

/-- What a scan comes to. -/
structure Scanned (taken : ℕ) (rest : List UInt8) (length : ℕ) : Prop where
  le_length : taken ≤ length
  length_le : length ≤ taken + rest.length
  fits : length ≤ 128
  stops : ∀ block : List UInt8, block.length = length →
    MaximalLiteral block (rest.drop (length - taken))

theorem scanned {taken : ℕ} (htaken : taken ≤ 128) :
    Scanned taken rest (scanLiteral taken rest) := by
  induction taken, rest using scanLiteral.induct with
  | case1 taken rest hrest hrun =>
    -- a run of three starts here
    rw [scanLiteral, dif_pos hrest, if_pos hrun]
    refine ⟨le_rfl, Nat.le_add_right _ _, htaken, fun block hblock ↦ .inr (.inl ?_)⟩
    obtain ⟨byte, rest, rfl⟩ := exists_cons_of_ne_nil hrest.1
    have hthree : runLength 3 (byte :: rest) = 3 := le_antisymm (runLength_le (by omega)) hrun
    rw [Nat.sub_self, drop_zero]
    exact ⟨byte, hthree ▸ replicate_runLength 3 byte rest⟩
  | case2 taken rest hrest hrun hfull =>
    -- what comes next does not fit any more
    rw [scanLiteral, dif_pos hrest, if_neg hrun, if_pos hfull]
    refine ⟨le_rfl, Nat.le_add_right _ _, htaken, fun block hblock ↦ .inr (.inr (.inr ?_))⟩
    obtain ⟨byte, rest, rfl⟩ := exists_cons_of_ne_nil hrest.1
    have htwo : runLength 3 (byte :: rest) = 2 := by omega
    rw [Nat.sub_self, drop_zero]
    exact ⟨by omega, byte, htwo ▸ replicate_runLength 3 byte rest⟩
  | case3 taken rest hrest hrun hfull ih =>
    rw [scanLiteral, dif_pos hrest, if_neg hrun, if_neg hfull]
    have hscan := ih (by omega)
    have hle : runLength 3 rest ≤ rest.length := runLength_le_length
    have hlength := hscan.length_le
    rw [length_drop] at hlength
    refine ⟨by have := hscan.le_length; omega, by omega, hscan.fits, fun block hblock ↦ ?_⟩
    have hstops := hscan.stops block hblock
    rw [drop_drop] at hstops
    have hindex : runLength 3 rest + (scanLiteral (taken + runLength 3 rest)
        (rest.drop (runLength 3 rest)) - (taken + runLength 3 rest)) =
        scanLiteral (taken + runLength 3 rest) (rest.drop (runLength 3 rest)) - taken := by
      have := hscan.le_length
      omega
    rwa [hindex] at hstops
  | case4 taken rest hdone =>
    -- nothing is left, or the literal is full
    rw [scanLiteral, dif_neg hdone]
    refine ⟨le_rfl, Nat.le_add_right _ _, htaken, fun block hblock ↦ ?_⟩
    rw [Nat.sub_self, drop_zero]
    by_cases hrest : rest = []
    · exact .inl hrest
    · have hfull : ¬taken < 128 := fun hless ↦ hdone ⟨hrest, hless⟩
      exact .inr (.inr (.inl (by omega)))

/-- The number of bytes that the first token of a text stands for, if it is a literal. -/
def literalLength (input : List UInt8) : ℕ :=
  scanLiteral (runLength 128 input) (input.drop (runLength 128 input))

theorem scanned_literal (hinput : input ≠ []) :
    0 < literalLength input ∧ literalLength input ≤ input.length ∧ literalLength input ≤ 128 ∧
      MaximalLiteral (input.take (literalLength input)) (input.drop (literalLength input)) := by
  have hscan : Scanned (runLength 128 input) (input.drop (runLength 128 input))
      (literalLength input) := scanned (runLength_le (by omega))
  have hpos : 0 < runLength 128 input := runLength_pos hinput
  have hle : runLength 128 input ≤ input.length := runLength_le_length
  have hstart := hscan.le_length
  have hlength := hscan.length_le
  rw [length_drop] at hlength
  have hlast : literalLength input ≤ input.length := by omega
  refine ⟨by omega, hlast, hscan.fits, ?_⟩
  have hstops := hscan.stops (input.take (literalLength input))
    (by rw [length_take, Nat.min_eq_left hlast])
  rw [drop_drop, Nat.add_sub_cancel' hstart] at hstops
  exact hstops

theorem length_drop_literalLength_lt (hinput : input ≠ []) :
    (input.drop (literalLength input)).length < input.length := by
  obtain ⟨hpos, hle, -⟩ := scanned_literal hinput
  rw [length_drop]
  omega

/-- Cut a text into tokens. -/
def tokens : List UInt8 → List Token
  | [] => []
  | byte :: rest =>
    let run := runLength 128 (byte :: rest)
    if 3 ≤ run then .run run byte :: tokens ((byte :: rest).drop run)
    else
      let length := literalLength (byte :: rest)
      .literal ((byte :: rest).take length) :: tokens ((byte :: rest).drop length)
termination_by input => input.length
decreasing_by
  · exact length_drop_runLength_lt (cons_ne_nil _ _)
  · exact length_drop_literalLength_lt (cons_ne_nil _ _)

/-- What packed texts start with. -/
def header : List UInt8 :=
  [0x46, 0x41, 0x49, 0x43, 0x01]

def compress (input : List UInt8) : List UInt8 :=
  header ++ encode (tokens input)

theorem tokens_induction {P : List UInt8 → List Token → Prop} (input : List UInt8)
    (nil : P [] [])
    (run : ∀ length byte rest, 3 ≤ length → length ≤ 128 →
      P rest (tokens rest) →
      P (List.replicate length byte ++ rest) (.run length byte :: tokens rest))
    (literal : ∀ bytes rest, 0 < bytes.length → bytes.length ≤ 128 → MaximalLiteral bytes rest →
      P rest (tokens rest) → P (bytes ++ rest) (.literal bytes :: tokens rest)) :
    P input (tokens input) := by
  induction input using tokens.induct with
  | case1 =>
    rw [tokens]
    exact nil
  | case2 byte rest length hlength ih =>
    have hstart : (byte :: rest).take length = List.replicate length byte := by
      have hprefix := prefix_iff_eq_take.1 (replicate_runLength 128 byte rest)
      rw [length_replicate] at hprefix
      exact hprefix.symm
    have hcut := take_append_drop length (byte :: rest)
    rw [hstart] at hcut
    rw [tokens, if_pos hlength]
    have hstep := run length byte _ hlength (runLength_le (by omega)) ih
    rwa [hcut] at hstep
  | case3 byte rest length hlength literal' ih =>
    obtain ⟨hpos, hle, hfits, hmaximal⟩ := scanned_literal (cons_ne_nil byte rest)
    rw [tokens, if_neg hlength]
    have hbytes : ((byte :: rest).take (literalLength (byte :: rest))).length =
        literalLength (byte :: rest) := by
      rw [length_take, Nat.min_eq_left hle]
    have hstep := literal _ _ (by rwa [hbytes]) (by rwa [hbytes]) hmaximal ih
    rwa [take_append_drop] at hstep

theorem expand_tokens (input : List UInt8) : expand (tokens input) = input := by
  refine tokens_induction (P := fun input tokens ↦ expand tokens = input) input rfl ?_ ?_
  · intro length byte rest _ _ ih
    rw [expand_cons, ih]
    rfl
  · intro bytes rest _ _ _ ih
    rw [expand_cons, ih]
    rfl

theorem fits_of_mem_tokens (input : List UInt8) :
    ∀ token ∈ tokens input, token.Fits ∧ token.Worthwhile := by
  refine tokens_induction
    (P := fun _ tokens ↦ ∀ token ∈ tokens, token.Fits ∧ token.Worthwhile) input
    (fun _ hmem ↦ absurd hmem not_mem_nil) ?_ ?_
  · intro length byte rest hlength hfits ih
    have hpos : 1 ≤ length := by omega
    have hworth : 2 ≤ length := by omega
    exact forall_mem_cons.2 ⟨⟨⟨hpos, hfits⟩, hworth⟩, ih⟩
  · intro bytes rest hpos hfits _ ih
    exact forall_mem_cons.2 ⟨⟨⟨hpos, hfits⟩, trivial⟩, ih⟩

theorem maximalLiteral_of_tokens (input : List UInt8) :
    ∀ before bytes after, tokens input = before ++ .literal bytes :: after →
      MaximalLiteral bytes (expand after) := by
  refine tokens_induction
    (P := fun _ tokens ↦ ∀ before bytes after, tokens = before ++ .literal bytes :: after →
      MaximalLiteral bytes (expand after)) input ?_ ?_ ?_
  · intro before bytes after h
    cases before <;> cases h
  · intro length byte rest _ _ ih before bytes after h
    cases before with
    | nil => cases h
    | cons token before => exact ih before bytes after (cons.inj h).2
  · intro literal rest _ _ hmaximal ih before bytes after h
    cases before with
    | nil =>
      obtain ⟨hliteral, rfl⟩ := cons.inj h
      obtain rfl := Token.literal.inj hliteral
      rwa [expand_tokens]
    | cons token before => exact ih before bytes after (cons.inj h).2

/-! ### Unpacking -/

inductive CompressionError
  | unknownRegister (value : String)
  | invalidInput

/-- `split_at`, which panics where the text is too short. -/
def splitAt (length : ℕ) (bytes : List UInt8) : Option (List UInt8 × List UInt8) :=
  if length ≤ bytes.length then some (bytes.take length, bytes.drop length) else none

theorem splitAt_append (literal tail : List UInt8) :
    splitAt literal.length (literal ++ tail) = some (literal, tail) := by
  rw [splitAt, if_pos (by rw [length_append]; omega), take_left, drop_left]

theorem splitAt_eq_some {length : ℕ} {bytes literal tail : List UInt8}
    (h : splitAt length bytes = some (literal, tail)) :
    length ≤ bytes.length ∧ literal = bytes.take length ∧ tail = bytes.drop length := by
  rw [splitAt] at h
  split_ifs at h with hle
  obtain ⟨rfl, rfl⟩ := Prod.mk.inj (Option.some.inj h)
  exact ⟨hle, rfl, rfl⟩

/-- Unpack the rest of a text, behind what is unpacked already. There is no result where a read goes
past the end of the text. -/
def unpack (out : List UInt8) : List UInt8 → Option (Except CompressionError (List UInt8))
  | [] => some (.ok out)
  | tag :: rest =>
    let length := (tag &&& 0x7f).toNat + 1
    if tag &&& 0x80 ≠ 0 then
      match rest with
      | [] => some (.error .invalidInput)
      | byte :: tail => unpack (out ++ List.replicate length byte) tail
    else if rest.length < length then some (.error .invalidInput)
    else
      match _ : splitAt length rest with
      | none => none
      | some (literal, tail) => unpack (out ++ literal) tail
termination_by rest => rest.length
decreasing_by
  · show tail.length < tail.length + 1 + 1
    omega
  · obtain ⟨-, -, rfl⟩ := splitAt_eq_some ‹_›
    rw [length_drop, length_cons]
    omega

def decompress (input : List UInt8) : Option (Except CompressionError (List UInt8)) :=
  match header.isPrefixOf? input with
  | none => some (.error .invalidInput)
  | some rest => unpack [] rest

section Unpack

variable {tag : UInt8} {out rest literal tail : List UInt8}

theorem unpack_run (htag : tag &&& 0x80 ≠ 0) (byte : UInt8) :
    unpack out (tag :: byte :: tail) =
      unpack (out ++ List.replicate ((tag &&& 0x7f).toNat + 1) byte) tail := by
  rw [unpack, if_pos htag]

theorem unpack_short (htag : ¬tag &&& 0x80 ≠ 0) (hshort : rest.length < (tag &&& 0x7f).toNat + 1) :
    unpack out (tag :: rest) = some (.error .invalidInput) := by
  cases rest <;> rw [unpack, if_neg htag, if_pos hshort]

theorem unpack_literal (htag : ¬tag &&& 0x80 ≠ 0)
    (hsplit : splitAt ((tag &&& 0x7f).toNat + 1) rest = some (literal, tail)) :
    unpack out (tag :: rest) = unpack (out ++ literal) tail := by
  have henough : ¬rest.length < (tag &&& 0x7f).toNat + 1 := Nat.not_lt.2 (splitAt_eq_some hsplit).1
  -- the two patterns of a rest that is read for a run come to the same here
  cases rest <;>
  · rw [unpack, if_neg htag, if_neg henough]
    split
    · next hnone => cases hnone.symm.trans hsplit
    · next hsome =>
      obtain ⟨rfl, rfl⟩ := Prod.mk.inj (Option.some.inj (hsome.symm.trans hsplit))
      rfl

theorem unpack_encode {token : Token} (htoken : token.Fits) :
    unpack out (token.encode ++ rest) = unpack (out ++ token.expand) rest := by
  obtain ⟨hpos, hfits⟩ := htoken
  cases token with
  | run length byte =>
    have hcontrol : ControlBytes length := controlBytes hpos hfits
    show unpack out ((0x80 ||| lengthByte length) :: byte :: rest) = _
    rw [unpack_run hcontrol.run, hcontrol.runLength]
    rfl
  | literal bytes =>
    have hcontrol : ControlBytes bytes.length := controlBytes hpos hfits
    refine unpack_literal (not_not.2 hcontrol.literal) ?_
    rw [hcontrol.literalLength]
    exact splitAt_append bytes rest

theorem unpack_encode_all {tokens : List Token} (htokens : ∀ token ∈ tokens, token.Fits) :
    unpack out (encode tokens) = some (.ok (out ++ expand tokens)) := by
  induction tokens generalizing out with
  | nil =>
    show unpack out [] = _
    rw [unpack, expand_nil, append_nil]
  | cons token tokens ih =>
    obtain ⟨htoken, htokens⟩ := forall_mem_cons.1 htokens
    rw [encode_cons, unpack_encode htoken, ih htokens, expand_cons, append_assoc]

theorem isSome_unpack : (unpack out rest).isSome := by
  induction out, rest using unpack.induct with
  | case1 out => rw [unpack]; rfl
  | case2 out tag htag => rw [unpack, if_pos htag]; rfl
  | case3 out tag length htag byte tail ih =>
    rw [unpack_run htag]
    exact ih
  | case4 out tag rest length htag hshort =>
    rw [unpack_short htag hshort]
    rfl
  | case5 out tag rest length htag henough hsplit =>
    -- what is left was compared with the length before
    rw [splitAt, if_pos (Nat.le_of_not_lt henough)] at hsplit
    cases hsplit
  | case6 out tag rest length htag henough literal tail hsplit ih =>
    rw [unpack_literal htag hsplit]
    exact ih

end Unpack

/-- What packing a text guarantees. -/
structure Packs (input : List UInt8) : Prop where
  decompress_compress : decompress (compress input) = some (.ok input)
  lengthByte_add_one : ∀ token ∈ tokens input,
    (lengthByte token.length).toNat + 1 = token.length ∧ token.length ≤ 128
  /-- Beside the header, only the control bytes of the literals make the packed form longer. -/
  length_compress_le : (compress input).length ≤
    input.length + header.length + (tokens input).countP Token.isLiteral
  maximal : ∀ before bytes after, tokens input = before ++ .literal bytes :: after →
    MaximalLiteral bytes (expand after)

/-- **Packing** a text is undone by unpacking, in tokens whose lengths fit, and costs at most the
header and a byte for each maximal literal. Unpacking any bytes comes to a result or an error, and
never reads past their end. -/
theorem compress_packs (input : List UInt8) :
    Packs input ∧ ∀ bytes, (decompress bytes).isSome := by
  have hfits := fits_of_mem_tokens input
  refine ⟨⟨?_, ?_, ?_, maximalLiteral_of_tokens input⟩, fun bytes ↦ ?_⟩
  · have hheader : header.isPrefixOf? (compress input) = some (encode (tokens input)) := rfl
    rw [decompress, hheader]
    show unpack [] (encode (tokens input)) = _
    rw [unpack_encode_all fun token hmem ↦ (hfits token hmem).1, expand_tokens, nil_append]
  · intro token hmem
    obtain ⟨hpos, hle⟩ := (hfits token hmem).1
    exact ⟨(controlBytes hpos hle).toNat, hle⟩
  · have hlength := length_encode_le fun token hmem ↦ (hfits token hmem).2
    rw [expand_tokens] at hlength
    rw [compress, length_append]
    omega
  · rw [decompress]
    split
    · rfl
    · exact isSome_unpack

end FamiliarAi.InputTransform
