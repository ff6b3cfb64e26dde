import FamiliarAi.Core.Backlog
import FamiliarAi.Core.Outcome
import FamiliarAi.Text.Split
import Mathlib.Data.Char
import Mathlib.Data.List.Sort
import Mathlib.Data.Prod.Lex

/-!
# Identities of PRDs as they are written

The file name of a PRD, its heading, its front matter and the metadata in its body all write
identities. Which file names are those of PRDs depends on the profile of the backlog. A token that
names a PRD is read in both forms whatever the profile, and dependencies are read by one loop, which
is told which identities are the PRD's own.
-/

namespace FamiliarAi

open Text List

namespace PrdId

variable {a b : PrdId}

/-- What the order of identities goes by. No suffix comes after all suffixes. -/
def rank (id : PrdId) : ℕ ×ₗ WithTop Char :=
  toLex (id.number, id.suffix)

theorem le_iff_rank : a.LE b ↔ a.rank ≤ b.rank := by
  rw [LE, rank, rank, Prod.Lex.toLex_le_toLex]
  refine or_congr_right (and_congr_right fun _ ↦ ?_)
  rcases a.suffix with _ | c
  · cases b.suffix with
    | none => exact iff_of_true trivial le_rfl
    | some c => exact iff_of_false (fun h ↦ h) (not_le.2 (WithTop.coe_lt_top c))
  cases b.suffix with
  | none => exact iff_of_true trivial le_top
  | some c' => exact WithTop.coe_le_coe.symm

theorem rank_eq_iff : a.rank = b.rank ↔ a.key = b.key :=
  Iff.rfl

def cmp (id id' : PrdId) : Ordering :=
  (compare id.number id'.number).then
    (match id.suffix, id'.suffix with
      | some c, some c' => compare c c'
      | some _, none => .lt
      | none, some _ => .gt
      | none, none => .eq)

theorem cmp_lt_iff : a.cmp b = .lt ↔ a.rank < b.rank := by
  rw [cmp, rank, rank, Prod.Lex.toLex_lt_toLex, Ordering.then_eq_lt, compare_lt_iff_lt,
    compare_eq_iff_eq]
  refine or_congr_right (and_congr_right fun _ ↦ ?_)
  rcases a.suffix with _ | c
  · cases b.suffix with
    | none => exact iff_of_false Ordering.noConfusion (lt_irrefl _)
    | some c => exact iff_of_false Ordering.noConfusion not_top_lt
  cases b.suffix with
  | none => exact iff_of_true rfl (WithTop.coe_lt_top c)
  | some c' => exact compare_lt_iff_lt.trans WithTop.coe_lt_coe.symm

theorem cmp_eq_iff : a.cmp b = .eq ↔ a.rank = b.rank := by
  rw [cmp, rank_eq_iff, key, key, Prod.mk.injEq, Ordering.then_eq_eq, compare_eq_iff_eq]
  refine and_congr_right fun _ ↦ ?_
  rcases a.suffix with _ | c
  · cases b.suffix with
    | none => exact iff_of_true rfl rfl
    | some c => exact iff_of_false (fun h ↦ by cases h) (fun h ↦ by cases h)
  cases b.suffix with
  | none => exact iff_of_false (fun h ↦ by cases h) (fun h ↦ by cases h)
  | some c' => exact compare_eq_iff_eq.trans Option.some_inj.symm

theorem cmp_eq_compare (a b : PrdId) : a.cmp b = compare a.rank b.rank := by
  rcases lt_trichotomy a.rank b.rank with h | h | h
  · rw [cmp_lt_iff.2 h, compare_lt_iff_lt.2 h]
  · rw [cmp_eq_iff.2 h, compare_eq_iff_eq.2 h]
  · rw [compare_gt_iff_gt.2 h]
    cases hcmp : a.cmp b with
    | lt => exact absurd (cmp_lt_iff.1 hcmp) h.asymm
    | eq => exact absurd (cmp_eq_iff.1 hcmp) h.ne'
    | gt => rfl

end PrdId

inductive BacklogProfile
  | canonical
  | numberedSlug
  deriving DecidableEq

/-- `str::parse::<u64>`. -/
def parseU64 (text : List Char) : Option ℕ :=
  let digits := (stripPrefix? ['+'] text).getD text
  if digits = [] ∨ ¬digits.all Char.isDigit then none
  else if Nat.ofDigitChars 10 digits 0 < 2 ^ 64 then some (Nat.ofDigitChars 10 digits 0)
  else none

/-- What comes after the digits: nothing, or one lowercase letter. -/
def idSuffix : List Char → Option (Option Char)
  | [] => some none
  | [c] => if 'a' ≤ c ∧ c ≤ 'z' then some (some c) else none
  | _ => none

/-- `filename_identity`: the number, the suffix and the width that a file name writes. -/
def filenameIdentity (name : String) :
    BacklogProfile → Option (Except String (ℕ × Option Char × ℕ))
  | .canonical => do
    let rest ← stripPrefix? "PRD-".toList name.toList
    let identity ← stripSuffix? ".md".toList rest
    let digits := identity.takeWhile Char.isDigit
    if digits = [] then none
    let suffix ← idSuffix (identity.dropWhile Char.isDigit)
    match parseU64 digits with
    | some number => some (.ok (number, suffix, 0))
    | none => some (.error "filename number overflows u64")
  | .numberedSlug => do
    let stem ← stripSuffix? ".md".toList name.toList
    let (identity, slug) ← splitFirst? ['-'] stem
    if slug = [] then return .error "slug must not be empty"
    let digits := identity.takeWhile Char.isDigit
    if digits = [] ∨ 6 < digits.length then
      return .error "filename identity must contain one to six ASCII digits"
    match idSuffix (identity.dropWhile Char.isDigit) with
    | none => return .error "filename suffix must be one optional ASCII lowercase letter"
    | some suffix =>
      match parseU64 digits with
      | some number => return .ok (number, suffix, digits.length)
      | none => return .error "filename number overflows u64"

/-- How a token is written, and what comes after its first word. -/
def idToken (token : List Char) : Option (PrdRendering × List Char) :=
  match stripPrefix? "PRD-".toList token with
  | some raw => some (.canonical, raw)
  | none =>
    (stripPrefix? "PRD ".toList token).map fun raw ↦
      (.numberedSlug (raw.takeWhile Char.isDigit).length, raw)

/-- `parse_prd_id`. In a canonical backlog every identity is written canonically. -/
def parsePrdId (token : String) (profile : BacklogProfile) : Except String PrdId :=
  match idToken token.toList with
  | none => .error ("invalid dependency token '" ++ token ++ "'")
  | some (rendering, raw) =>
    let digits := raw.takeWhile Char.isDigit
    if digits = [] then .error ("invalid dependency token '" ++ token ++ "'")
    else
      match idSuffix (raw.dropWhile Char.isDigit) with
      | none => .error ("ambiguous dependency or range '" ++ token ++ "'")
      | some suffix =>
        match parseU64 digits with
        | none => .error ("dependency '" ++ token ++ "' overflows u64")
        | some number =>
          .ok
            { number, suffix
              rendering :=
                match profile with
                | .canonical => .canonical
                | .numberedSlug => rendering }

/-! ### Reading identities back -/

namespace PrdId

variable {id' : PrdId} {rendering : PrdRendering} {c : Char} {number : ℕ} {a b : PrdId}

/-- The identity can be read: its number is one of the machine, its suffix a lowercase letter. -/
structure Valid (id : PrdId) : Prop where
  number : id.number < 2 ^ 64
  suffix : ∀ c ∈ id.suffix, 'a' ≤ c ∧ c ≤ 'z'

theorem Valid.plain (h : number < 2 ^ 64) :
    (⟨number, none, rendering⟩ : PrdId).Valid :=
  ⟨h, fun _ hc ↦ by cases hc⟩

theorem Valid.suffixed (h : number < 2 ^ 64) (hc : 'a' ≤ c ∧ c ≤ 'z') :
    (⟨number, some c, rendering⟩ : PrdId).Valid :=
  ⟨h, fun _ hd ↦ by rwa [← Option.some.inj hd]⟩

/-- The digits of the number, with zeros in front. -/
def digits (id : PrdId) : List Char :=
  match id.rendering with
  | .canonical => Nat.toDigits 10 id.number
  | .numberedSlug width =>
    List.replicate (width - (toString id.number).length) '0' ++ Nat.toDigits 10 id.number

/-- The first word of the identity. -/
def word (id : PrdId) : List Char :=
  match id.rendering with
  | .canonical => "PRD-".toList
  | .numberedSlug _ => "PRD ".toList

/-- The rendering that a reader finds: of a padded number it sees the digits, not the width. -/
def written (id : PrdId) : PrdRendering :=
  match id.rendering with
  | .canonical => .canonical
  | .numberedSlug _ => .numberedSlug id.digits.length

variable {id : PrdId}

theorem toList_display : id.display.toList = id.word ++ (id.digits ++ id.suffix.toList) := by
  unfold display word digits padded
  cases id.rendering <;> cases id.suffix <;> simp

theorem isDigit_of_mem_digits (hc : c ∈ id.digits) : c.isDigit = true := by
  have htoDigits (hc : c ∈ Nat.toDigits 10 id.number) : c.isDigit = true :=
    Nat.isDigit_of_mem_toDigits (by decide) (by decide) hc
  unfold digits at hc
  cases hrendering : id.rendering with
  | canonical =>
    rw [hrendering] at hc
    exact htoDigits hc
  | numberedSlug width =>
    rw [hrendering] at hc
    rcases mem_append.1 hc with hc | hc
    · rw [(mem_replicate.1 hc).2]
      rfl
    · exact htoDigits hc

theorem digits_ne_nil : id.digits ≠ [] := by
  unfold digits
  cases id.rendering with
  | canonical => exact Nat.toDigits_ne_nil
  | numberedSlug width => exact append_ne_nil_of_right_ne_nil _ Nat.toDigits_ne_nil

theorem ofDigitChars_digits : Nat.ofDigitChars 10 id.digits 0 = id.number := by
  unfold digits
  cases id.rendering with
  | canonical => exact Nat.ofDigitChars_ten_toDigits
  | numberedSlug width =>
    dsimp only
    rw [Nat.ofDigitChars_append, Nat.ofDigitChars_replicate_zero, Nat.mul_zero]
    exact Nat.ofDigitChars_ten_toDigits

theorem parseU64_digits (h : id.Valid) : parseU64 id.digits = some id.number := by
  have hplain : stripPrefix? ['+'] id.digits = none := by
    rcases hdigits : id.digits with _ | ⟨c, rest⟩
    · rfl
    have hc : c.isDigit = true := isDigit_of_mem_digits (hdigits ▸ mem_cons_self)
    have hne : '+' ≠ c := by
      rintro rfl
      cases hc
    rw [stripPrefix?, if_neg hne]
  have hall : id.digits.all Char.isDigit = true :=
    all_eq_true.2 fun c hc ↦ isDigit_of_mem_digits hc
  have hdigits : ¬(id.digits = [] ∨ ¬id.digits.all Char.isDigit) := by
    simp [digits_ne_nil, hall]
  simp only [parseU64, hplain, Option.getD_none, ofDigitChars_digits, if_neg hdigits,
    if_pos h.number]

theorem isDigit_suffix (h : id.Valid) (hc : c ∈ id.suffix.toList) :
    c.isDigit = false := by
  have hle := (h.suffix c (Option.mem_toList.1 hc)).1
  rw [Char.le_def, UInt32.le_iff_toNat_le] at hle
  have hbound : ¬c.val ≤ '9'.val := by
    rw [UInt32.le_iff_toNat_le]
    exact Nat.not_le.2 (Nat.lt_of_lt_of_le (by decide) hle)
  rw [Char.isDigit, decide_eq_false hbound, Bool.and_false]

theorem idSuffix_suffix (h : id.Valid) : idSuffix id.suffix.toList = some id.suffix := by
  cases hsuffix : id.suffix with
  | none => rfl
  | some c => exact if_pos (h.suffix c hsuffix)

theorem takeWhile_digits (h : id.Valid) :
    (id.digits ++ id.suffix.toList).takeWhile Char.isDigit = id.digits := by
  rw [takeWhile_append_of_pos fun c hc ↦ isDigit_of_mem_digits hc]
  rcases hsuffix : id.suffix with _ | c
  · simp
  have hc : c.isDigit = false := isDigit_suffix h (by rw [hsuffix]; exact mem_cons_self)
  simp [hc]

theorem dropWhile_digits (h : id.Valid) :
    (id.digits ++ id.suffix.toList).dropWhile Char.isDigit = id.suffix.toList := by
  rw [dropWhile_append_of_pos fun c hc ↦ isDigit_of_mem_digits hc]
  rcases hsuffix : id.suffix with _ | c
  · rfl
  have hc : c.isDigit = false := isDigit_suffix h (by rw [hsuffix]; exact mem_cons_self)
  simp [hc]

theorem idToken_display (id : PrdId) :
    idToken id.display.toList =
      some
        (match id.rendering with
          | .canonical => .canonical
          | .numberedSlug _ =>
            .numberedSlug ((id.digits ++ id.suffix.toList).takeWhile Char.isDigit).length,
          id.digits ++ id.suffix.toList) := by
  rw [toList_display, idToken, word]
  cases id.rendering with
  | canonical =>
    dsimp only
    rw [stripPrefix?_append]
  | numberedSlug width =>
    have hcanonical (rest : List Char) :
        stripPrefix? "PRD-".toList ("PRD ".toList ++ rest) = none := rfl
    dsimp only
    rw [hcanonical, stripPrefix?_append]
    rfl

theorem length_digits (id : PrdId) :
    id.digits.length =
      match id.rendering with
      | .canonical => (toString id.number).length
      | .numberedSlug width => max width (toString id.number).length := by
  have hlength : (Nat.toDigits 10 id.number).length = (toString id.number).length := by
    rw [Nat.toString_eq_ofList_toDigits]
    simp
  unfold digits
  cases id.rendering with
  | canonical => exact hlength
  | numberedSlug width =>
    dsimp only
    rw [length_append, length_replicate, hlength]
    omega

theorem parsePrdId_display_eq (h : id.Valid) (profile : BacklogProfile) :
    parsePrdId id.display profile =
      .ok
        { number := id.number, suffix := id.suffix
          rendering :=
            match profile with
            | .canonical => .canonical
            | .numberedSlug => id.written } := by
  rw [written]
  cases hrendering : id.rendering <;>
    simp only [parsePrdId, idToken_display, hrendering, takeWhile_digits h, dropWhile_digits h,
      if_neg digits_ne_nil, idSuffix_suffix h, parseU64_digits h]

/-- An identity is read back from how it is written, whatever its rendering becomes. -/
theorem parsePrdId_display (h : id.Valid) (profile : BacklogProfile) :
    ∃ id', parsePrdId id.display profile = .ok id' ∧ id'.key = id.key :=
  ⟨_, parsePrdId_display_eq h profile, rfl⟩

theorem display_eq_iff (h : a.key = b.key) :
    a.display = b.display ↔ a.written = b.written := by
  obtain ⟨number, suffix, rendering⟩ := a
  obtain ⟨number', suffix', rendering'⟩ := b
  obtain ⟨rfl, rfl⟩ := Prod.mk.inj h
  rw [← String.toList_inj, toList_display, toList_display]
  cases rendering with
  | canonical =>
    cases rendering' with
    | canonical => exact iff_of_true rfl rfl
    | numberedSlug width => exact iff_of_false (by simp [word]) (fun h ↦ by cases h)
  | numberedSlug width =>
    cases rendering' with
    | canonical => exact iff_of_false (by simp [word]) (fun h ↦ by cases h)
    | numberedSlug width' =>
      have hword : (⟨number, suffix, .numberedSlug width⟩ : PrdId).word =
          (⟨number, suffix, .numberedSlug width'⟩ : PrdId).word := rfl
      rw [hword, append_cancel_left_eq, append_cancel_right_eq]
      simp only [written, PrdRendering.numberedSlug.injEq]
      refine ⟨congrArg List.length, fun hlength ↦ ?_⟩
      simp only [digits, length_append, length_replicate, Nat.add_right_cancel_iff] at hlength ⊢
      rw [hlength]

theorem written_eq (hkey : id'.key = id.key) (h : id'.rendering = id.written) :
    id'.written = id.written := by
  have hlength := length_digits id
  have hnumber : id'.number = id.number := congrArg Prod.fst hkey
  rw [written, h]
  unfold written at h ⊢
  cases hrendering : id.rendering with
  | canonical => rfl
  | numberedSlug width =>
    rw [hrendering] at h hlength
    dsimp only at h hlength ⊢
    rw [length_digits, h, hnumber]
    dsimp only
    rw [Nat.max_eq_left (hlength ▸ Nat.le_max_right _ _)]

theorem lowercase_of_parsePrdId {profile : BacklogProfile}
    (h : parsePrdId id.display profile = .ok id') (hkey : id'.key = id.key) :
    ∀ c ∈ id.suffix, 'a' ≤ c ∧ c ≤ 'z' := by
  intro c hc
  have hsuffix : id'.suffix = some c := (congrArg Prod.snd hkey).trans hc
  by_contra hlower
  have hread : idSuffix ((id.digits ++ id.suffix.toList).dropWhile Char.isDigit) = none ∨
      idSuffix ((id.digits ++ id.suffix.toList).dropWhile Char.isDigit) = some none := by
    rw [dropWhile_append_of_pos fun d hd ↦ isDigit_of_mem_digits hd, hc]
    by_cases hdigit : c.isDigit
    · exact .inr (by simp [hdigit, idSuffix])
    · exact .inl (by simp [hdigit, idSuffix, hlower])
  simp only [parsePrdId, idToken_display] at h
  split at h
  · cases h
  · rcases hread with hread | hread
    · rw [hread] at h
      cases h
    · rw [hread] at h
      dsimp only at h
      split at h
      · cases h
      · cases h
        cases hsuffix

theorem parsePrdId_display_iff (hnumber : id.number < 2 ^ 64) (profile : BacklogProfile) :
    (∃ id', parsePrdId id.display profile = .ok id' ∧ (id' == id) = true) ↔
      ∀ c ∈ id.suffix, 'a' ≤ c ∧ c ≤ 'z' := by
  constructor
  · rintro ⟨id', hparse, hkey⟩
    exact lowercase_of_parsePrdId hparse (beq_iff.1 hkey)
  · exact fun hsuffix ↦ ⟨_, parsePrdId_display_eq ⟨hnumber, hsuffix⟩ profile, beq_iff.2 rfl⟩

theorem display_of_parsePrdId (hnumber : id.number < 2 ^ 64)
    (h : parsePrdId id.display .numberedSlug = .ok id') (hkey : id'.key = id.key) :
    id'.display = id.display := by
  have hparse := parsePrdId_display_eq ⟨hnumber, lowercase_of_parsePrdId h hkey⟩ .numberedSlug
  have hrendering : id'.rendering = id.written := by
    rw [← Except.ok.inj (hparse.symm.trans h)]
  exact (display_eq_iff hkey).2 (written_eq hkey hrendering)

theorem rendering_of_parsePrdId {token : String} (h : parsePrdId token .canonical = .ok id) :
    id.rendering = .canonical := by
  simp only [parsePrdId] at h
  split at h
  · cases h
  · split at h
    · cases h
    · split at h
      · cases h
      · split at h
        · cases h
        · cases h
          rfl

theorem display_eq_of_parsePrdId {token token' : String} (ha : parsePrdId token .canonical = .ok a)
    (hb : parsePrdId token' .canonical = .ok b) (hkey : a.key = b.key) : a.display = b.display := by
  refine (display_eq_iff hkey).2 ?_
  rw [written, written, rendering_of_parsePrdId ha, rendering_of_parsePrdId hb]

end PrdId

/-- **The laws of identities.** Their order is a linear order of what they are compared by. An
identity is read back from how it is written, and numbered slugs in the same form; other suffixes
than the lowercase letters of the readers are not read back. Equal identities are written alike
exactly if they have one form, as those of a canonical backlog have. -/
theorem prdId_laws (a b c : PrdId) :
    ((a.cmp b).swap = b.cmp a ∧ (a.cmp b = .eq ↔ (a == b) = true) ∧
      (a.cmp b = .lt → b.cmp c = .lt → a.cmp c = .lt)) ∧
    (a.number < 2 ^ 64 →
      (∀ profile, (∃ id, parsePrdId a.display profile = .ok id ∧ (id == a) = true) ↔
        ∀ d ∈ a.suffix, 'a' ≤ d ∧ d ≤ 'z') ∧
      ∀ id, parsePrdId a.display .numberedSlug = .ok id → (id == a) = true →
        id.display = a.display) ∧
    ((a == b) = true → (a.display = b.display ↔ a.written = b.written) ∧
      ∀ token token', parsePrdId token .canonical = .ok a →
        parsePrdId token' .canonical = .ok b → a.display = b.display) := by
  refine ⟨⟨?_, ?_, ?_⟩, fun hnumber ↦ ⟨PrdId.parsePrdId_display_iff hnumber, ?_⟩, fun h ↦ ?_⟩
  · rw [PrdId.cmp_eq_compare, PrdId.cmp_eq_compare]
    exact Std.OrientedCmp.eq_swap.symm
  · rw [PrdId.beq_iff, ← PrdId.rank_eq_iff, PrdId.cmp_eq_iff]
  · simp only [PrdId.cmp_lt_iff]
    exact lt_trans
  · exact fun id hparse hkey ↦ PrdId.display_of_parsePrdId hnumber hparse (PrdId.beq_iff.1 hkey)
  · have hkey := PrdId.beq_iff.1 h
    exact ⟨PrdId.display_eq_iff hkey,
      fun token token' ha hb ↦ PrdId.display_eq_of_parsePrdId ha hb hkey⟩

/-- A slug and a canonical name write one identity in two ways. A digit for a suffix is read as one
more digit of the number. -/
theorem equal_ids_rendered_apart :
    ((⟨7, none, .canonical⟩ : PrdId) == ⟨7, none, .numberedSlug 3⟩) = true ∧
      (⟨7, none, .canonical⟩ : PrdId).display = "PRD-7" ∧
      (⟨7, none, .numberedSlug 3⟩ : PrdId).display = "PRD 007" ∧
      (parsePrdId (⟨7, some '5', .canonical⟩ : PrdId).display .canonical).toOption =
        some ⟨75, none, .canonical⟩ := by
  decide

def malformed (path message : String) : BacklogError :=
  .malformed path message

/-- One round of the loop over dependencies. -/
def pushDependency (path : String) (profile : BacklogProfile) (isSelf : PrdId → Bool)
    (dependencies : List PrdId) (token : String) : Except BacklogError (List PrdId) :=
  match parsePrdId token profile with
  | .error message => .error (malformed path message)
  | .ok dep =>
    if isSelf dep then .error (malformed path ("self-dependency " ++ dep.display))
    else if dependencies.contains dep then
      .error (malformed path ("duplicate dependency " ++ dep.display))
    else .ok (dependencies ++ [dep])

end FamiliarAi
