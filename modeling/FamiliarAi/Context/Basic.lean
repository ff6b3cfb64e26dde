import FamiliarAi.Core.Backlog
import FamiliarAi.Core.Outcome
import FamiliarAi.Text.Split

/-!
# The vocabulary of execution contexts

An execution context is the requested PRD with the documents that it refers to, each with the reason
for which it is there and an estimate of its tokens.
-/

namespace FamiliarAi

open Text

/-- A name of the operating system: any bytes. -/
abbrev OsString := List UInt8

/-- An absolute path without links and dotted components: the names on it. -/
abbrev CanonicalPath := List OsString

inductive ContextReferenceKind
  | prd
  | adr
  | contract
  | supporting

/-- The documents under a prefix may be referred to, as documents of one kind. -/
structure ContextReferenceRoot where
  pathPrefix : String
  kind : ContextReferenceKind

structure ContextProfile where
  activeDir : String := "docs/prds"
  referenceRoots : List ContextReferenceRoot :=
    [⟨"docs/adr/", .adr⟩, ⟨"docs/contracts/", .contract⟩, ⟨"docs/supporting/", .supporting⟩]

structure RepositoryContext where
  repository : CanonicalPath
  worktree : CanonicalPath
  gitCommit : Option String
  deriving DecidableEq

inductive DocumentKind
  | prd
  | adr
  | contract
  | supporting
  deriving DecidableEq

inductive InclusionReason
  | requestedPrd
  | directReference (referencedBy : String)
  deriving DecidableEq

structure ContextDocument where
  path : String
  kind : DocumentKind
  content : String
  inclusion : InclusionReason
  estimatedTokens : ℕ
  deriving DecidableEq

structure ExecutionContext where
  repository : RepositoryContext
  prd : ContextDocument
  documents : List ContextDocument
  estimatedTokens : ℕ
  deriving DecidableEq

/-- Every four characters count as a token. -/
def Tokens.estimateTokens (text : String) : ℕ :=
  (text.length + 3) / 4

/-- A path below the repository that is written with slashes. -/
def WellFormedPath (path : String) : Prop :=
  IsRepositoryPath path ∧ '\\' ∉ path.toList

instance : DecidablePred WellFormedPath :=
  fun _ ↦ inferInstanceAs (Decidable (_ ∧ _))

end FamiliarAi

/-!
## Truncation to tokens

A text whose estimate is above a limit is cut at a word, and a marker says that something is
missing. The marker is the least that is returned: a limit below its own estimate is exceeded.

The cut falls between characters. What is cut and what is looked for are lists of characters
throughout; the bytes of a text play no part.
-/

namespace FamiliarAi.Tokens

open Text

def charsPerTokenApprox : ℕ := 4

def marker : String := " ... [truncated]"

/-- `str::rfind`: what stands before the last white space of the text. -/
def beforeLastSpace (text : List Char) : Option (List Char) :=
  match text.reverse.dropWhile fun c ↦ !Text.isWhiteSpace c with
  | [] => none
  | _ :: before => some before.reverse

/-- The text without its last word. White space at its very beginning is no place to cut. -/
def cutAtWord (raw : List Char) : List Char :=
  match beforeLastSpace raw with
  | some [] | none => raw
  | some before => trimEnd Text.isWhiteSpace before

/-- `truncate_to_tokens`: the text, and whether it was cut. -/
def truncateToTokens (text : String) (maxTokens : ℕ) : String × Bool :=
  if estimateTokens text ≤ maxTokens then (text, false)
  else
    let maxChars := saturatingMul maxTokens charsPerTokenApprox
    if maxChars ≤ marker.length then (String.ofList (trim marker.toList), true)
    else (String.ofList (cutAtWord (text.toList.take (maxChars - marker.length))) ++ marker, true)

theorem beforeLastSpace_isPrefix {text before : List Char}
    (h : beforeLastSpace text = some before) : before <+: text := by
  unfold beforeLastSpace at h
  split at h
  · cases h
  · rename_i c before' hdrop
    obtain rfl := Option.some.inj h
    have hsuffix : c :: before' <:+ text.reverse := hdrop ▸ List.dropWhile_suffix _
    have htail : before' <:+ text.reverse := (List.suffix_cons c before').trans hsuffix
    rwa [← List.reverse_prefix, List.reverse_reverse] at htail

theorem cutAtWord_isPrefix (raw : List Char) : cutAtWord raw <+: raw := by
  unfold cutAtWord
  split
  · exact List.prefix_refl raw
  · exact List.prefix_refl raw
  · rename_i before _ hbefore
    exact (trimEnd_isPrefix Text.isWhiteSpace before).trans (beforeLastSpace_isPrefix hbefore)

variable {text : String} {maxTokens : ℕ}

theorem estimateTokens_le_iff : estimateTokens text ≤ maxTokens ↔ text.length ≤ 4 * maxTokens := by
  unfold estimateTokens
  omega

theorem length_marker : marker.length = 16 := by
  decide

theorem estimateTokens_trim_marker :
    estimateTokens (String.ofList (trim marker.toList)) = 4 := by
  decide

theorem truncateToTokens_of_le (h : ¬estimateTokens text ≤ maxTokens) (hmax : 5 ≤ maxTokens) :
    ∃ kept : List Char, kept <+: text.toList ∧
      truncateToTokens text maxTokens = (String.ofList kept ++ marker, true) ∧
      estimateTokens (String.ofList kept ++ marker) ≤ maxTokens := by
  have hmarker := length_marker
  have hroom : marker.length < saturatingMul maxTokens charsPerTokenApprox := by
    unfold saturatingMul charsPerTokenApprox maxU64
    omega
  have hbelow : saturatingMul maxTokens charsPerTokenApprox ≤ 4 * maxTokens := by
    unfold saturatingMul charsPerTokenApprox
    omega
  have hcut := cutAtWord_isPrefix
    (text.toList.take (saturatingMul maxTokens charsPerTokenApprox - marker.length))
  refine ⟨_, hcut.trans (List.take_prefix _ _), ?_, ?_⟩
  · rw [truncateToTokens, if_neg h]
    exact if_neg (Nat.not_le.2 hroom)
  · rw [estimateTokens_le_iff, String.length_append, String.length_ofList]
    have hlength := hcut.length_le
    rw [List.length_take] at hlength
    omega

theorem truncateToTokens_of_lt (h : ¬estimateTokens text ≤ maxTokens) (hmax : maxTokens < 5) :
    truncateToTokens text maxTokens = (String.ofList (trim marker.toList), true) := by
  have hroom : saturatingMul maxTokens charsPerTokenApprox ≤ marker.length := by
    rw [length_marker]
    unfold saturatingMul charsPerTokenApprox
    omega
  rw [truncateToTokens, if_neg h]
  exact if_pos hroom

/-- **Truncation.** A text that fits is returned as it is. Of another one a beginning is returned
with the marker, or the marker alone if the limit is below five tokens. The limit is kept unless it
is below the four tokens of the marker. -/
theorem truncateToTokens_spec (text : String) (maxTokens : ℕ) :
    (estimateTokens text ≤ maxTokens → truncateToTokens text maxTokens = (text, false)) ∧
      (¬estimateTokens text ≤ maxTokens → 5 ≤ maxTokens → ∃ kept : List Char,
        kept <+: text.toList ∧
          truncateToTokens text maxTokens = (String.ofList kept ++ marker, true)) ∧
      (¬estimateTokens text ≤ maxTokens → maxTokens < 5 →
        truncateToTokens text maxTokens = (String.ofList (trim marker.toList), true)) ∧
      estimateTokens (truncateToTokens text maxTokens).1 ≤ max maxTokens 4 := by
  refine ⟨fun h ↦ if_pos h, fun h hmax ↦ ?_, truncateToTokens_of_lt, ?_⟩
  · obtain ⟨kept, hkept, heq, -⟩ := truncateToTokens_of_le h hmax
    exact ⟨kept, hkept, heq⟩
  · by_cases h : estimateTokens text ≤ maxTokens
    · rw [truncateToTokens, if_pos h]
      exact h.trans (Nat.le_max_left _ _)
    · by_cases hmax : 5 ≤ maxTokens
      · obtain ⟨kept, -, heq, hle⟩ := truncateToTokens_of_le h hmax
        rw [heq]
        exact hle.trans (Nat.le_max_left _ _)
      · rw [truncateToTokens_of_lt h (Nat.not_le.1 hmax)]
        exact estimateTokens_trim_marker.le.trans (Nat.le_max_right _ _)

/-- A limit of one token is answered by the marker, which has four. -/
theorem truncateToTokens_exceeds :
    truncateToTokens "hello" 1 = ("... [truncated]", true) ∧
      ¬estimateTokens (truncateToTokens "hello" 1).1 ≤ 1 := by
  decide

end FamiliarAi.Tokens
