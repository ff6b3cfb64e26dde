import FamiliarAi.Review.Scope

/-!
# The tier of a review

How thorough a review has to be is selected from what the change touches. Whatever is unknown or
risky goes to the full review, and so does what no rule of the operator covers.
-/

namespace FamiliarAi

open Text

/-- What was established about a worker that is to review. -/
inductive ReviewCapabilityReason
  | structuredOutputUnsupported
  | toolCallingUnsupported
  | protocolIncompatible (expected observed : String)
  | runtimeTooOld (runtime minimum observed : String)
  | probeFailed (detail : String)

def ReviewCapabilityReason.display : ReviewCapabilityReason → String
  | structuredOutputUnsupported => "structured_output_unsupported"
  | toolCallingUnsupported => "tool_calling_unsupported"
  | protocolIncompatible expected observed =>
    "protocol_incompatible(expected=" ++ expected ++ ", observed=" ++ observed ++ ")"
  | runtimeTooOld runtime minimum observed =>
    "runtime_too_old(runtime=" ++ runtime ++ ", minimum=" ++ minimum ++ ", observed=" ++
      observed ++ ")"
  | probeFailed detail => "capability_probe_failed(" ++ detail ++ ")"

/-- Classes of files that need the full review. -/
def ScopeFileClass.IsRisky (c : ScopeFileClass) : Prop :=
  c ≠ .ordinarySource ∧ c ≠ .test

instance : DecidablePred ScopeFileClass.IsRisky :=
  fun _ ↦ inferInstanceAs (Decidable (_ ∧ _))

/-- The decision lets the change pass. -/
def ScopeDecision.Grants (decision : ScopeDecision) : Prop :=
  decision = .allowedChange ∨ decision = .justifiedExpectedFileChange

instance : DecidablePred ScopeDecision.Grants :=
  fun _ ↦ inferInstanceAs (Decidable (_ ∨ _))

def sortKinds (kinds : List GitChangeKind) : List GitChangeKind :=
  kinds.dedup.insertionSort fun a b ↦ a.ctorIdx ≤ b.ctorIdx

def reviewFootprint (files : List ChangedFile) (changedBytes : ℕ) (scope : ScopeCheckResult) :
    ReviewFootprint where
  changedFiles := files.length
  changedBytes := changedBytes
  files := files.map (·.path)
  changeKinds := sortKinds (files.map (·.kind))
  scopeClasses := sortClasses (scope.findings.map (·.fileClass))

def ReviewTierRule.Covers (rule : ReviewTierRule) (files : List ChangedFile)
    (footprint : ReviewFootprint) : Prop :=
  (∀ max ∈ rule.maxChangedFiles, footprint.changedFiles ≤ max) ∧
    (∀ max ∈ rule.maxChangedBytes, footprint.changedBytes ≤ max) ∧
    (rule.pathPrefixes = [] ∨ ∀ file ∈ files, ∃ p ∈ rule.pathPrefixes,
      file.path = p ∨ p.toList.getLast? = some '/' ∧ StartsWith file.path p) ∧
    (rule.changeKinds = [] ∨ ∀ file ∈ files, file.kind ∈ rule.changeKinds) ∧
    (rule.scopeClasses = [] ∨ ∀ c ∈ footprint.scopeClasses, c ∈ rule.scopeClasses)

instance (rule : ReviewTierRule) (files : List ChangedFile) (footprint : ReviewFootprint) :
    Decidable (rule.Covers files footprint) :=
  inferInstanceAs (Decidable (_ ∧ _ ∧ _ ∧ _ ∧ _))

def selectReviewTier (policy : ReviewTierPolicy) (declaredRiskClasses : List String)
    (files : List ChangedFile) (changedBytes : ℕ) (scope : ScopeCheckResult) :
    ReviewTierSelection :=
  let footprint := reviewFootprint files changedBytes scope
  match declaredRiskClasses.find? (· ∈ policy.fullReviewRiskClasses) with
  | some c =>
    { tier := .full
      selectingRule := none
      reason := "declared risk class '" ++ c ++ "' requires full review"
      footprint }
  | none =>
    if files = [] ∨ scope.findings.length ≠ files.length ∨
        ∃ f ∈ scope.findings, f.fileClass.IsRisky ∨ ¬f.decision.Grants then
      { tier := .full
        selectingRule := none
        reason := "unknown, ambiguous, or high-risk footprint"
        footprint }
    else
      match declaredRiskClasses.find? (· ∈ policy.batchRiskClasses) with
      | some c =>
        { tier := .batch
          selectingRule := none
          reason := "declared risk class '" ++ c ++ "' is configured for batch review"
          footprint }
      | none =>
        match policy.rules.find? fun rule ↦ rule.Covers files footprint with
        | some rule =>
          { tier := rule.tier
            selectingRule := some rule.id
            reason := "first matching operator-authored rule"
            footprint }
        | none =>
          { tier := .full
            selectingRule := none
            reason := "unconfigured or unmatched footprint"
            footprint }

end FamiliarAi
