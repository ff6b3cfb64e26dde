import FamiliarAi.Review.Wire
import Mathlib.Data.List.Dedup
import Mathlib.Data.List.Sort

/-!
# The scope policy

The scope policy is compiled once from the configuration and the Expected Files of the PRD, and every
captured change is evaluated under the compiled snapshot. The evaluation finds for each side of each
change whether the policy allows it, in a fixed order of questions: whether the evidence for the
change is sound, whether a rule prohibits it, whether the class of the file has a policy of its own,
and where the path is declared.
-/

namespace FamiliarAi

open Text

section Lists

variable {α : Type}

/-- The first element that stands in a relation to a later one, with the first such later one. -/
def firstPair (p : α → α → Bool) : List α → Option (α × α)
  | [] => none
  | a :: as =>
    match as.find? (p a) with
    | some b => some (a, b)
    | none => firstPair p as

def firstRepeated [DecidableEq α] : List α → List α → Option α
  | [], _ => none
  | a :: as, seen => if a ∈ seen then some a else firstRepeated as (a :: seen)

/-- The last one of the elements with the largest key. -/
def maxByKey (key : α → ℕ) : List α → Option α
  | [] => none
  | a :: as =>
    match maxByKey key as with
    | some b => if key b < key a then some a else some b
    | none => some a

end Lists

/-- The entry covers the path. The directory itself is not below the directory. -/
def ScopePathEntry.Matches (entry : ScopePathEntry) (path : String) : Prop :=
  match entry.matchKind with
  | .exactFile => path = entry.normalized
  | .directory => StartsWith path entry.normalized ∧ entry.normalized.utf8ByteSize < path.utf8ByteSize

instance (entry : ScopePathEntry) : DecidablePred entry.Matches := fun path ↦ by
  unfold ScopePathEntry.Matches
  split <;> infer_instance

structure ScopePolicyInput where
  prdPath : String
  prdContentHash : String
  contract : List ExpectedFileEntry
  allowedPaths : List String
  allowPrdExpectedFileExpansion : Bool
  declarationMode : ScopeDeclarationMode
  prohibitedRules : List ProhibitedRule
  fileClassPolicies : ScopeFileClassPolicies
  classificationRules : List ScopeClassificationRule
  baselineRevision : String
  configProvenance : String

/-- Why a policy does not compile. -/
inductive ScopePolicyError
  | noAuthoritySource
  | invalidAllowedPath (value : String) (rule : ScopePathRule)
  | duplicateAllowedPath (normalized : String)
  | shadowedAllowedPath (outer inner : String)
  | duplicateRuleId (ruleId : String)
  | duplicateProhibitedRule (first second : String)
  | conflictingClassificationRules (first second entry : String)

/-- Read the configured paths, which must be distinct. -/
def compileAllowedPaths : List String → List ScopePathEntry →
    Except ScopePolicyError (List ScopePathEntry)
  | [], allowed => .ok allowed
  | value :: values, allowed =>
    match normalizeScopePath value with
    | .error rule => .error (.invalidAllowedPath value rule)
    | .ok (normalized, matchKind) =>
      if allowed.any (·.normalized = normalized) then .error (.duplicateAllowedPath normalized)
      else compileAllowedPaths values (allowed ++ [⟨normalized, matchKind⟩])

/-- A directory with another entry below it. -/
def shadowed (allowed : List ScopePathEntry) : Option (ScopePathEntry × ScopePathEntry) :=
  allowed.findSome? fun outer ↦
    if outer.matchKind = .directory then
      (allowed.find? fun inner ↦
        inner.normalized ≠ outer.normalized ∧ outer.Matches inner.normalized).map (outer, ·)
    else none

def scopePolicySchemaVersion : String := "scope-policy/1"

def builtinScopeRulesVersion : String := "builtin-scope-rules/1"

def compileScopePolicy (sha256 : Sha256) (input : ScopePolicyInput) :
    Except ScopePolicyError ScopePolicySnapshot := do
  let allowed ← compileAllowedPaths input.allowedPaths []
  let allowed := allowed.insertionSort fun a b ↦ a.normalized ≤ b.normalized
  if let some (outer, inner) := shadowed allowed then
    throw (.shadowedAllowedPath outer.normalized inner.normalized)
  if allowed = [] ∧ (input.allowPrdExpectedFileExpansion = false ∨ input.contract = []) then
    throw .noAuthoritySource
  if let some ruleId := firstRepeated
      (input.prohibitedRules.map (·.ruleId) ++ input.classificationRules.map (·.ruleId)) [] then
    throw (.duplicateRuleId ruleId)
  let prohibited := input.prohibitedRules.insertionSort fun a b ↦ a.ruleId ≤ b.ruleId
  if let some (first, second) := firstPair
      (fun first second ↦
        second.rule = first.rule ∧ second.changeKinds = first.changeKinds) prohibited then
    throw (.duplicateProhibitedRule first.ruleId second.ruleId)
  let classification := input.classificationRules.insertionSort fun a b ↦ a.ruleId ≤ b.ruleId
  if let some (first, second) := firstPair
      (fun first second ↦ second.entry = first.entry ∧ second.fileClass ≠ first.fileClass ∧
        second.precedence = first.precedence) classification then
    throw (.conflictingClassificationRules first.ruleId second.ruleId first.entry.normalized)
  let snapshot : ScopePolicySnapshot :=
    { schemaVersion := scopePolicySchemaVersion
      prdPath := input.prdPath
      prdContentHash := input.prdContentHash
      contract := input.contract
      allowedPaths := allowed
      allowPrdExpectedFileExpansion := input.allowPrdExpectedFileExpansion
      declarationMode := input.declarationMode
      prohibitedRules := prohibited
      fileClassPolicies := input.fileClassPolicies
      classificationRules := classification
      builtinRulesVersion := builtinScopeRulesVersion
      baselineRevision := input.baselineRevision
      configProvenance := input.configProvenance
      snapshotHash := "" }
  return { snapshot with snapshotHash := contentHash sha256 snapshot.json.render }

/-- The class of a file with the rule that gives it. -/
structure Classified where
  fileClass : ScopeFileClass
  ruleId : String
  source : ScopeRuleSource
  detail : String

def ScopeFileClass.debugName : ScopeFileClass → String
  | ordinarySource => "OrdinarySource"
  | dependencyManifest => "DependencyManifest"
  | dependencyLockfile => "DependencyLockfile"
  | migration => "Migration"
  | configuration => "Configuration"
  | test => "Test"
  | generatedArtifact => "GeneratedArtifact"
  | ambiguous => "Ambiguous"

/-- The classes without repetition, in their order. -/
def sortClasses (classes : List ScopeFileClass) : List ScopeFileClass :=
  classes.dedup.insertionSort fun a b ↦ a.ctorIdx ≤ b.ctorIdx

def debugClasses (classes : List ScopeFileClass) : String :=
  ", ".intercalate (classes.map ScopeFileClass.debugName)

/-- The class by the configured rules that match the path, which are not none. Where they disagree,
the ones with the highest precedence decide. -/
def classifyConfigured (configured : List ScopeClassificationRule)
    (rule : ScopeClassificationRule) : Classified :=
  let precedence (rule : ScopeClassificationRule) := rule.precedence.getD 0
  if (configured.map (·.fileClass)).dedup.length = 1 then
    { fileClass := rule.fileClass
      ruleId := rule.ruleId
      source := .configuration
      detail := "configured classification rule matched '" ++ rule.entry.normalized ++ "'" }
  else
    let best := (maxByKey precedence configured).getD rule
    let top := precedence best
    let topClasses := sortClasses ((configured.filter (precedence · = top)).map (·.fileClass))
    if topClasses.length = 1 then
      { fileClass := best.fileClass
        ruleId := best.ruleId
        source := .configuration
        detail := "configured precedence " ++ toString top ++
          " resolved conflicting classification for '" ++ best.entry.normalized ++ "'" }
    else
      { fileClass := .ambiguous
        ruleId := "classification:conflict"
        source := .configuration
        detail := "conflicting configured classes \x7b" ++ debugClasses topClasses ++
          "\x7d match without unique precedence" }

def builtinDependencyManifests : List String :=
  ["Cargo.toml", "package.json", "go.mod", "requirements.txt", "pyproject.toml"]

def builtinDependencyLockfiles : List String :=
  ["Cargo.lock", "package-lock.json", "pnpm-lock.yaml", "yarn.lock", "go.sum", "poetry.lock"]

def builtinClasses (path : String) : List (ScopeFileClass × String) :=
  let parts := splitOn '/' path.toList
  let basename := String.ofList (parts.getLast?.getD [])
  (if basename ∈ builtinDependencyManifests then
    [(.dependencyManifest, "builtin:dependency_manifest:" ++ basename)] else []) ++
  (if basename ∈ builtinDependencyLockfiles then
    [(.dependencyLockfile, "builtin:dependency_lockfile:" ++ basename)] else []) ++
  (if parts.dropLast.any (· = "tests".toList) then [(.test, "builtin:test_directory")] else [])

/-- The class of a file: the configured rules come before the built-in ones. -/
def classify (snapshot : ScopePolicySnapshot) (path : String) : Classified :=
  match snapshot.classificationRules.filter fun rule ↦ rule.entry.Matches path with
  | rule :: rules => classifyConfigured (rule :: rules) rule
  | [] =>
    let basename := String.ofList ((splitOn '/' path.toList).getLast?.getD [])
    match builtinClasses path with
    | [] =>
      { fileClass := .ordinarySource
        ruleId := "classification:ordinary_source"
        source := .builtIn
        detail := "no special-class rule matched" }
    | [(fileClass, ruleId)] =>
      { fileClass := fileClass
        ruleId := ruleId
        source := .builtIn
        detail := "built-in exact rule matched basename '" ++ basename ++ "'" }
    | matched =>
      { fileClass := .ambiguous
        ruleId := "classification:conflict"
        source := .builtIn
        detail := "conflicting built-in classes [" ++ debugClasses (matched.map (·.1)) ++ "] match" }

/-! ### Evaluating one side of a change -/

/-- What was observed of the candidate beside its diff. -/
structure ScopeEvidence where
  symlinkPaths : List String
  /-- The external crates that the candidate adds to the lock file. -/
  newExternalCrates : List String

inductive Side
  | new
  | old
  deriving DecidableEq

def Side.label : Side → String
  | new => "new"
  | old => "old"

structure Subject where
  changeId : String
  side : Side
  path : String
  oldPath : Option String
  kind : GitChangeKind
  deriving DecidableEq

def ValidRepositoryPath (path : String) : Prop :=
  path ≠ "" ∧ ¬StartsWith path "/" ∧ '\\' ∉ path.toList ∧
    ∀ part ∈ splitOn '/' path.toList, part ≠ [] ∧ part ≠ ['.'] ∧ part ≠ ['.', '.']

instance : DecidablePred ValidRepositoryPath :=
  fun _ ↦ inferInstanceAs (Decidable (_ ∧ _ ∧ _ ∧ _))

/-- The answer of one of the questions: the decision and its reasons. -/
structure ScopeVerdict where
  decision : ScopeDecision
  ruleId : String
  ruleSource : ScopeRuleSource
  ruleDetail : String
  prohibitedRuleMatch : Option String := none

section Subject

variable (snapshot : ScopePolicySnapshot) (evidence : ScopeEvidence) (subject : Subject)

def ScopePolicySnapshot.expectedMatch (path : String) : Option ExpectedFileEntry :=
  snapshot.contract.find? fun entry ↦ entry.Matches path

def ScopePolicySnapshot.allowedMatch (path : String) : Option ScopePathEntry :=
  snapshot.allowedPaths.find? fun entry ↦ entry.Matches path

/-- Step 1: invalid or incomplete evidence needs a human. -/
def evidenceVerdict : Option ScopeVerdict :=
  let review (ruleId detail : String) : Option ScopeVerdict :=
    some ⟨.ambiguousHumanReview, ruleId, .evidenceValidation, detail, none⟩
  let classified := classify snapshot subject.path
  if ¬ValidRepositoryPath subject.path then
    review "evidence:unsafe_path" "path is not a safe repository-relative path"
  else if (subject.kind = .renamed ∨ subject.kind = .copied) ∧ subject.oldPath = none then
    review "evidence:missing_old_path" "rename or copy without a recorded source path"
  else if subject.kind = .typeChanged then
    review "evidence:type_changed" "file type changes require human review"
  else if subject.kind = .unmerged then
    review "evidence:unmerged" "unmerged paths require human review"
  else if subject.path ∈ evidence.symlinkPaths then
    review "evidence:symlink" "symlinks are never authorized by path declarations"
  else if classified.fileClass = .ambiguous then
    some ⟨.ambiguousHumanReview, classified.ruleId, classified.source, classified.detail, none⟩
  else none

def ProhibitedRule.Prohibits (rule : ProhibitedRule) (kind : GitChangeKind) (path : String)
    (fileClass : ScopeFileClass) : Prop :=
  (rule.changeKinds = [] ∨ kind ∈ rule.changeKinds) ∧
    match rule.rule with
    | .path entry => entry.Matches path
    | .fileClass c => c = fileClass

instance (rule : ProhibitedRule) (kind : GitChangeKind) (path : String)
    (fileClass : ScopeFileClass) : Decidable (rule.Prohibits kind path fileClass) := by
  unfold ProhibitedRule.Prohibits
  refine @instDecidableAnd _ _ inferInstance ?_
  split <;> infer_instance

/-- Step 2: an explicit prohibition, which no declaration overrides. -/
def prohibitionVerdict : Option ScopeVerdict :=
  let fileClass := (classify snapshot subject.path).fileClass
  (snapshot.prohibitedRules.find? fun rule ↦
    rule.Prohibits subject.kind subject.path fileClass).map fun rule ↦
      { decision := .prohibitedChange
        ruleId := "prohibited:" ++ rule.ruleId
        ruleSource := .configuration
        ruleDetail := rule.description.getD "explicitly prohibited change"
        prohibitedRuleMatch := some rule.ruleId }

def copySourceVerdict : Option ScopeVerdict :=
  if subject.kind = .copied ∧ subject.side = .old then
    some
      { decision := .allowedChange
        ruleId := "copy_source_read"
        ruleSource := .builtIn
        ruleDetail := "copy source is read-only and not prohibited" }
  else none

def ScopeFileClassPolicies.policy? (policies : ScopeFileClassPolicies) :
    ScopeFileClass → Option ScopeClassPolicy
  | .dependencyManifest => some policies.dependencyManifest
  | .dependencyLockfile => some policies.dependencyLockfile
  | .migration => some policies.migration
  | .configuration => some policies.configuration
  | .test => some policies.test
  | .generatedArtifact => some policies.generatedArtifact
  | .ordinarySource | .ambiguous => none

/-- The entry of the contract that declares a part of the crate whose `tests` directory the path
lies in. -/
def declaredTestSurface (path : String) (contract : List ExpectedFileEntry) : Option String :=
  match stripPrefix? "crates/".toList path.toList with
  | none => none
  | some rest =>
    match splitOn '/' rest with
    | crateName :: ['t', 'e', 's', 't', 's'] :: _ =>
      let crateRoot := String.ofList ("crates/".toList ++ crateName ++ ['/'])
      (contract.find? fun entry ↦ StartsWith entry.normalized crateRoot).map (·.normalized)
    | _ => none

def ScopeFileClass.IsDependency (c : ScopeFileClass) : Prop :=
  c = .dependencyManifest ∨ c = .dependencyLockfile

instance : DecidablePred ScopeFileClass.IsDependency :=
  fun _ ↦ inferInstanceAs (Decidable (_ ∨ _))

/-- A class whose changes a human reviews. An exact declaration in the contract carries the approval
of the plan, and so does a change of the dependencies that adds no crate. -/
def humanReviewVerdict (fileClass : ScopeFileClass) : ScopeVerdict :=
  let label := fileClass.label
  match (snapshot.expectedMatch subject.path).map ExpectedFileEntry.matchKind with
  | some .exactFile =>
    { decision := .justifiedExpectedFileChange
      ruleId := "file_class:" ++ label ++ ":declared_expected_file"
      ruleSource := .expectedFiles
      ruleDetail := label ++ " file is exactly declared in Expected Files; the plan's standing " ++
        "batch approval covers declared manifests" }
  | _ =>
    if fileClass.IsDependency then
      if evidence.newExternalCrates = [] then
        { decision := .allowedChange
          ruleId := "file_class:" ++ label ++ ":no_new_external_crate"
          ruleSource := .builtIn
          ruleDetail := label ++ " change introduces no new external crate into Cargo.lock" }
      else
        { decision := .ambiguousHumanReview
          ruleId := "file_class:" ++ label ++ ":new_external_crate"
          ruleSource := .configuration
          ruleDetail := label ++ " change introduces new external crate(s): " ++
            ", ".intercalate evidence.newExternalCrates }
    else
      { decision := .ambiguousHumanReview
        ruleId := "file_class:" ++ label ++ ":human_review"
        ruleSource := .configuration
        ruleDetail := "class policy requires human review for " ++ label ++ " files" }

/-- A class whose files must be declared, where the path is not: a test below the declared surface
of its crate is. -/
def undeclaredVerdict (fileClass : ScopeFileClass) : ScopeVerdict :=
  let label := fileClass.label
  match if fileClass = .test then declaredTestSurface subject.path snapshot.contract else none with
  | some surface =>
    { decision := .justifiedExpectedFileChange
      ruleId := "file_class:test:declared_surface_coverage"
      ruleSource := .expectedFiles
      ruleDetail := "test exercises the declared surface '" ++ surface ++
        "'; required coverage is within scope authority" }
  | none =>
    { decision := .undeclaredScopeExpansion
      ruleId := "file_class:" ++ label ++ ":allow_when_expected"
      ruleSource := .configuration
      ruleDetail := "class policy permits " ++ label ++ " files only when declared in Expected Files" }

/-- Step 3: the policy of the class, where it decides. -/
def classVerdict : Option ScopeVerdict :=
  let fileClass := (classify snapshot subject.path).fileClass
  let label := fileClass.label
  match snapshot.fileClassPolicies.policy? fileClass with
  | none | some .allow => none
  | some .deny =>
    some
      { decision := .prohibitedChange
        ruleId := "file_class:" ++ label ++ ":deny"
        ruleSource := .configuration
        ruleDetail := "class policy denies changes to " ++ label ++ " files" }
  | some .humanReview => some (humanReviewVerdict snapshot evidence subject fileClass)
  | some .allowWhenExpected =>
    if snapshot.expectedMatch subject.path = none then
      some (undeclaredVerdict snapshot subject fileClass)
    else none
  | some .allowWhenConfigured =>
    if snapshot.allowedMatch subject.path = none then
      some
        { decision := .undeclaredScopeExpansion
          ruleId := "file_class:" ++ label ++ ":allow_when_configured"
          ruleSource := .configuration
          ruleDetail := "class policy permits " ++ label ++
            " files only within configured allowed paths" }
    else none

/-- Steps 4 to 7: where the path is declared. -/
def declarationVerdict : ScopeVerdict :=
  match snapshot.allowedMatch subject.path, snapshot.expectedMatch subject.path with
  | some allowed, some _ =>
    { decision := .allowedChange
      ruleId := "expected_file_declaration"
      ruleSource := .expectedFiles
      ruleDetail := "declared in Expected Files within allowed path '" ++ allowed.normalized ++ "'" }
  | some allowed, none =>
    match snapshot.declarationMode with
    | .expectedOrConfigured =>
      { decision := .allowedChange
        ruleId := "configured_allowed_path"
        ruleSource := .configuration
        ruleDetail := "within configured allowed path '" ++ allowed.normalized ++ "'" }
    | .expectedRequired =>
      { decision := .undeclaredScopeExpansion
        ruleId := "expected_file_declaration_required"
        ruleSource := .configuration
        ruleDetail := "declaration mode requires an Expected Files match" }
  | none, some entry =>
    if snapshot.allowPrdExpectedFileExpansion then
      { decision := .justifiedExpectedFileChange
        ruleId := "prd_expected_file_expansion"
        ruleSource := .expectedFiles
        ruleDetail := "outside static allowed paths but declared at Expected Files line " ++
          toString entry.sourceLine }
    else
      { decision := .undeclaredScopeExpansion
        ruleId := "static_allowed_path_ceiling"
        ruleSource := .configuration
        ruleDetail := "declared at Expected Files line " ++ toString entry.sourceLine ++
          " but PRD expansion is disabled" }
  | none, none =>
    { decision := .undeclaredScopeExpansion
      ruleId := "undeclared_change"
      ruleSource := .configuration
      ruleDetail := "matches no Expected Files entry and no configured allowed path" }

/-- The first question with an answer decides. -/
def verdict : ScopeVerdict :=
  ((((evidenceVerdict snapshot evidence subject).or (prohibitionVerdict snapshot subject)).or
    (copySourceVerdict subject)).or (classVerdict snapshot evidence subject)).getD
      (declarationVerdict snapshot subject)

/-- The finding about one side of a change. -/
def evaluateSubject : ScopeFinding :=
  let verdict := verdict snapshot evidence subject
  { findingId := subject.changeId ++ "#" ++ subject.side.label
    changeId := subject.changeId
    path := subject.path
    oldPath := subject.oldPath
    changeKind := subject.kind
    fileClass := (classify snapshot subject.path).fileClass
    decision := verdict.decision
    ruleId := verdict.ruleId
    ruleSource := verdict.ruleSource
    ruleDetail := verdict.ruleDetail
    expectedFileMatch := (snapshot.expectedMatch subject.path).map fun entry ↦
      ⟨entry.normalized, entry.sourceLine, entry.matchKind⟩
    allowedPathMatch := (snapshot.allowedMatch subject.path).map (·.normalized)
    prohibitedRuleMatch := verdict.prohibitedRuleMatch
    policySnapshotHash := snapshot.snapshotHash }

end Subject

def ChangedFile.changeId (file : ChangedFile) : String :=
  file.kind.label ++ ":" ++ file.oldPath.getD "-" ++ ":" ++ file.path

/-- The sides of a change: the new one, and for a rename or a copy the old one. -/
def ChangedFile.subjects (file : ChangedFile) : List Subject :=
  let new : Subject := ⟨file.changeId, .new, file.path, file.oldPath, file.kind⟩
  match file.oldPath with
  | some oldPath =>
    if file.kind = .renamed ∨ file.kind = .copied then
      [new, ⟨file.changeId, .old, oldPath, file.oldPath, file.kind⟩]
    else [new]
  | none => [new]

/-- The step that the finding was decided in, which findings of one path are sorted by. -/
def precedenceStep (decision : ScopeDecision) (ruleId : String) : ℕ :=
  if StartsWith ruleId "evidence:" ∨ StartsWith ruleId "classification:conflict" then 1
  else if StartsWith ruleId "prohibited:" then 2
  else if StartsWith ruleId "file_class:" then 3
  else if ruleId = "static_allowed_path_ceiling" then 4
  else if decision = .allowedChange ∨ decision = .justifiedExpectedFileChange then 5
  else 7

def ScopeFinding.compare (a b : ScopeFinding) : Ordering :=
  (Ord.compare a.path b.path).then <| (Ord.compare a.oldPath b.oldPath).then <|
    (Ord.compare a.changeKind.ctorIdx b.changeKind.ctorIdx).then <|
    (Ord.compare (precedenceStep a.decision a.ruleId) (precedenceStep b.decision b.ruleId)).then <|
    (Ord.compare a.ruleId b.ruleId).then (Ord.compare a.findingId b.findingId)

def scopeDisposition (findings : List ScopeFinding) : ScopeDisposition :=
  if findings.any fun f ↦
      f.decision = .prohibitedChange ∨ f.decision = .undeclaredScopeExpansion then .broadened
  else if findings.any fun f ↦ f.decision = .ambiguousHumanReview then .humanReviewRequired
  else .contained

def evaluateScope (snapshot : ScopePolicySnapshot) (files : List ChangedFile)
    (evidence : ScopeEvidence) : ScopeEvaluation :=
  let findings := (files.flatMap ChangedFile.subjects).map (evaluateSubject snapshot evidence)
  let findings := findings.insertionSort fun a b ↦ a.compare b ≠ .gt
  ⟨findings, scopeDisposition findings⟩

def scopeCheckResult (files : List ChangedFile) (evaluation : ScopeEvaluation)
    (snapshot : ScopePolicySnapshot) (phase : String) : ScopeCheckResult where
  added := (files.filter (·.kind = .added)).map (·.path)
  modified := (files.filter fun f ↦
    f.kind ≠ .added ∧ f.kind ≠ .deleted ∧ f.kind ≠ .renamed).map (·.path)
  deleted := (files.filter (·.kind = .deleted)).map (·.path)
  renamed := (files.filter (·.kind = .renamed)).map fun f ↦ (f.oldPath.getD "", f.path)
  disposition := evaluation.disposition
  findings := evaluation.findings
  policySnapshotHash := snapshot.snapshotHash
  phase := phase

/-- What the implementer is told of the policy. -/
def scopeRuleSummary (snapshot : ScopePolicySnapshot) (blockingScopeFindings : List ScopeFinding) :
    ScopeRuleSummary where
  policySnapshotHash := snapshot.snapshotHash
  authorizedPaths := snapshot.allowedPaths
  expectedFiles := snapshot.contract
  prohibitedRules := snapshot.prohibitedRules
  fileClassPolicies := snapshot.fileClassPolicies
  blockingScopeFindings := blockingScopeFindings

end FamiliarAi
