import FamiliarAi.Review.Tier

/-!
# Containment

A change is contained when the policy grants each of its sides. We say what it takes to be granted:
the evidence for the side is sound, no rule prohibits it, and the policy authorises its path. A
prohibition comes before every declaration, so a prohibited path is never contained, whatever the
contract and the configuration allow.

The source of a copy is read and not changed; it is the one side that needs no authorisation.
-/

namespace FamiliarAi

open Option List

def ChangedFile.Touches (file : ChangedFile) (path : String) : Prop :=
  path = file.path ∨ file.kind = .renamed ∧ file.oldPath = some path

section Policy

variable (snapshot : ScopePolicySnapshot) (evidence : ScopeEvidence)

structure SoundEvidence (file : ChangedFile) (path : String) : Prop where
  valid : ValidRepositoryPath path
  oldPath : file.kind = .renamed ∨ file.kind = .copied → file.oldPath ≠ none
  not_typeChanged : file.kind ≠ .typeChanged
  not_unmerged : file.kind ≠ .unmerged
  not_symlink : path ∉ evidence.symlinkPaths
  not_ambiguous : (classify snapshot path).fileClass ≠ .ambiguous

def Prohibited (kind : GitChangeKind) (path : String) : Prop :=
  ∃ rule ∈ snapshot.prohibitedRules, rule.Prohibits kind path (classify snapshot path).fileClass

/-- The contract declares the path. -/
def Expected (path : String) : Prop :=
  ∃ entry ∈ snapshot.contract, entry.Matches path

def Allowed (path : String) : Prop :=
  ∃ entry ∈ snapshot.allowedPaths, entry.Matches path

/-- The policy of the class leaves the decision to the declarations. -/
def ClassPermits (path : String) : Prop :=
  match snapshot.fileClassPolicies.policy? (classify snapshot path).fileClass with
  | none | some .allow => True
  | some .allowWhenExpected => Expected snapshot path
  | some .allowWhenConfigured => Allowed snapshot path
  | some .deny | some .humanReview => False

/-- The policy authorises changes of the path. -/
inductive Authorised (path : String) : Prop
  | expected (permits : ClassPermits snapshot path) (expected : Expected snapshot path)
      (within : Allowed snapshot path ∨ snapshot.allowPrdExpectedFileExpansion = true)
  | configured (permits : ClassPermits snapshot path) (allowed : Allowed snapshot path)
      (mode : snapshot.declarationMode = .expectedOrConfigured)
  | approved
      (policy : snapshot.fileClassPolicies.policy? (classify snapshot path).fileClass =
        some .humanReview)
      (exact : ∃ entry ∈ snapshot.contract, entry.matchKind = .exactFile ∧ entry.Matches path)
  | vetted
      (policy : snapshot.fileClassPolicies.policy? (classify snapshot path).fileClass =
        some .humanReview)
      (dependency : (classify snapshot path).fileClass.IsDependency)
      (crates : evidence.newExternalCrates = [])
  | testSurface (policy : snapshot.fileClassPolicies.test = .allowWhenExpected)
      (test : (classify snapshot path).fileClass = .test)
      (surface : (declaredTestSurface path snapshot.contract).isSome)

end Policy

/-! ### The questions -/

section Verdict

variable {snapshot : ScopePolicySnapshot} {evidence : ScopeEvidence} {subject : Subject}
  {file : ChangedFile} {path : String} {v : ScopeVerdict} {entry : ExpectedFileEntry}

theorem expectedMatch_eq_some (h : snapshot.expectedMatch path = some entry) :
    entry ∈ snapshot.contract ∧ entry.Matches path :=
  ⟨mem_of_find?_eq_some h, by simpa using find?_some h⟩

theorem Expected.of_match (h : snapshot.expectedMatch path = some entry) : Expected snapshot path :=
  ⟨entry, expectedMatch_eq_some h⟩

theorem Allowed.of_match {entry : ScopePathEntry} (h : snapshot.allowedMatch path = some entry) :
    Allowed snapshot path :=
  ⟨entry, mem_of_find?_eq_some h, by simpa using find?_some h⟩

def Subject.Of (subject : Subject) (file : ChangedFile) : Prop :=
  subject.kind = file.kind ∧ subject.oldPath = file.oldPath

theorem Subject.of_mem_subjects (h : subject ∈ file.subjects) :
    subject.Of file := by
  unfold ChangedFile.subjects at h
  split at h
  · split at h <;> simp only [mem_cons, not_mem_nil, or_false] at h
    · obtain rfl | rfl := h <;> exact ⟨rfl, rfl⟩
    · subst h; exact ⟨rfl, rfl⟩
  · simp only [mem_cons, not_mem_nil, or_false] at h
    subst h; exact ⟨rfl, rfl⟩

theorem exists_subject_of_touches (h : file.Touches path) :
    ∃ subject ∈ file.subjects, subject.path = path ∧ copySourceVerdict subject = none := by
  obtain rfl | ⟨hkind, hold⟩ := h
  · unfold ChangedFile.subjects
    split
    · split <;> exact ⟨_, mem_cons_self, rfl, by simp [copySourceVerdict]⟩
    · exact ⟨_, mem_cons_self, rfl, by simp [copySourceVerdict]⟩
  · refine ⟨⟨file.changeId, .old, path, file.oldPath, file.kind⟩, ?_, rfl,
      by simp [copySourceVerdict, hkind]⟩
    unfold ChangedFile.subjects
    simp [hold, hkind]

theorem evidenceVerdict_eq_none_iff (h : subject.Of file) :
    evidenceVerdict snapshot evidence subject = none ↔
      SoundEvidence snapshot evidence file subject.path := by
  obtain ⟨hkind, hold⟩ := h
  constructor
  · intro hnone
    simp only [evidenceVerdict, hkind, hold] at hnone
    split_ifs at hnone
    exact ⟨by tauto, by tauto, by tauto, by tauto, by tauto, by tauto⟩
  · intro hsound
    have hpath : ¬((file.kind = .renamed ∨ file.kind = .copied) ∧ subject.oldPath = none) := by
      rw [hold]
      exact fun hmissing ↦ hsound.oldPath hmissing.1 hmissing.2
    simp only [evidenceVerdict, hkind, if_neg hpath, hsound.valid, hsound.not_typeChanged,
      hsound.not_unmerged, hsound.not_symlink, hsound.not_ambiguous, not_true_eq_false, if_false]

theorem evidenceVerdict_decision (h : evidenceVerdict snapshot evidence subject = some v) :
    v.decision = .ambiguousHumanReview := by
  simp only [evidenceVerdict] at h
  split_ifs at h <;> cases h <;> rfl

theorem prohibitionVerdict_eq_none_iff :
    prohibitionVerdict snapshot subject = none ↔ ¬Prohibited snapshot subject.kind subject.path := by
  simp only [prohibitionVerdict, map_eq_none_iff, find?_eq_none, decide_eq_true_eq,
    Prohibited, not_exists, not_and]

theorem prohibitionVerdict_decision (h : prohibitionVerdict snapshot subject = some v) :
    v.decision = .prohibitedChange := by
  obtain ⟨rule, -, rfl⟩ := map_eq_some_iff.1 h
  rfl

theorem Authorised.of_humanReviewVerdict
    (hpolicy : snapshot.fileClassPolicies.policy? (classify snapshot subject.path).fileClass =
      some .humanReview)
    (h : (humanReviewVerdict snapshot evidence subject
      (classify snapshot subject.path).fileClass).decision.Grants) :
    Authorised snapshot evidence subject.path := by
  simp only [humanReviewVerdict] at h
  split at h
  · rename_i hexact
    obtain ⟨entry, hentry, hkind⟩ := map_eq_some_iff.1 hexact
    obtain ⟨hmem, hmatches⟩ := expectedMatch_eq_some hentry
    exact .approved hpolicy ⟨entry, hmem, hkind, hmatches⟩
  · split_ifs at h with hdependency hcrates
    · exact .vetted hpolicy hdependency hcrates
    · simp [ScopeDecision.Grants] at h
    · simp [ScopeDecision.Grants] at h

theorem Authorised.of_undeclaredVerdict {fileClass : ScopeFileClass}
    (hclass : (classify snapshot subject.path).fileClass = fileClass)
    (hpolicy : snapshot.fileClassPolicies.policy? fileClass = some .allowWhenExpected)
    (h : (undeclaredVerdict snapshot subject fileClass).decision.Grants) :
    Authorised snapshot evidence subject.path := by
  simp only [undeclaredVerdict] at h
  split at h
  · rename_i surface hsurface
    have htest : fileClass = .test := by
      by_contra hne
      simp [hne] at hsurface
    subst htest
    exact .testSurface (by simpa [ScopeFileClassPolicies.policy?] using hpolicy) hclass
      (by simp_all)
  · simp [ScopeDecision.Grants] at h

theorem Authorised.of_classVerdict (hv : classVerdict snapshot evidence subject = some v)
    (h : v.decision.Grants) :
    Authorised snapshot evidence subject.path := by
  simp only [classVerdict] at hv
  split at hv
  · simp at hv
  · simp at hv
  · cases hv; simp [ScopeDecision.Grants] at h
  · rename_i hpolicy
    cases hv
    exact .of_humanReviewVerdict hpolicy h
  · rename_i hpolicy
    split_ifs at hv
    cases hv
    exact .of_undeclaredVerdict rfl hpolicy h
  · split_ifs at hv
    cases hv; simp [ScopeDecision.Grants] at h

theorem ClassPermits.of_classVerdict (hv : classVerdict snapshot evidence subject = none) :
    ClassPermits snapshot subject.path := by
  simp only [classVerdict] at hv
  unfold ClassPermits
  split at hv <;> rename_i hpolicy <;> simp only [hpolicy]
  · simp at hv
  · simp at hv
  · by_cases hexpected : snapshot.expectedMatch subject.path = none
    · simp [hexpected] at hv
    · obtain ⟨entry, hentry⟩ := ne_none_iff_exists'.1 hexpected
      exact Expected.of_match hentry
  · by_cases hallowed : snapshot.allowedMatch subject.path = none
    · simp [hallowed] at hv
    · obtain ⟨entry, hentry⟩ := ne_none_iff_exists'.1 hallowed
      exact Allowed.of_match hentry

theorem Authorised.of_declarationVerdict (hpermits : ClassPermits snapshot subject.path)
    (h : (declarationVerdict snapshot subject).decision.Grants) :
    Authorised snapshot evidence subject.path := by
  unfold declarationVerdict at h
  split at h
  · rename_i hallowed hexpected
    exact .expected hpermits (.of_match hexpected) (.inl (.of_match hallowed))
  · rename_i hallowed hexpected
    split at h
    · rename_i hmode
      exact .configured hpermits (.of_match hallowed) hmode
    · simp [ScopeDecision.Grants] at h
  · rename_i hallowed hexpected
    split_ifs at h with hexpansion
    · exact .expected hpermits (.of_match hexpected) (.inr hexpansion)
    · simp [ScopeDecision.Grants] at h
  · simp [ScopeDecision.Grants] at h

/-- **What is granted.** A granted side that is not the source of a copy has sound evidence, is not
prohibited, and is authorised. -/
theorem granted_verdict (hof : subject.Of file) (hcopy : copySourceVerdict subject = none)
    (h : (verdict snapshot evidence subject).decision.Grants) :
    SoundEvidence snapshot evidence file subject.path ∧
      ¬Prohibited snapshot file.kind subject.path ∧ Authorised snapshot evidence subject.path := by
  cases hevidence : evidenceVerdict snapshot evidence subject with
  | some v =>
    simp [verdict, hevidence, ScopeDecision.Grants, evidenceVerdict_decision hevidence] at h
  | none =>
    cases hprohibition : prohibitionVerdict snapshot subject with
    | some v =>
      simp [verdict, hevidence, hprohibition, ScopeDecision.Grants,
        prohibitionVerdict_decision hprohibition] at h
    | none =>
      refine ⟨(evidenceVerdict_eq_none_iff hof).1 hevidence,
        hof.1 ▸ prohibitionVerdict_eq_none_iff.1 hprohibition, ?_⟩
      rcases hclass : classVerdict snapshot evidence subject with _ | v
      · simp only [verdict, hevidence, hprohibition, hcopy, hclass, none_or,
          getD_none] at h
        exact .of_declarationVerdict (.of_classVerdict hclass) h
      simp only [verdict, hevidence, hprohibition, hcopy, hclass, none_or, getD_some] at h
      exact .of_classVerdict hclass h

/-- **What is prohibited.** A prohibited side is refused as such when its evidence is sound, and goes
to a human when it is not. -/
theorem prohibited_verdict (hof : subject.Of file) (h : Prohibited snapshot file.kind subject.path)
    :
    (SoundEvidence snapshot evidence file subject.path →
      (verdict snapshot evidence subject).decision = .prohibitedChange) ∧
    (¬SoundEvidence snapshot evidence file subject.path →
      (verdict snapshot evidence subject).decision = .ambiguousHumanReview) := by
  rw [← hof.1] at h
  rw [← evidenceVerdict_eq_none_iff hof]
  constructor
  · intro hsound
    have hsome : prohibitionVerdict snapshot subject ≠ none := by
      simpa [prohibitionVerdict_eq_none_iff] using h
    obtain ⟨v, hv⟩ := ne_none_iff_exists'.1 hsome
    simp [verdict, hsound, hv, prohibitionVerdict_decision hv]
  · intro hunsound
    obtain ⟨v, hv⟩ := ne_none_iff_exists'.1 hunsound
    simp [verdict, hv, evidenceVerdict_decision hv]

end Verdict

/-! ### The evaluation -/

section Evaluation

variable {snapshot : ScopePolicySnapshot} {files : List ChangedFile} {evidence : ScopeEvidence}

theorem scopeDisposition_eq_contained_iff {findings : List ScopeFinding} :
    scopeDisposition findings = .contained ↔ ∀ f ∈ findings, f.decision.Grants := by
  have hcases (d : ScopeDecision) :
      d.Grants ↔ ¬(d = .prohibitedChange ∨ d = .undeclaredScopeExpansion) ∧
        d ≠ .ambiguousHumanReview := by
    cases d <;> simp [ScopeDecision.Grants]
  simp only [hcases, forall_and, scopeDisposition]
  split_ifs with hbroadened hreview
  · simp only [List.any_eq_true, decide_eq_true_eq] at hbroadened
    obtain ⟨f, hf, hdecision⟩ := hbroadened
    simp only [false_iff, not_and]
    exact fun hnone ↦ absurd hdecision (hnone f hf)
  · simp only [List.any_eq_true, decide_eq_true_eq] at hreview
    obtain ⟨f, hf, hdecision⟩ := hreview
    simp only [false_iff, not_and]
    exact fun _ hnone ↦ hnone f hf hdecision
  · simpa using ⟨by simpa using hbroadened, by simpa using hreview⟩

theorem evaluateSubject_mem_findings {file : ChangedFile} {subject : Subject}
    (hfile : file ∈ files) (hsubject : subject ∈ file.subjects) :
    evaluateSubject snapshot evidence subject ∈ (evaluateScope snapshot files evidence).findings := by
  have hmem : evaluateSubject snapshot evidence subject ∈
      (files.flatMap ChangedFile.subjects).map (evaluateSubject snapshot evidence) :=
    mem_map_of_mem (mem_flatMap.2 ⟨file, hfile, hsubject⟩)
  exact (perm_insertionSort _ _).mem_iff.2 hmem

/-- **Containment.** Each path that a contained change touches has sound evidence, is prohibited by
no rule, and is authorised by the policy. A touched path that a rule prohibits is reported as such,
or goes to a human when its evidence is not sound, and the change is not contained. -/
theorem evaluateScope_containment {file : ChangedFile} {path : String} (hfile : file ∈ files)
    (htouches : file.Touches path) :
    ((evaluateScope snapshot files evidence).disposition = .contained →
      SoundEvidence snapshot evidence file path ∧ ¬Prohibited snapshot file.kind path ∧
        Authorised snapshot evidence path) ∧
    (Prohibited snapshot file.kind path →
      (evaluateScope snapshot files evidence).disposition ≠ .contained ∧
        (∃ f ∈ (evaluateScope snapshot files evidence).findings, f.path = path ∧
          (SoundEvidence snapshot evidence file path ∧ f.decision = .prohibitedChange ∨
            ¬SoundEvidence snapshot evidence file path ∧ f.decision = .ambiguousHumanReview)) ∧
        (SoundEvidence snapshot evidence file path →
          (evaluateScope snapshot files evidence).disposition = .broadened)) := by
  obtain ⟨subject, hsubject, rfl, hcopy⟩ := exists_subject_of_touches htouches
  have hof := Subject.of_mem_subjects hsubject
  have hmem : evaluateSubject snapshot evidence subject ∈
      (evaluateScope snapshot files evidence).findings :=
    evaluateSubject_mem_findings hfile hsubject
  have hcontained (h : (evaluateScope snapshot files evidence).disposition = .contained) :
      (verdict snapshot evidence subject).decision.Grants :=
    scopeDisposition_eq_contained_iff.1 h _ hmem
  refine ⟨fun h ↦ granted_verdict hof hcopy (hcontained h), fun hprohibited ↦ ?_⟩
  obtain ⟨hrefused, hhuman⟩ := @prohibited_verdict _ evidence _ _ hof hprohibited
  refine ⟨fun h ↦ (granted_verdict hof hcopy (hcontained h)).2.1 hprohibited,
    ⟨_, hmem, rfl, ?_⟩, fun hsound ↦ ?_⟩
  · by_cases hsound : SoundEvidence snapshot evidence file subject.path
    · exact .inl ⟨hsound, hrefused hsound⟩
    · exact .inr ⟨hsound, hhuman hsound⟩
  · have hany : (evaluateScope snapshot files evidence).findings.any fun f ↦
        f.decision = .prohibitedChange ∨ f.decision = .undeclaredScopeExpansion := by
      simp only [List.any_eq_true, decide_eq_true_eq]
      exact ⟨_, hmem, .inl (hrefused hsound)⟩
    exact if_pos hany

end Evaluation

/-- A policy that allows the sources and prohibits changes of a link. -/
def linkPolicy : ScopePolicyInput where
  prdPath := "prd.md"
  prdContentHash := ""
  contract := []
  allowedPaths := ["src/"]
  allowPrdExpectedFileExpansion := false
  declarationMode := .expectedOrConfigured
  prohibitedRules := [⟨"link", .path ⟨"link", .exactFile⟩, [], none⟩]
  fileClassPolicies := {}
  classificationRules := []
  baselineRevision := ""
  configProvenance := ""

/-- The compiled policy, under a digest function that is constant. -/
def linkSnapshot : ScopePolicySnapshot where
  schemaVersion := "scope-policy/1"
  prdPath := "prd.md"
  prdContentHash := ""
  contract := []
  allowedPaths := [⟨"src/", .directory⟩]
  allowPrdExpectedFileExpansion := false
  declarationMode := .expectedOrConfigured
  prohibitedRules := [⟨"link", .path ⟨"link", .exactFile⟩, [], none⟩]
  fileClassPolicies := {}
  classificationRules := []
  builtinRulesVersion := "builtin-scope-rules/1"
  baselineRevision := ""
  configProvenance := ""
  snapshotHash := contentHash (fun _ ↦ Vector.replicate 32 0) []

theorem evaluateScope_containment_link :
    Authorised linkSnapshot ⟨[], []⟩ "src/lib.rs" ∧
      (evaluateScope linkSnapshot [⟨"src/lib.rs", .renamed, some "link", []⟩] ⟨[], []⟩).disposition =
        .broadened :=
  ⟨((@evaluateScope_containment _ [⟨"src/lib.rs", .modified, none, []⟩] _ _ _
      mem_cons_self (.inl rfl)).1 (by decide +kernel)).2.2,
    ((evaluateScope_containment mem_cons_self (.inr ⟨rfl, rfl⟩)).2
      ⟨_, mem_cons_self, by decide +kernel⟩).2.2
        ⟨by decide +kernel, by decide, by decide, by decide, by decide, by decide +kernel⟩⟩

/-- A prohibited path that is a symbolic link is not reported as prohibited, and a change of a source
below a configured path is contained with no entry of the contract, test surface or class policy that
authorises it. -/
theorem link_not_prohibited_and_source_contained :
    (compileScopePolicy (fun _ ↦ Vector.replicate 32 0) linkPolicy).toOption = some linkSnapshot ∧
    ((evaluateScope linkSnapshot [⟨"link", .modified, none, []⟩] ⟨["link"], []⟩).findings.map
        (·.decision) = [.ambiguousHumanReview] ∧
      ∃ rule ∈ linkSnapshot.prohibitedRules,
        rule.Prohibits .modified "link" (classify linkSnapshot "link").fileClass) ∧
    (evaluateScope linkSnapshot [⟨"src/lib.rs", .modified, none, []⟩] ⟨[], []⟩).disposition =
        .contained ∧
      linkSnapshot.expectedMatch "src/lib.rs" = none ∧
      declaredTestSurface "src/lib.rs" linkSnapshot.contract = none ∧
      linkSnapshot.fileClassPolicies.policy? (classify linkSnapshot "src/lib.rs").fileClass =
        none := by
  decide +kernel

end FamiliarAi
