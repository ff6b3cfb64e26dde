import FamiliarAi.Review.Containment

/-!
# What declarations do

A path is declared in the contract of the PRD or in the configuration. We say exactly when the
policy grants a path that its first questions leave open, and from it what becomes of granted paths
when more is declared: the declarations grant more and more, but for two places where the evaluation
asks something else of them than whether they cover the path. Where a human reviews the class, the
kind of the entry decides that covers the path first; and a test of a declared crate is granted for
not being declared itself.
-/

namespace FamiliarAi

section Policy

variable (snapshot : ScopePolicySnapshot) (evidence : ScopeEvidence)

def CopySource (file : ChangedFile) (subject : Subject) : Prop :=
  file.kind = .copied ∧ subject.side = .old

/-- The side is left to the policy of its class: the evidence is sound, nothing prohibits it, and it
is not the source of a copy. -/
structure Considered (file : ChangedFile) (subject : Subject) : Prop where
  sound : SoundEvidence snapshot evidence file subject.path
  not_prohibited : ¬Prohibited snapshot file.kind subject.path
  not_copySource : ¬CopySource file subject

def FirstCovering (contract : List ExpectedFileEntry) (path : String) (entry : ExpectedFileEntry) :
    Prop :=
  ∃ before after, contract = before ++ entry :: after ∧ entry.Matches path ∧
    ∀ e ∈ before, ¬e.Matches path

def Declared (path : String) : Prop :=
  Expected snapshot path ∧ (Allowed snapshot path ∨ snapshot.allowPrdExpectedFileExpansion = true) ∨
    Allowed snapshot path ∧ snapshot.declarationMode = .expectedOrConfigured

/-- The path is a test of a crate that the contract declares a part of. -/
def Covered (path : String) : Prop :=
  (classify snapshot path).fileClass = .test ∧ (declaredTestSurface path snapshot.contract).isSome

def Granted (path : String) : Prop :=
  match snapshot.fileClassPolicies.policy? (classify snapshot path).fileClass with
  | none | some .allow => Declared snapshot path
  | some .deny => False
  | some .humanReview =>
    (∃ entry, FirstCovering snapshot.contract path entry ∧ entry.matchKind = .exactFile) ∨
      (classify snapshot path).fileClass.IsDependency ∧ evidence.newExternalCrates = []
  | some .allowWhenExpected =>
    Expected snapshot path ∧ Declared snapshot path ∨
      ¬Expected snapshot path ∧ Covered snapshot path
  | some .allowWhenConfigured => Allowed snapshot path ∧ Declared snapshot path

end Policy

/-! ### The questions, answered exactly -/

section Verdict

variable {snapshot : ScopePolicySnapshot} {evidence : ScopeEvidence} {file : ChangedFile}
  {subject : Subject} {path : String} {fileClass : ScopeFileClass}

theorem expectedMatch_eq_some_iff {entry : ExpectedFileEntry} :
    snapshot.expectedMatch path = some entry ↔ FirstCovering snapshot.contract path entry := by
  rw [ScopePolicySnapshot.expectedMatch, List.find?_eq_some_iff_append]
  constructor
  · rintro ⟨hmatches, before, after, heq, hbefore⟩
    exact ⟨before, after, heq, of_decide_eq_true hmatches,
      fun e he hcovers ↦ by simpa [hcovers] using hbefore e he⟩
  · rintro ⟨before, after, heq, hmatches, hbefore⟩
    exact ⟨decide_eq_true hmatches, before, after, heq, fun e he ↦ by simpa using hbefore e he⟩

theorem expectedMatch_eq_none_iff :
    snapshot.expectedMatch path = none ↔ ¬Expected snapshot path := by
  simp only [ScopePolicySnapshot.expectedMatch, List.find?_eq_none, decide_eq_true_eq, Expected,
    not_exists, not_and]

theorem allowedMatch_eq_none_iff : snapshot.allowedMatch path = none ↔ ¬Allowed snapshot path := by
  simp only [ScopePolicySnapshot.allowedMatch, List.find?_eq_none, decide_eq_true_eq, Allowed,
    not_exists, not_and]

theorem grants_declarationVerdict_iff :
    (declarationVerdict snapshot subject).decision.Grants ↔ Declared snapshot subject.path := by
  rw [declarationVerdict, Declared]
  cases hallowed : snapshot.allowedMatch subject.path with
  | some allowed =>
    have hwithin : Allowed snapshot subject.path := .of_match hallowed
    cases hexpected : snapshot.expectedMatch subject.path with
    | some entry =>
      exact iff_of_true (.inl rfl) (.inl ⟨.of_match hexpected, .inl hwithin⟩)
    | none =>
      have hnot := expectedMatch_eq_none_iff.1 hexpected
      cases hmode : snapshot.declarationMode with
      | expectedOrConfigured => exact iff_of_true (.inl rfl) (.inr ⟨hwithin, rfl⟩)
      | expectedRequired =>
        exact iff_of_false (by rintro (h | h) <;> cases h) fun h ↦ h.elim (fun h ↦ hnot h.1) fun h ↦ by
          cases h.2
  | none =>
    have hnot := allowedMatch_eq_none_iff.1 hallowed
    rcases hexpected : snapshot.expectedMatch subject.path with _ | entry
    · have hundeclared := expectedMatch_eq_none_iff.1 hexpected
      exact iff_of_false (by rintro (h | h) <;> cases h) fun h ↦ h.elim (fun h ↦ hundeclared h.1) fun h ↦ hnot h.1
    have hdeclared : Expected snapshot subject.path := .of_match hexpected
    by_cases hexpansion : snapshot.allowPrdExpectedFileExpansion = true
    · simp only [if_pos hexpansion]
      exact iff_of_true (.inr rfl) (.inl ⟨hdeclared, .inr hexpansion⟩)
    · simp only [if_neg hexpansion]
      exact iff_of_false (by rintro (h | h) <;> cases h) fun h ↦
        h.elim (fun h ↦ h.2.elim hnot hexpansion) fun h ↦ hnot h.1

theorem grants_humanReviewVerdict_iff :
    (humanReviewVerdict snapshot evidence subject fileClass).decision.Grants ↔
      (∃ entry, FirstCovering snapshot.contract subject.path entry ∧ entry.matchKind = .exactFile) ∨
      fileClass.IsDependency ∧ evidence.newExternalCrates = [] := by
  have hfirst : (snapshot.expectedMatch subject.path).map ExpectedFileEntry.matchKind =
      some .exactFile ↔ ∃ entry, FirstCovering snapshot.contract subject.path entry ∧
        entry.matchKind = .exactFile := by
    simp only [Option.map_eq_some_iff, expectedMatch_eq_some_iff]
  rw [← hfirst, humanReviewVerdict]
  split
  · next hexact => exact iff_of_true (.inr rfl) (.inl hexact)
  · next hnot =>
    rw [or_iff_right hnot]
    split_ifs with hdependency hcrates
    · exact iff_of_true (.inl rfl) ⟨hdependency, hcrates⟩
    · exact iff_of_false (by rintro (h | h) <;> cases h) fun h ↦ hcrates h.2
    · exact iff_of_false (by rintro (h | h) <;> cases h) fun h ↦ hdependency h.1

/-- The declaration that carries the approval of the plan. -/
theorem humanReviewVerdict_justified_iff :
    (humanReviewVerdict snapshot evidence subject fileClass).decision =
        .justifiedExpectedFileChange ↔
      ∃ entry, FirstCovering snapshot.contract subject.path entry ∧
        entry.matchKind = .exactFile := by
  simp only [← expectedMatch_eq_some_iff, ← Option.map_eq_some_iff]
  rw [humanReviewVerdict]
  split
  · next hexact => exact iff_of_true rfl hexact
  · next hnot => split_ifs <;> exact iff_of_false (by rintro h; cases h) hnot

theorem grants_undeclaredVerdict_iff :
    (undeclaredVerdict snapshot subject fileClass).decision.Grants ↔
      fileClass = .test ∧ (declaredTestSurface subject.path snapshot.contract).isSome := by
  rw [undeclaredVerdict]
  by_cases htest : fileClass = .test
  · rw [if_pos htest]
    cases hsurface : declaredTestSurface subject.path snapshot.contract with
    | some surface => exact iff_of_true (.inr rfl) ⟨htest, rfl⟩
    | none => exact iff_of_false (by rintro (h | h) <;> cases h) (fun h ↦ by cases h.2)
  · rw [if_neg htest]
    exact iff_of_false (by rintro (h | h) <;> cases h) fun h ↦ htest h.1

/-- **What a considered side is granted for.** -/
theorem grants_classVerdict_iff :
    (((classVerdict snapshot evidence subject).getD
      (declarationVerdict snapshot subject)).decision.Grants) ↔
        Granted snapshot evidence subject.path := by
  rw [classVerdict, Granted]
  cases hpolicy : snapshot.fileClassPolicies.policy? (classify snapshot subject.path).fileClass with
  | none => exact grants_declarationVerdict_iff
  | some policy =>
    cases policy with
    | allow => exact grants_declarationVerdict_iff
    | deny => exact iff_of_false (by rintro (h | h) <;> cases h) id
    | humanReview => exact grants_humanReviewVerdict_iff
    | allowWhenExpected =>
      by_cases hexpected : Expected snapshot subject.path
      · simp only [if_neg (mt expectedMatch_eq_none_iff.1 (not_not.2 hexpected)), hexpected,
          true_and, not_true_eq_false, false_and, or_false]
        exact grants_declarationVerdict_iff
      · simp only [if_pos (expectedMatch_eq_none_iff.2 hexpected), hexpected, false_and,
          not_false_eq_true, true_and, false_or]
        exact grants_undeclaredVerdict_iff
    | allowWhenConfigured =>
      by_cases hallowed : Allowed snapshot subject.path
      · simp only [if_neg (mt allowedMatch_eq_none_iff.1 (not_not.2 hallowed)), hallowed,
          true_and]
        exact grants_declarationVerdict_iff
      · simp only [if_pos (allowedMatch_eq_none_iff.2 hallowed), hallowed, false_and]
        exact iff_of_false (by rintro (h | h) <;> cases h) id

theorem verdict_of_considered (hof : subject.Of file)
    (h : Considered snapshot evidence file subject) :
    verdict snapshot evidence subject =
      (classVerdict snapshot evidence subject).getD (declarationVerdict snapshot subject) := by
  have hevidence := (evidenceVerdict_eq_none_iff hof).2 h.sound
  have hprohibition : prohibitionVerdict snapshot subject = none :=
    prohibitionVerdict_eq_none_iff.2 (hof.1 ▸ h.not_prohibited)
  have hcopy : copySourceVerdict subject = none := if_neg (hof.1 ▸ h.not_copySource)
  rw [verdict, hevidence, hprohibition, hcopy, Option.none_or, Option.none_or, Option.none_or]

/-- **What is granted**, and exactly that. -/
theorem grants_verdict_iff (hof : subject.Of file) :
    (verdict snapshot evidence subject).decision.Grants ↔
      SoundEvidence snapshot evidence file subject.path ∧
        ¬Prohibited snapshot file.kind subject.path ∧
        (CopySource file subject ∨ Granted snapshot evidence subject.path) := by
  by_cases hsound : SoundEvidence snapshot evidence file subject.path
  · by_cases hprohibited : Prohibited snapshot file.kind subject.path
    · have hdecision := (@prohibited_verdict _ evidence _ _ hof hprohibited).1 hsound
      exact iff_of_false (fun h ↦ by simp [ScopeDecision.Grants, hdecision] at h)
        fun h ↦ h.2.1 hprohibited
    · rw [and_iff_right hsound, and_iff_right hprohibited]
      by_cases hcopy : CopySource file subject
      · have hevidence := (evidenceVerdict_eq_none_iff hof).2 hsound
        have hprohibition : prohibitionVerdict snapshot subject = none :=
          prohibitionVerdict_eq_none_iff.2 (hof.1 ▸ hprohibited)
        have hcopied : subject.kind = .copied ∧ subject.side = .old := hof.1 ▸ hcopy
        rw [verdict, hevidence, hprohibition, copySourceVerdict, if_pos hcopied]
        exact iff_of_true (.inl rfl) (.inl hcopy)
      · rw [or_iff_right hcopy, verdict_of_considered hof ⟨hsound, hprohibited, hcopy⟩]
        exact grants_classVerdict_iff
  · refine iff_of_false (fun h ↦ ?_) fun h ↦ hsound h.1
    obtain ⟨v, hv⟩ := Option.ne_none_iff_exists'.1 (mt (evidenceVerdict_eq_none_iff hof).1 hsound)
    simp [verdict, hv, evidenceVerdict_decision hv, ScopeDecision.Grants] at h

end Verdict

/-! ### Declaring more -/

def ScopePolicySnapshot.declare (snapshot : ScopePolicySnapshot)
    (contract : List ExpectedFileEntry) (allowedPaths : List ScopePathEntry)
    (prdContentHash snapshotHash : String) : ScopePolicySnapshot :=
  { snapshot with contract, allowedPaths, prdContentHash, snapshotHash }

section Declare

variable {snapshot : ScopePolicySnapshot} {evidence : ScopeEvidence} {files : List ChangedFile}
  {file : ChangedFile} {subject : Subject} {path : String} {contract : List ExpectedFileEntry}
  {allowedPaths : List ScopePathEntry} {prdContentHash snapshotHash : String}

theorem Expected.mono (hcontract : snapshot.contract ⊆ contract) (h : Expected snapshot path) :
    Expected (snapshot.declare contract allowedPaths prdContentHash snapshotHash) path := by
  obtain ⟨entry, hmem, hmatches⟩ := h
  exact ⟨entry, hcontract hmem, hmatches⟩

theorem Allowed.mono (hallowed : snapshot.allowedPaths ⊆ allowedPaths)
    (h : Allowed snapshot path) :
    Allowed (snapshot.declare contract allowedPaths prdContentHash snapshotHash) path := by
  obtain ⟨entry, hmem, hmatches⟩ := h
  exact ⟨entry, hallowed hmem, hmatches⟩

theorem Declared.mono (hcontract : snapshot.contract ⊆ contract)
    (hallowed : snapshot.allowedPaths ⊆ allowedPaths) (h : Declared snapshot path) :
    Declared (snapshot.declare contract allowedPaths prdContentHash snapshotHash) path := by
  obtain ⟨hexpected, hwithin⟩ | ⟨hwithin, hmode⟩ := h
  · exact .inl ⟨hexpected.mono hcontract, hwithin.imp_left (Allowed.mono hallowed)⟩
  · exact .inr ⟨hwithin.mono hallowed, hmode⟩

theorem isSome_declaredTestSurface_mono {entries : List ExpectedFileEntry}
    (hcontract : entries ⊆ contract) (h : (declaredTestSurface path entries).isSome) :
    (declaredTestSurface path contract).isSome := by
  rw [declaredTestSurface] at h ⊢
  split at h
  · exact h
  · split at h
    · rw [Option.isSome_map, List.find?_isSome] at h ⊢
      obtain ⟨entry, hmem, hstarts⟩ := h
      exact ⟨entry, hcontract hmem, hstarts⟩
    · exact h


theorem Covered.mono (hcontract : snapshot.contract ⊆ contract) (h : Covered snapshot path) :
    Covered (snapshot.declare contract allowedPaths prdContentHash snapshotHash) path :=
  ⟨h.1, isSome_declaredTestSurface_mono hcontract h.2⟩

theorem considered_declare_iff :
    Considered (snapshot.declare contract allowedPaths prdContentHash snapshotHash) evidence file
      subject ↔ Considered snapshot evidence file subject :=
  ⟨fun ⟨⟨h₁, h₂, h₃, h₄, h₅, h₆⟩, hprohibited, hcopy⟩ ↦
    ⟨⟨h₁, h₂, h₃, h₄, h₅, h₆⟩, hprohibited, hcopy⟩,
  fun ⟨⟨h₁, h₂, h₃, h₄, h₅, h₆⟩, hprohibited, hcopy⟩ ↦
    ⟨⟨h₁, h₂, h₃, h₄, h₅, h₆⟩, hprohibited, hcopy⟩⟩

/-- The entries of the contract stand in such a way that a path loses nothing by them. -/
structure WellPlaced (snapshot extended : ScopePolicySnapshot) (path : String) : Prop where
  exact_first : extended.fileClassPolicies.policy? (classify extended path).fileClass =
      some .humanReview →
    (∃ entry ∈ extended.contract, entry.matchKind = .exactFile ∧ entry.Matches path) →
    ∃ entry, FirstCovering extended.contract path entry ∧ entry.matchKind = .exactFile
  /-- A test that the declared part of its crate covers is declared where declarations count. -/
  within : extended.fileClassPolicies.test = .allowWhenExpected → Covered snapshot path →
    ¬Expected snapshot path → Expected extended path →
    Allowed extended path ∨ extended.allowPrdExpectedFileExpansion = true

theorem Granted.mono (hcontract : snapshot.contract ⊆ contract)
    (hallowed : snapshot.allowedPaths ⊆ allowedPaths)
    (hplaced : WellPlaced snapshot
      (snapshot.declare contract allowedPaths prdContentHash snapshotHash) path)
    (h : Granted snapshot evidence path) :
    Granted (snapshot.declare contract allowedPaths prdContentHash snapshotHash) evidence path := by
  rw [Granted] at h ⊢
  show match snapshot.fileClassPolicies.policy? (classify snapshot path).fileClass with
    | none | some .allow => _ | some .deny => _ | some .humanReview => _
    | some .allowWhenExpected => _ | some .allowWhenConfigured => _
  rcases hpolicy : snapshot.fileClassPolicies.policy? (classify snapshot path).fileClass with _ | policy
  · rw [hpolicy] at h
    exact h.mono hcontract hallowed
  rw [hpolicy] at h
  cases policy with
  | allow => exact h.mono hcontract hallowed
  | deny => exact h
  | humanReview =>
    refine h.imp_left fun ⟨entry, ⟨before, after, heq, hmatches, _⟩, hexact⟩ ↦ ?_
    have hmem : entry ∈ snapshot.contract := heq ▸ List.mem_append_right _ List.mem_cons_self
    exact hplaced.exact_first hpolicy ⟨entry, hcontract hmem, hexact, hmatches⟩
  | allowWhenExpected =>
    obtain ⟨hexpected, hdeclared⟩ | ⟨hunexpected, hcovered⟩ := h
    · exact .inl ⟨hexpected.mono hcontract, hdeclared.mono hcontract hallowed⟩
    · by_cases hexpected : Expected
        (snapshot.declare contract allowedPaths prdContentHash snapshotHash) path
      · -- the test is declared itself now, and is no longer asked for as a test of its crate
        have htest : snapshot.fileClassPolicies.test = .allowWhenExpected := by
          rw [hcovered.1] at hpolicy
          exact Option.some.inj hpolicy
        exact .inl ⟨hexpected,
          .inl ⟨hexpected, hplaced.within htest hcovered hunexpected hexpected⟩⟩
      · exact .inr ⟨hexpected, hcovered.mono hcontract⟩
  | allowWhenConfigured => exact ⟨h.1.mono hallowed, h.2.mono hcontract hallowed⟩

/-- What declaring more has to keep: no granted side is refused, and an exact declaration justifies
a path that a human would have to review. -/
structure KeepsAuthority (snapshot extended : ScopePolicySnapshot) (files : List ChangedFile)
    (evidence : ScopeEvidence) : Prop where
  keeps : ∀ file ∈ files, ∀ subject ∈ file.subjects,
    (evaluateSubject snapshot evidence subject).decision.Grants →
      (evaluateSubject extended evidence subject).decision.Grants
  justifies : ∀ file ∈ files, ∀ subject ∈ file.subjects,
    Considered extended evidence file subject →
    extended.fileClassPolicies.policy? (classify extended subject.path).fileClass =
      some .humanReview →
    (∃ entry ∈ extended.contract, entry.matchKind = .exactFile ∧ entry.Matches subject.path) →
      (evaluateSubject extended evidence subject).decision = .justifiedExpectedFileChange

theorem KeepsAuthority.wellPlaced
    (hkeeps : KeepsAuthority snapshot
      (snapshot.declare contract allowedPaths prdContentHash snapshotHash) files evidence)
    (hfile : file ∈ files) (hsubject : subject ∈ file.subjects)
    (hconsidered : Considered snapshot evidence file subject) :
    WellPlaced snapshot (snapshot.declare contract allowedPaths prdContentHash snapshotHash)
      subject.path := by
  have hof := Subject.of_mem_subjects hsubject
  constructor
  · intro hpolicy hexact
    have hextended : Considered
        (snapshot.declare contract allowedPaths prdContentHash snapshotHash) evidence file
        subject := considered_declare_iff.2 hconsidered
    have hverdict : (verdict (snapshot.declare contract allowedPaths prdContentHash snapshotHash)
        evidence subject).decision = .justifiedExpectedFileChange :=
      hkeeps.justifies file hfile subject hsubject hextended hpolicy hexact
    rw [verdict_of_considered hof hextended, classVerdict, hpolicy] at hverdict
    exact humanReviewVerdict_justified_iff.1 hverdict
  · intro htest hcovered hunexpected hexpected
    have hpolicy : snapshot.fileClassPolicies.policy? (classify snapshot subject.path).fileClass =
        some .allowWhenExpected := by
      rw [hcovered.1]
      exact congrArg some htest
    have hgranted : Granted snapshot evidence subject.path := by
      rw [Granted, hpolicy]
      exact .inr ⟨hunexpected, hcovered⟩
    have hgrants := hkeeps.keeps file hfile subject hsubject <| (grants_verdict_iff hof).2
      ⟨hconsidered.sound, hconsidered.not_prohibited, .inr hgranted⟩
    obtain ⟨-, -, hrest⟩ := (grants_verdict_iff hof).1 hgrants
    have hstill := hrest.resolve_left hconsidered.not_copySource
    rw [Granted] at hstill
    change match snapshot.fileClassPolicies.policy? (classify snapshot subject.path).fileClass with
      | none | some .allow => _ | some .deny => _ | some .humanReview => _
      | some .allowWhenExpected => _ | some .allowWhenConfigured => _ at hstill
    rw [hpolicy] at hstill
    obtain ⟨-, ⟨-, hwithin⟩ | ⟨hwithin, -⟩⟩ | ⟨hnot, -⟩ := hstill
    · exact hwithin
    · exact .inl hwithin
    · exact absurd hexpected hnot

theorem grants_declare (hcontract : snapshot.contract ⊆ contract)
    (hallowed : snapshot.allowedPaths ⊆ allowedPaths) (hof : subject.Of file)
    (hplaced : Considered snapshot evidence file subject → WellPlaced snapshot
      (snapshot.declare contract allowedPaths prdContentHash snapshotHash) subject.path)
    (hgrants : (evaluateSubject snapshot evidence subject).decision.Grants) :
    (evaluateSubject (snapshot.declare contract allowedPaths prdContentHash snapshotHash) evidence
      subject).decision.Grants := by
  obtain ⟨hsound, hprohibited, hrest⟩ := (grants_verdict_iff hof).1 hgrants
  have hsound' : SoundEvidence
      (snapshot.declare contract allowedPaths prdContentHash snapshotHash) evidence file
      subject.path :=
    ⟨hsound.valid, hsound.oldPath, hsound.not_typeChanged, hsound.not_unmerged,
      hsound.not_symlink, hsound.not_ambiguous⟩
  refine (grants_verdict_iff hof).2 ⟨hsound', hprohibited, ?_⟩
  by_cases hcopy : CopySource file subject
  · exact .inl hcopy
  · have hgranted := hrest.resolve_left hcopy
    exact .inr (hgranted.mono hcontract hallowed (hplaced ⟨hsound, hprohibited, hcopy⟩))

/-- **Declaring more** in the contract and in the configuration, in any order, takes no authority
away exactly if the entries are well placed for every side that is left to the policy of its class.
-/
theorem keepsAuthority_iff (hcontract : snapshot.contract ⊆ contract)
    (hallowed : snapshot.allowedPaths ⊆ allowedPaths) :
    KeepsAuthority snapshot (snapshot.declare contract allowedPaths prdContentHash snapshotHash)
        files evidence ↔
      ∀ file ∈ files, ∀ subject ∈ file.subjects, Considered snapshot evidence file subject →
        WellPlaced snapshot
          (snapshot.declare contract allowedPaths prdContentHash snapshotHash) subject.path := by
  constructor
  · intro hkeeps file hfile subject hsubject hconsidered
    exact hkeeps.wellPlaced hfile hsubject hconsidered
  · intro hplaced
    constructor
    · intro file hfile subject hsubject hgrants
      exact grants_declare hcontract hallowed (Subject.of_mem_subjects hsubject)
        (hplaced file hfile subject hsubject) hgrants
    · intro file hfile subject hsubject hconsidered hpolicy hexact
      have hfirst := (hplaced file hfile subject hsubject
        (considered_declare_iff.1 hconsidered)).exact_first hpolicy hexact
      show (verdict _ evidence subject).decision = _
      rw [verdict_of_considered (Subject.of_mem_subjects hsubject) hconsidered, classVerdict,
        hpolicy]
      exact humanReviewVerdict_justified_iff.2 hfirst

end Declare

namespace DeclaredManifest

def manifest : ExpectedFileEntry :=
  ⟨4, "- `crates/x/Cargo.toml`", "crates/x/Cargo.toml", .exactFile⟩

def crate : ExpectedFileEntry :=
  ⟨3, "- `crates/x/`", "crates/x/", .directory⟩

/-- A policy whose contract declares the manifest of a crate. -/
def snapshot : ScopePolicySnapshot :=
  { linkSnapshot with contract := [manifest], allowPrdExpectedFileExpansion := true }

/-- The manifest is changed, and adds a crate. -/
def files : List ChangedFile :=
  [⟨"crates/x/Cargo.toml", .modified, none, []⟩]

def evidence : ScopeEvidence :=
  ⟨[], ["serde"]⟩

/-- The policy with the directory of the crate declared as well. -/
def extended (contract : List ExpectedFileEntry) : ScopePolicySnapshot :=
  snapshot.declare contract [⟨"src/", .directory⟩] "" ""

end DeclaredManifest

open DeclaredManifest in
/-- Behind the manifest, the directory takes nothing away. -/
theorem keepsAuthority_manifest_first :
    KeepsAuthority snapshot (extended [manifest, crate]) files evidence := by
  refine (keepsAuthority_iff (by decide) (by decide)).2 fun file hfile subject hsubject _ ↦ ?_
  obtain rfl := List.mem_singleton.1 hfile
  obtain rfl := List.mem_singleton.1 hsubject
  have hmatches : manifest.Matches "crates/x/Cargo.toml" := by decide
  have hfirst : FirstCovering [manifest, crate] "crates/x/Cargo.toml" manifest :=
    ⟨[], [crate], rfl, hmatches, fun _ h ↦ absurd h List.not_mem_nil⟩
  exact ⟨fun _ _ ↦ ⟨manifest, hfirst, rfl⟩,
    fun _ _ hunexpected ↦ absurd ⟨manifest, List.mem_cons_self, hmatches⟩ hunexpected⟩

open DeclaredManifest in
/-- Before the manifest, it takes the approval of the plan away. -/
theorem not_keepsAuthority_directory_first :
    ¬∀ (snapshot : ScopePolicySnapshot) (contract : List ExpectedFileEntry)
      (allowedPaths : List ScopePathEntry) (prdContentHash snapshotHash : String)
      (files : List ChangedFile) (evidence : ScopeEvidence),
      snapshot.contract ⊆ contract → snapshot.allowedPaths ⊆ allowedPaths →
        KeepsAuthority snapshot
          (snapshot.declare contract allowedPaths prdContentHash snapshotHash) files evidence := by
  intro hall
  have hkeeps := (hall snapshot [crate, manifest] [⟨"src/", .directory⟩] "" "" files evidence
    (by decide) (by decide)).keeps _ List.mem_cons_self
      ⟨"modified:-:crates/x/Cargo.toml", .new, "crates/x/Cargo.toml", none, .modified⟩
      (by decide +kernel)
  exact absurd (hkeeps (by decide +kernel)) (by decide +kernel)

end FamiliarAi
