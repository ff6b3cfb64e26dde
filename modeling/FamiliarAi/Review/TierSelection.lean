import FamiliarAi.Review.Declarations

/-!
# What a cheap review takes

The tier of a review is selected from the findings of the scope evaluation, of which there is one
for each side of each change. So a tier below the full review is selected only if every change has
one side, and the policy grants all of them. A change that grows by a file meets no condition that
it did not meet before: what was left to the full review stays there, and otherwise the rule that is
selected comes no earlier among the rules of the operator.
-/

namespace FamiliarAi

open List

section Selection

variable {policy : ReviewTierPolicy} {declaredRiskClasses : List String}
  {snapshot : ScopePolicySnapshot} {evidence evidence' : ScopeEvidence}
  {files files' : List ChangedFile} {changedBytes changedBytes' : ℕ} {phase : String}
  {rule : ReviewTierRule} {α : Type} {file : ChangedFile} {p : α → Prop} {phase' : String}
  {as : List α}

def evaluatedTier (policy : ReviewTierPolicy) (declaredRiskClasses : List String)
    (snapshot : ScopePolicySnapshot) (evidence : ScopeEvidence) (files : List ChangedFile)
    (changedBytes : ℕ) (phase : String) : ReviewTierSelection :=
  selectReviewTier policy declaredRiskClasses files changedBytes
    (scopeCheckResult files (evaluateScope snapshot files evidence) snapshot phase)

theorem length_subjects_pos (file : ChangedFile) : 1 ≤ file.subjects.length := by
  rw [ChangedFile.subjects]
  split
  · split_ifs
    · exact Nat.le_add_left 1 1
    · exact le_rfl
  · exact le_rfl

theorem findings_perm : (evaluateScope snapshot files evidence).findings.Perm
    ((files.flatMap ChangedFile.subjects).map (evaluateSubject snapshot evidence)) :=
  perm_insertionSort _ _

theorem length_findings : (evaluateScope snapshot files evidence).findings.length =
    (files.map fun file ↦ file.subjects.length).sum := by
  rw [findings_perm.length_eq, length_map, length_flatMap]

theorem length_findings_eq_iff :
    (evaluateScope snapshot files evidence).findings.length = files.length ↔
      ∀ file ∈ files, file.subjects.length = 1 := by
  have hleast (files : List ChangedFile) :
      files.length ≤ (files.map fun file ↦ file.subjects.length).sum := by
    induction files with
    | nil => exact le_rfl
    | cons file files ih =>
      have hpos := length_subjects_pos file
      rw [map_cons, sum_cons, length_cons]
      omega
  rw [length_findings]
  induction files with
  | nil => exact iff_of_true rfl fun _ h ↦ absurd h not_mem_nil
  | cons file files ih =>
    have hpos := length_subjects_pos file
    have hrest := hleast files
    rw [forall_mem_cons, map_cons, sum_cons, length_cons]
    refine Iff.trans ?_ (and_congr_right' ih)
    omega

theorem mem_findings_iff {f : ScopeFinding} :
    f ∈ (evaluateScope snapshot files evidence).findings ↔
      ∃ file ∈ files, ∃ subject ∈ file.subjects, evaluateSubject snapshot evidence subject = f := by
  rw [findings_perm.mem_iff, List.mem_map]
  constructor
  · rintro ⟨subject, hsubject, rfl⟩
    obtain ⟨file, hfile, hsubject⟩ := mem_flatMap.1 hsubject
    exact ⟨file, hfile, subject, hsubject, rfl⟩
  · rintro ⟨file, hfile, subject, hsubject, rfl⟩
    exact ⟨subject, mem_flatMap.2 ⟨file, hfile, hsubject⟩, rfl⟩

/-! ### A harmless change -/

/-- The change is known, and so is each of its sides, as one of a harmless class that the policy
grants. -/
structure Harmless (snapshot : ScopePolicySnapshot) (evidence : ScopeEvidence)
    (files : List ChangedFile) : Prop where
  nonempty : files ≠ []
  single : ∀ file ∈ files, file.subjects.length = 1
  granted : ∀ file ∈ files, ∀ subject ∈ file.subjects,
    ¬(classify snapshot subject.path).fileClass.IsRisky ∧
      (evaluateSubject snapshot evidence subject).decision.Grants

/-- What is asked of the footprint before the rules. -/
theorem harmless_iff : Harmless snapshot evidence files ↔
    ¬(files = [] ∨ (evaluateScope snapshot files evidence).findings.length ≠ files.length ∨
      ∃ f ∈ (evaluateScope snapshot files evidence).findings,
        f.fileClass.IsRisky ∨ ¬f.decision.Grants) := by
  rw [not_or, not_or, not_not, length_findings_eq_iff]
  constructor
  · rintro ⟨hnonempty, hsingle, hgranted⟩
    refine ⟨hnonempty, hsingle, ?_⟩
    rintro ⟨f, hf, hrisk⟩
    obtain ⟨file, hfile, subject, hsubject, rfl⟩ := mem_findings_iff.1 hf
    obtain ⟨hclass, hgrants⟩ := hgranted file hfile subject hsubject
    exact hrisk.elim hclass fun hnot ↦ hnot hgrants
  · rintro ⟨hnonempty, hsingle, hnone⟩
    refine ⟨hnonempty, hsingle, fun file hfile subject hsubject ↦ ?_⟩
    have hf : evaluateSubject snapshot evidence subject ∈
        (evaluateScope snapshot files evidence).findings :=
      mem_findings_iff.2 ⟨file, hfile, subject, hsubject, rfl⟩
    exact ⟨fun hrisky ↦ hnone ⟨_, hf, .inl hrisky⟩, not_not.1 fun hnot ↦ hnone ⟨_, hf, .inr hnot⟩⟩

def ForcesFull (policy : ReviewTierPolicy) (declaredRiskClasses : List String) : Prop :=
  ∃ c ∈ declaredRiskClasses, c ∈ policy.fullReviewRiskClasses

def DeclaresBatch (policy : ReviewTierPolicy) (declaredRiskClasses : List String) : Prop :=
  ∃ c ∈ declaredRiskClasses, c ∈ policy.batchRiskClasses

/-- The footprint that the rules are asked about. -/
def evaluatedFootprint (snapshot : ScopePolicySnapshot) (evidence : ScopeEvidence)
    (files : List ChangedFile) (changedBytes : ℕ) (phase : String) : ReviewFootprint :=
  reviewFootprint files changedBytes
    (scopeCheckResult files (evaluateScope snapshot files evidence) snapshot phase)

def selectingRule (policy : ReviewTierPolicy) (snapshot : ScopePolicySnapshot)
    (evidence : ScopeEvidence) (files : List ChangedFile) (changedBytes : ℕ) (phase : String) :
    Option ReviewTierRule :=
  policy.rules.find? fun rule ↦
    rule.Covers files (evaluatedFootprint snapshot evidence files changedBytes phase)

theorem covers_of_selectingRule
    (h : selectingRule policy snapshot evidence files changedBytes phase = some rule) :
    rule.Covers files (evaluatedFootprint snapshot evidence files changedBytes phase) := by
  rw [selectingRule, find?_eq_some_iff_append] at h
  exact of_decide_eq_true h.1

theorem find?_eq_none_of_not_exists [DecidablePred p] (h : ¬∃ a ∈ as, p a) :
    as.find? (fun a ↦ decide (p a)) = none :=
  find?_eq_none.2 fun a ha hp ↦ h ⟨a, ha, of_decide_eq_true hp⟩

theorem exists_find?_eq_some [DecidablePred p] (h : ∃ a ∈ as, p a) :
    ∃ a, as.find? (fun a ↦ decide (p a)) = some a := by
  obtain ⟨a, ha, hp⟩ := h
  exact Option.isSome_iff_exists.1 (find?_isSome.2 ⟨a, ha, decide_eq_true hp⟩)

theorem tier_of_forcesFull (h : ForcesFull policy declaredRiskClasses) :
    (evaluatedTier policy declaredRiskClasses snapshot evidence files changedBytes phase).tier =
      .full := by
  obtain ⟨c, hc⟩ := exists_find?_eq_some h
  rw [evaluatedTier, selectReviewTier]
  simp only [hc]

theorem tier_of_not_harmless (h : ¬Harmless snapshot evidence files) :
    (evaluatedTier policy declaredRiskClasses snapshot evidence files changedBytes phase).tier =
      .full := by
  by_cases hfull : ForcesFull policy declaredRiskClasses
  · exact tier_of_forcesFull hfull
  · rw [harmless_iff, not_not] at h
    rw [evaluatedTier, selectReviewTier]
    simp only [find?_eq_none_of_not_exists hfull]
    exact congrArg ReviewTierSelection.tier (if_pos h)

theorem tier_of_declaresBatch (hfull : ¬ForcesFull policy declaredRiskClasses)
    (hharmless : Harmless snapshot evidence files)
    (hbatch : DeclaresBatch policy declaredRiskClasses) :
    (evaluatedTier policy declaredRiskClasses snapshot evidence files changedBytes phase).tier =
      .batch := by
  obtain ⟨c, hc⟩ := exists_find?_eq_some hbatch
  rw [evaluatedTier, selectReviewTier]
  simp only [find?_eq_none_of_not_exists hfull, hc]
  exact congrArg ReviewTierSelection.tier (if_neg (harmless_iff.1 hharmless))

theorem tier_of_rules (hfull : ¬ForcesFull policy declaredRiskClasses)
    (hharmless : Harmless snapshot evidence files)
    (hbatch : ¬DeclaresBatch policy declaredRiskClasses) :
    (evaluatedTier policy declaredRiskClasses snapshot evidence files changedBytes phase).tier =
      ((selectingRule policy snapshot evidence files changedBytes phase).map (·.tier)).getD
        .full := by
  rw [evaluatedTier, selectReviewTier]
  simp only [find?_eq_none_of_not_exists hfull, find?_eq_none_of_not_exists hbatch]
  refine (congrArg ReviewTierSelection.tier (if_neg (harmless_iff.1 hharmless))).trans ?_
  rcases hrule : selectingRule policy snapshot evidence files changedBytes phase with _ | rule
  · have hnone : (policy.rules.find? fun rule ↦ rule.Covers files (reviewFootprint files
      changedBytes (scopeCheckResult files (evaluateScope snapshot files evidence) snapshot
        phase))) = none := hrule
    simp only [hnone]
    rfl
  have hsome : (policy.rules.find? fun rule ↦ rule.Covers files (reviewFootprint files
    changedBytes (scopeCheckResult files (evaluateScope snapshot files evidence) snapshot
      phase))) = some rule := hrule
  simp only [hsome]
  rfl

/-- What was established of a change that is not left to the full review. -/
structure CheapReview (policy : ReviewTierPolicy) (declaredRiskClasses : List String)
    (snapshot : ScopePolicySnapshot) (evidence : ScopeEvidence) (files : List ChangedFile)
    (footprint : ReviewFootprint) (tier : ReviewTier) : Prop where
  contained : (evaluateScope snapshot files evidence).disposition = .contained
  granted : ∀ file ∈ files, ∀ path, file.Touches path →
    ∃ f ∈ (evaluateScope snapshot files evidence).findings, f.path = path ∧ f.decision.Grants ∧
      (f.fileClass = .ordinarySource ∨ f.fileClass = .test)
  not_renamed : ∀ file ∈ files, file.kind ≠ .renamed
  not_forced : ¬ForcesFull policy declaredRiskClasses
  listed : tier = .batch ∧ DeclaresBatch policy declaredRiskClasses ∨
    ∃ rule ∈ policy.rules, rule.tier = tier ∧ rule.Covers files footprint ∧
      (rule.scopeClasses = [] ∨ ∀ f ∈ (evaluateScope snapshot files evidence).findings,
        f.fileClass ∈ rule.scopeClasses)

theorem Harmless.contained (h : Harmless snapshot evidence files) :
    (evaluateScope snapshot files evidence).disposition = .contained := by
  refine scopeDisposition_eq_contained_iff.2 fun f hf ↦ ?_
  obtain ⟨file, hfile, subject, hsubject, rfl⟩ := mem_findings_iff.1 hf
  exact (h.granted file hfile subject hsubject).2

theorem Harmless.not_renamed (h : Harmless snapshot evidence files) (hfile : file ∈ files) :
    file.kind ≠ .renamed := by
  intro hkind
  rcases hold : file.oldPath with _ | oldPath
  · obtain ⟨subject, hsubject⟩ := exists_mem_of_length_pos (length_subjects_pos file)
    obtain ⟨hsound, -⟩ := (grants_verdict_iff (Subject.of_mem_subjects hsubject)).1
      (h.granted file hfile subject hsubject).2
    exact hsound.oldPath (.inl hkind) hold
  have htwo : file.subjects.length = 2 := by
    rw [ChangedFile.subjects]
    simp only [hold, hkind, true_or, if_true, length_cons, length_nil]
  rw [h.single file hfile] at htwo
  cases htwo

theorem mem_scopeClasses_iff {c : ScopeFileClass} :
    c ∈ (evaluatedFootprint snapshot evidence files changedBytes phase).scopeClasses ↔
      ∃ f ∈ (evaluateScope snapshot files evidence).findings, f.fileClass = c := by
  show c ∈ sortClasses _ ↔ _
  rw [sortClasses, (perm_insertionSort _ _).mem_iff, mem_dedup, List.mem_map]
  rfl

/-- **A tier below the full review** is selected for what it may be selected for. -/
theorem cheapReview (htier : (evaluatedTier policy declaredRiskClasses snapshot evidence files
      changedBytes phase).tier ≠ .full) :
    CheapReview policy declaredRiskClasses snapshot evidence files
      (evaluatedFootprint snapshot evidence files changedBytes phase)
      (evaluatedTier policy declaredRiskClasses snapshot evidence files changedBytes
        phase).tier := by
  have hfull : ¬ForcesFull policy declaredRiskClasses := fun h ↦ htier (tier_of_forcesFull h)
  have hharmless : Harmless snapshot evidence files :=
    by_contra fun h ↦ htier (tier_of_not_harmless h)
  refine ⟨hharmless.contained, fun file hfile path htouches ↦ ?_,
    fun file hfile ↦ hharmless.not_renamed hfile, hfull, ?_⟩
  · obtain ⟨subject, hsubject, rfl, -⟩ := exists_subject_of_touches htouches
    obtain ⟨hclass, hgrants⟩ := hharmless.granted file hfile subject hsubject
    refine ⟨_, evaluateSubject_mem_findings hfile hsubject, rfl, hgrants, ?_⟩
    have hkinds := not_and_or.1 hclass
    exact hkinds.imp not_not.1 not_not.1
  · by_cases hbatch : DeclaresBatch policy declaredRiskClasses
    · exact .inl ⟨tier_of_declaresBatch hfull hharmless hbatch, hbatch⟩
    · have hrules := @tier_of_rules policy declaredRiskClasses snapshot evidence files changedBytes
        phase hfull hharmless hbatch
      rw [hrules] at htier ⊢
      rcases hrule : selectingRule policy snapshot evidence files changedBytes phase with _ | rule
      · rw [hrule] at htier
        exact absurd rfl htier
      have hcovers := covers_of_selectingRule hrule
      refine .inr ⟨rule, mem_of_find?_eq_some hrule, rfl, hcovers, hcovers.2.2.2.2.imp_right ?_⟩
      exact fun hall f hf ↦ hall _ (mem_scopeClasses_iff.2 ⟨f, hf, rfl⟩)

/-! ### A further file -/

theorem Granted.of_harmless {path : String} (hclass : ¬(classify snapshot path).fileClass.IsRisky)
    (h : Granted snapshot evidence' path) : Granted snapshot evidence path := by
  have hdependency : ¬(classify snapshot path).fileClass.IsDependency := by
    rintro (hmanifest | hlockfile)
    · exact hclass (by rw [hmanifest]; decide)
    · exact hclass (by rw [hlockfile]; decide)
  rw [Granted] at h ⊢
  split at h
  · exact h
  · exact h
  · exact h
  · exact .inl (h.resolve_right fun hadds ↦ hdependency hadds.1)
  · exact h
  · exact h

theorem Harmless.of_subset (h : Harmless snapshot evidence' files') (hfiles : files ⊆ files')
    (hnonempty : files ≠ []) (hlinks : evidence.symlinkPaths ⊆ evidence'.symlinkPaths) :
    Harmless snapshot evidence files where
  nonempty := hnonempty
  single := fun file hfile ↦ h.single file (hfiles hfile)
  granted := fun file hfile subject hsubject ↦ by
    obtain ⟨hclass, hgrants⟩ := h.granted file (hfiles hfile) subject hsubject
    have hof := Subject.of_mem_subjects hsubject
    obtain ⟨hsound, hprohibited, hrest⟩ := (grants_verdict_iff hof).1 hgrants
    have hsound' : SoundEvidence snapshot evidence file subject.path :=
      ⟨hsound.valid, hsound.oldPath, hsound.not_typeChanged, hsound.not_unmerged,
        fun hlink ↦ hsound.not_symlink (hlinks hlink), hsound.not_ambiguous⟩
    exact ⟨hclass, (grants_verdict_iff hof).2
      ⟨hsound', hprohibited, hrest.imp_right (Granted.of_harmless hclass)⟩⟩

theorem ReviewTierRule.Covers.of_subset
    (h : rule.Covers files' (evaluatedFootprint snapshot evidence' files' changedBytes' phase'))
    (hfiles : files ⊆ files') (hlength : files.length ≤ files'.length)
    (hbytes : changedBytes ≤ changedBytes') :
    rule.Covers files (evaluatedFootprint snapshot evidence files changedBytes phase) := by
  obtain ⟨hcount, hsize, hpaths, hkinds, hclasses⟩ := h
  refine ⟨fun max hmax ↦ hlength.trans (hcount max hmax), fun max hmax ↦
    hbytes.trans (hsize max hmax), hpaths.imp_right fun hall file hfile ↦ hall file (hfiles hfile),
    hkinds.imp_right fun hall file hfile ↦ hall file (hfiles hfile),
    hclasses.imp_right fun hall c hc ↦ hall c ?_⟩
  obtain ⟨f, hf, rfl⟩ := mem_scopeClasses_iff.1 hc
  obtain ⟨file, hfile, subject, hsubject, rfl⟩ := mem_findings_iff.1 hf
  exact mem_scopeClasses_iff.2
    ⟨_, mem_findings_iff.2 ⟨file, hfiles hfile, subject, hsubject, rfl⟩, rfl⟩

def ReviewTier.rank (tier : ReviewTier) : ℕ :=
  tier.ctorIdx

theorem ReviewTier.rank_le_full (tier : ReviewTier) : tier.rank ≤ ReviewTier.full.rank := by
  cases tier <;> decide

/-- Where less is asked for, the first element found is none of the later ones. -/
theorem exists_find?_of_imp {r : α → α → Prop} {p q : α → Bool} {b : α} (hordered : as.Pairwise r)
    (hrefl : ∀ a, r a a) (himp : ∀ a, q a = true → p a = true) (hq : as.find? q = some b) :
    ∃ a, as.find? p = some a ∧ r a b := by
  induction as with
  | nil => cases hq
  | cons a as ih =>
    obtain ⟨hfirst, hrest⟩ := pairwise_cons.1 hordered
    by_cases hp : p a = true
    · refine ⟨a, find?_cons_of_pos hp, ?_⟩
      rcases mem_cons.1 (mem_of_find?_eq_some hq) with rfl | hmem
      · exact hrefl b
      · exact hfirst b hmem
    · have hqa : ¬q a = true := fun hqa ↦ hp (himp a hqa)
      rw [find?_cons_of_neg hqa] at hq
      obtain ⟨c, hc, hr⟩ := ih hrest hq
      exact ⟨c, by rw [find?_cons_of_neg hp]; exact hc, hr⟩

/-- **A further file** in a change that is not empty, with the links and the bytes that it adds,
leaves to the full review what no rule selected, and lowers no tier where the rules are in the order
of their tiers. -/
theorem tier_of_perm_cons (hfiles : files'.Perm (file :: files)) (hnonempty : files ≠ [])
    (hbytes : changedBytes ≤ changedBytes')
    (hlinks : evidence.symlinkPaths ⊆ evidence'.symlinkPaths) :
    let tier := (evaluatedTier policy declaredRiskClasses snapshot evidence files changedBytes
      phase).tier
    let tier' := (evaluatedTier policy declaredRiskClasses snapshot evidence' files' changedBytes'
      phase').tier
    (selectingRule policy snapshot evidence files changedBytes phase = none → tier = .full →
      tier' = .full) ∧
    ((policy.rules.Pairwise fun a b ↦ a.tier.rank ≤ b.tier.rank) → tier.rank ≤ tier'.rank) := by
  intro tier tier'
  have hsubset : files ⊆ files' := fun f hf ↦ hfiles.mem_iff.2 (mem_cons_of_mem _ hf)
  have hlength : files.length ≤ files'.length := by
    rw [hfiles.length_eq, length_cons]
    omega
  by_cases hfull : ForcesFull policy declaredRiskClasses
  · have htier' : tier' = .full := tier_of_forcesFull hfull
    exact ⟨fun _ _ ↦ htier', fun _ ↦ htier' ▸ tier.rank_le_full⟩
  by_cases hharmless' : Harmless snapshot evidence' files'
  swap
  · have htier' : tier' = .full := tier_of_not_harmless hharmless'
    exact ⟨fun _ _ ↦ htier', fun _ ↦ htier' ▸ tier.rank_le_full⟩
  have hharmless : Harmless snapshot evidence files :=
    hharmless'.of_subset hsubset hnonempty hlinks
  by_cases hbatch : DeclaresBatch policy declaredRiskClasses
  · have htier : tier = .batch := tier_of_declaresBatch hfull hharmless hbatch
    have htier' : tier' = .batch := tier_of_declaresBatch hfull hharmless' hbatch
    exact ⟨fun _ hstays ↦ absurd (htier.symm.trans hstays) (by decide),
      fun _ ↦ (htier.trans htier'.symm) ▸ le_rfl⟩
  have htier : tier = _ := tier_of_rules hfull hharmless hbatch
  have htier' : tier' = _ := tier_of_rules hfull hharmless' hbatch
  rcases hrule' : selectingRule policy snapshot evidence' files' changedBytes' phase' with _ | rule'
  · rw [hrule'] at htier'
    exact ⟨fun _ _ ↦ htier', fun _ ↦ htier' ▸ tier.rank_le_full⟩
  rw [hrule'] at htier'
  -- every rule that covers the larger change covers the smaller one
  have himp : ∀ rule : ReviewTierRule,
      decide (rule.Covers files' (evaluatedFootprint snapshot evidence' files' changedBytes'
        phase')) = true →
      decide (rule.Covers files (evaluatedFootprint snapshot evidence files changedBytes
        phase)) = true := fun rule hcovers ↦
    decide_eq_true ((of_decide_eq_true hcovers).of_subset hsubset hlength hbytes)
  constructor
  · intro hnone
    obtain ⟨rule, hrule, -⟩ := exists_find?_of_imp (r := fun _ _ ↦ True)
      (pairwise_of_forall fun _ _ ↦ trivial) (fun _ ↦ trivial) himp hrule'
    cases hnone.symm.trans hrule
  · intro hordered
    obtain ⟨rule, hrule, hrank⟩ :=
      exists_find?_of_imp hordered (fun _ ↦ le_rfl) himp hrule'
    have hselected : selectingRule policy snapshot evidence files changedBytes phase =
        some rule := hrule
    rw [hselected] at htier
    rw [htier, htier']
    exact hrank

/-- **The tier of a review** below the full one says of the change that it is contained, that all it
touches is granted as a source or a test, and that it renames nothing. Adding a file to a change
lowers no tier where the rules are in the order of their tiers. -/
theorem evaluatedTier_cheap_and_grows :
    ((evaluatedTier policy declaredRiskClasses snapshot evidence files changedBytes phase).tier ≠
        .full →
      CheapReview policy declaredRiskClasses snapshot evidence files
        (evaluatedFootprint snapshot evidence files changedBytes phase)
        (evaluatedTier policy declaredRiskClasses snapshot evidence files changedBytes
          phase).tier) ∧
    ∀ (file : ChangedFile) (files' : List ChangedFile) (evidence' : ScopeEvidence)
      (changedBytes' : ℕ) (phase' : String), files'.Perm (file :: files) → files ≠ [] →
      changedBytes ≤ changedBytes' → evidence.symlinkPaths ⊆ evidence'.symlinkPaths →
      let tier := (evaluatedTier policy declaredRiskClasses snapshot evidence files changedBytes
        phase).tier
      let tier' := (evaluatedTier policy declaredRiskClasses snapshot evidence' files'
        changedBytes' phase').tier
      (selectingRule policy snapshot evidence files changedBytes phase = none → tier = .full →
        tier' = .full) ∧
      ((policy.rules.Pairwise fun a b ↦ a.tier.rank ≤ b.tier.rank) → tier.rank ≤ tier'.rank) :=
  ⟨cheapReview, fun _ _ _ _ _ hfiles hnonempty hbytes hlinks ↦
    tier_of_perm_cons hfiles hnonempty hbytes hlinks⟩

end Selection

namespace TwoSources

def first : ChangedFile :=
  ⟨"src/a.rs", .modified, none, []⟩

def second : ChangedFile :=
  ⟨"src/b.rs", .modified, none, []⟩

def evidence : ScopeEvidence :=
  ⟨[], []⟩

/-- A single file needs the tier; all others need checks only. -/
def policy (tier : ReviewTier) : ReviewTierPolicy :=
  ⟨[], [], [⟨"single", tier, [], some 1, none, [], []⟩,
    ⟨"other", .checksOnly, [], none, none, [], []⟩]⟩

end TwoSources

open TwoSources in
theorem evaluatedTier_two_sources :
    CheapReview (policy .checksOnly) [] linkSnapshot evidence [first]
        (evaluatedFootprint linkSnapshot evidence [first] 10 "preflight") .checksOnly ∧
      (evaluatedTier (policy .checksOnly) [] linkSnapshot evidence [first] 10
        "preflight").tier.rank ≤
        (evaluatedTier (policy .checksOnly) [] linkSnapshot evidence [first, second] 20
          "preflight").tier.rank := by
  have htier : (evaluatedTier (policy .checksOnly) [] linkSnapshot evidence [first] 10
      "preflight").tier = .checksOnly := by
    decide +kernel
  have hboth := @evaluatedTier_cheap_and_grows (policy .checksOnly) [] linkSnapshot evidence [first]
    10 "preflight"
  refine ⟨htier ▸ hboth.1 (by rw [htier]; decide), ?_⟩
  exact (hboth.2 second [first, second] evidence 20 "preflight" (Perm.swap _ _ _)
    (cons_ne_nil _ _) (by decide) (Subset.refl _)).2 (by decide)

open TwoSources in
/-- A further file may leave the rule that asks for more, and the first file of a change is less
than the unknown that it is without any. -/
theorem not_tier_never_lower :
    (¬∀ (policy : ReviewTierPolicy) (snapshot : ScopePolicySnapshot) (evidence : ScopeEvidence)
      (files : List ChangedFile) (file : ChangedFile) (changedBytes : ℕ) (phase : String),
      files ≠ [] →
      (evaluatedTier policy [] snapshot evidence files changedBytes phase).tier.rank ≤
        (evaluatedTier policy [] snapshot evidence (file :: files) changedBytes phase).tier.rank) ∧
    ¬∀ (policy : ReviewTierPolicy) (snapshot : ScopePolicySnapshot) (evidence : ScopeEvidence)
      (file : ChangedFile) (changedBytes : ℕ) (phase : String),
      (evaluatedTier policy [] snapshot evidence [] changedBytes phase).tier.rank ≤
        (evaluatedTier policy [] snapshot evidence [file] changedBytes phase).tier.rank := by
  constructor
  · intro hall
    have hle := hall (policy .standard) linkSnapshot evidence [second] first 10 "preflight"
      (cons_ne_nil _ _)
    exact absurd hle (by decide +kernel)
  · intro hall
    have hle := hall (policy .standard) linkSnapshot evidence first 10 "preflight"
    exact absurd hle (by decide +kernel)

end FamiliarAi
