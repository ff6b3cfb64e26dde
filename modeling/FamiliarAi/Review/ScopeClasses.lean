import FamiliarAi.Review.Scope

/-!
# What a compiled scope policy determines

The compiler of the scope policy rejects contradictory rules, so that the classification of a path
depends neither on the order of the rules nor on a choice between rules that stand equal. Entries
that cover one path and are equally long are one entry (`eq_of_matches`), so rules that stand equal
have one entry, and two such rules of different classes are compared by the compiler.

The compiler compares the precedences as they are written. The classification reads no precedence as
zero, and what compares differently there still stands equal here (`Unwritten`). A policy without
such a pair determines every class, and only such a policy does (`compiled_determined_iff`).
-/

namespace FamiliarAi

open Text List

variable {snapshot : ScopePolicySnapshot}

section Lists

variable {α : Type} {as : List α}

/-- No element stands in the relation to a later one. -/
theorem firstPair_eq_none {p : α → α → Bool} (h : firstPair p as = none) :
    as.Pairwise fun a b ↦ p a b = false := by
  induction as with
  | nil => exact .nil
  | cons a as ih =>
    rw [firstPair] at h
    rcases hfind : as.find? (p a) with _ | b
    · rw [hfind] at h
      exact .cons (fun b hb ↦ Bool.eq_false_iff.2 (find?_eq_none.1 hfind b hb)) (ih h)
    rw [hfind] at h
    cases h

theorem exists_maxByKey (key : α → ℕ) (h : as ≠ []) :
    ∃ b ∈ as, maxByKey key as = some b ∧ ∀ a ∈ as, key a ≤ key b := by
  induction as with
  | nil => exact absurd rfl h
  | cons a as ih =>
    rcases has : as with _ | ⟨a', as'⟩
    · exact ⟨a, mem_cons_self, rfl, by simp⟩
    rw [← has]
    obtain ⟨b, hb, hmax, hle⟩ := ih (by rw [has]; exact cons_ne_nil _ _)
    rw [maxByKey, hmax]
    dsimp only
    split_ifs with hlt
    · refine ⟨a, mem_cons_self, rfl, fun c hc ↦ ?_⟩
      rcases mem_cons.1 hc with rfl | hc
      · exact le_rfl
      · exact (hle c hc).trans hlt.le
    · refine ⟨b, mem_cons_of_mem _ hb, rfl, fun c hc ↦ ?_⟩
      rcases mem_cons.1 hc with rfl | hc
      · exact Nat.not_lt.1 hlt
      · exact hle c hc

end Lists

def ScopePathEntry.specificity (entry : ScopePathEntry) : ℕ :=
  entry.normalized.utf8ByteSize

section Entries

variable {entry entry' : ScopePathEntry} {path : String} {s t : String}

theorem eq_of_startsWith (h : StartsWith s t) (hsize : s.utf8ByteSize = t.utf8ByteSize) :
    s = t := by
  obtain ⟨rest, hrest⟩ := h
  rw [← byteSize_toList, ← byteSize_toList, ← hrest, byteSize_append, Nat.add_eq_left] at hsize
  rcases rest with _ | ⟨c, rest⟩
  · rw [← String.toList_inj, ← hrest, append_nil]
  rw [byteSize_cons] at hsize
  have := c.utf8Size_pos
  omega

theorem utf8ByteSize_le_of_startsWith (h : StartsWith s t) :
    t.utf8ByteSize ≤ s.utf8ByteSize := by
  obtain ⟨rest, hrest⟩ := h
  rw [← byteSize_toList, ← byteSize_toList, ← hrest, byteSize_append]
  exact Nat.le_add_right _ _

/-- **Of two entries that cover one path, the one is the path or a directory above the other.** -/
theorem matches_or_matches (h : entry.Matches path) (h' : entry'.Matches path) :
    entry = entry' ∨ entry.Matches entry'.normalized ∧ entry.specificity < entry'.specificity ∨
      entry'.Matches entry.normalized ∧ entry'.specificity < entry.specificity := by
  obtain ⟨normalized, matchKind⟩ := entry
  obtain ⟨normalized', matchKind'⟩ := entry'
  cases matchKind with
  | exactFile =>
    obtain rfl : path = normalized := h
    cases matchKind' with
    | exactFile =>
      obtain rfl : path = normalized' := h'
      exact .inl rfl
    | directory => exact .inr (.inr ⟨h', h'.2⟩)
  | directory =>
    cases matchKind' with
    | exactFile =>
      obtain rfl : path = normalized' := h'
      exact .inr (.inl ⟨h, h.2⟩)
    | directory =>
      rcases startsWith_or_startsWith h.1 h'.1 with hstarts | hstarts
      · rcases (utf8ByteSize_le_of_startsWith hstarts).eq_or_lt with hsize | hsize
        · have heq : normalized = normalized' := eq_of_startsWith hstarts hsize.symm
          exact .inl (by rw [heq])
        · exact .inr (.inr ⟨⟨hstarts, hsize⟩, hsize⟩)
      · rcases (utf8ByteSize_le_of_startsWith hstarts).eq_or_lt with hsize | hsize
        · have heq : normalized' = normalized := eq_of_startsWith hstarts hsize.symm
          exact .inl (by rw [heq])
        · exact .inr (.inl ⟨⟨hstarts, hsize⟩, hsize⟩)

theorem eq_of_matches (h : entry.Matches path) (h' : entry'.Matches path)
    (hspecificity : entry.specificity = entry'.specificity) : entry = entry' := by
  rcases matches_or_matches h h' with rfl | ⟨-, hlt⟩ | ⟨-, hlt⟩
  · rfl
  · exact absurd hspecificity hlt.ne
  · exact absurd hspecificity hlt.ne'

theorem exists_matches (entry : ScopePathEntry) : ∃ path, entry.Matches path := by
  obtain ⟨normalized, matchKind⟩ := entry
  cases matchKind with
  | exactFile => exact ⟨normalized, rfl⟩
  | directory =>
    refine ⟨normalized ++ "x", ?_, ?_⟩
    · exact ⟨_, String.toList_append.symm⟩
    · rw [String.utf8ByteSize_append]
      exact Nat.lt_add_of_pos_right (by decide)

end Entries

def ScopeClassificationRule.effectivePrecedence (rule : ScopeClassificationRule) : ℕ :=
  rule.precedence.getD 0

section Classes

variable {configured configured' : List ScopeClassificationRule}
  {rule rule' : ScopeClassificationRule}

theorem eq_of_length_dedup {classes : List ScopeFileClass} (h : classes.dedup.length = 1)
    {c c' : ScopeFileClass} (hc : c ∈ classes) (hc' : c' ∈ classes) : c = c' := by
  obtain ⟨d, hd⟩ := length_eq_one_iff.1 h
  have hmem (c : ScopeFileClass) (hc : c ∈ classes) : c = d := by
    rw [← mem_dedup, hd] at hc
    exact mem_singleton.1 hc
  rw [hmem c hc, hmem c' hc']

theorem length_sortClasses (classes : List ScopeFileClass) :
    (sortClasses classes).length = classes.dedup.length :=
  length_insertionSort _ _

def classesLevelWith (configured : List ScopeClassificationRule) (best : ScopeClassificationRule) :
    List ScopeFileClass :=
  (configured.filter fun rule ↦ decide (rule.effectivePrecedence = best.effectivePrecedence)).map
    (·.fileClass)

theorem classifyConfigured_fileClass
    (hclasses : ¬(configured.map (·.fileClass)).dedup.length = 1) (hrule : rule ∈ configured) :
    ∃ best ∈ configured,
      (∀ other ∈ configured, other.effectivePrecedence ≤ best.effectivePrecedence) ∧
      (classifyConfigured configured rule).fileClass =
        if (classesLevelWith configured best).dedup.length = 1 then best.fileClass
        else .ambiguous := by
  obtain ⟨best, hbest, hmax, hle⟩ := exists_maxByKey
    ScopeClassificationRule.effectivePrecedence (ne_nil_of_mem hrule)
  refine ⟨best, hbest, hle, ?_⟩
  have hget : (maxByKey (fun rule ↦ rule.precedence.getD 0) configured).getD rule = best :=
    congrArg (Option.getD · rule) hmax
  rw [classifyConfigured, if_neg hclasses]
  dsimp only
  rw [hget, length_sortClasses]
  rw [apply_ite Classified.fileClass]
  rfl

/-- **The class does not depend on the order of the rules**, nor on which of them is looked at
first. -/
theorem classifyConfigured_perm (h : configured.Perm configured') (hrule : rule ∈ configured)
    (hrule' : rule' ∈ configured') :
    (classifyConfigured configured rule).fileClass =
      (classifyConfigured configured' rule').fileClass := by
  have hlength : (configured.map (·.fileClass)).dedup.length =
      (configured'.map (·.fileClass)).dedup.length := (h.map _).dedup.length_eq
  by_cases hone : (configured.map (·.fileClass)).dedup.length = 1
  · rw [classifyConfigured, classifyConfigured, if_pos hone, if_pos (hlength ▸ hone)]
    exact eq_of_length_dedup hone (mem_map_of_mem hrule)
      ((h.map _).symm.subset (mem_map_of_mem hrule'))
  · obtain ⟨best, hbest, hle, hclass⟩ := classifyConfigured_fileClass hone hrule
    obtain ⟨best', hbest', hle', hclass'⟩ := classifyConfigured_fileClass (hlength ▸ hone) hrule'
    have htop : best.effectivePrecedence = best'.effectivePrecedence :=
      le_antisymm (hle' best (h.subset hbest)) (hle best' (h.symm.subset hbest'))
    have hlevel : (classesLevelWith configured best).Perm (classesLevelWith configured' best') := by
      rw [classesLevelWith, classesLevelWith, htop]
      exact (h.filter _).map _
    rw [hclass, hclass', ← hlevel.dedup.length_eq]
    split_ifs with hunique
    · refine eq_of_length_dedup hunique (mem_map_of_mem (mem_filter.2 ⟨hbest, ?_⟩))
        (hlevel.symm.subset (mem_map_of_mem (mem_filter.2 ⟨hbest', ?_⟩)))
      · exact decide_eq_true rfl
      · exact decide_eq_true rfl
    · rfl

end Classes

/-! ### The compiled policy -/

/-- What the classification of a path does not depend on, and what it is decided by. -/
structure ScopePolicySnapshot.Determined (snapshot : ScopePolicySnapshot) : Prop where
  /-- The order of the rules does not matter. -/
  classes : ∀ rules, rules.Perm snapshot.classificationRules → ∀ path,
    (classify { snapshot with classificationRules := rules } path).fileClass =
      (classify snapshot path).fileClass
  ties : ∀ path, ∀ first ∈ snapshot.classificationRules, ∀ second ∈ snapshot.classificationRules,
    first.entry.Matches path → second.entry.Matches path →
      first.entry.specificity = second.entry.specificity →
        first.effectivePrecedence = second.effectivePrecedence → first.fileClass = second.fileClass
  allowed : ∀ path, ∀ entry ∈ snapshot.allowedPaths, ∀ entry' ∈ snapshot.allowedPaths,
    entry.Matches path → entry'.Matches path → entry = entry'

/-- Rules of one entry and different classes, one without a precedence and the other with the one
that is read for it. -/
def ScopePolicyInput.Unwritten (input : ScopePolicyInput) : Prop :=
  ∃ first ∈ input.classificationRules, ∃ second ∈ input.classificationRules,
    first.entry = second.entry ∧ first.precedence = none ∧ second.precedence = some 0 ∧
      first.fileClass ≠ second.fileClass

instance ScopePolicyInput.decidableUnwritten (input : ScopePolicyInput) :
    Decidable input.Unwritten :=
  inferInstanceAs (Decidable (∃ _ ∈ _, ∃ _ ∈ _, _))

/-- What the compiler has checked. -/
structure Compiled (input : ScopePolicyInput) (snapshot : ScopePolicySnapshot) : Prop where
  distinct : (snapshot.allowedPaths.map (·.normalized)).Nodup
  unshadowed : shadowed snapshot.allowedPaths = none
  rules : snapshot.classificationRules.Perm input.classificationRules
  unconflicting : snapshot.classificationRules.Pairwise fun first second ↦
    second.entry = first.entry → second.fileClass ≠ first.fileClass →
      second.precedence ≠ first.precedence

theorem nodup_of_compileAllowedPaths {values : List String}
    {allowed allowed' : List ScopePathEntry} (hnodup : (allowed.map (·.normalized)).Nodup)
    (h : compileAllowedPaths values allowed = .ok allowed') :
    (allowed'.map (·.normalized)).Nodup := by
  induction values generalizing allowed with
  | nil =>
    cases h
    exact hnodup
  | cons value values ih =>
    rw [compileAllowedPaths] at h
    rcases hread : normalizeScopePath value with rule | entry
    · rw [hread] at h
      cases h
    obtain ⟨normalized, matchKind⟩ := entry
    rw [hread] at h
    obtain ⟨hnew, h⟩ := Except.ite_error_eq_ok.1 h
    refine ih ?_ h
    rw [map_append, nodup_append]
    refine ⟨hnodup, nodup_singleton _, fun name hname name' hname' heq ↦ hnew ?_⟩
    obtain ⟨entry, hentry, rfl⟩ := mem_map.1 hname
    exact any_eq_true.2 ⟨entry, hentry, decide_eq_true (heq.trans (mem_singleton.1 hname'))⟩

theorem compiled_of_eq_ok {sha256 : Sha256} {input : ScopePolicyInput}
    (h : compileScopePolicy sha256 input = .ok snapshot) :
    Compiled input snapshot := by
  rw [compileScopePolicy] at h
  obtain ⟨allowed, hallowed, h⟩ := Except.bind_eq_ok.1 h
  dsimp only at h
  cases hshadowed : shadowed (allowed.insertionSort fun a b ↦ a.normalized ≤ b.normalized) with
  | some pair =>
    rw [hshadowed] at h
    cases h
  | none =>
    rw [hshadowed] at h
    dsimp only at h
    obtain ⟨-, h⟩ := Except.ite_throw_eq_ok.1 h
    cases hrepeated : firstRepeated
        (input.prohibitedRules.map (·.ruleId) ++ input.classificationRules.map (·.ruleId)) [] with
    | some ruleId =>
      rw [hrepeated] at h
      cases h
    | none =>
      rw [hrepeated] at h
      dsimp only at h
      split at h
      · cases h
      · split at h
        · cases h
        · rename_i hconflict
          cases h
          refine ⟨?_, hshadowed, perm_insertionSort _ _, ?_⟩
          · exact ((perm_insertionSort _ _).map _).nodup_iff.2
              (nodup_of_compileAllowedPaths (by simp) hallowed)
          · have hnone := Option.eq_none_iff_forall_ne_some.2
              fun pair : ScopeClassificationRule × _ ↦ hconflict pair.1 pair.2
            refine (firstPair_eq_none hnone).imp fun hpair hentry hclass hprecedence ↦ ?_
            exact of_decide_eq_false hpair ⟨hentry, hclass, hprecedence⟩

section Compiled

variable {input : ScopePolicyInput} {snapshot : ScopePolicySnapshot}

theorem not_matches_of_shadowed {allowed : List ScopePathEntry} (h : shadowed allowed = none)
    {outer inner : ScopePathEntry} (houter : outer ∈ allowed) (hinner : inner ∈ allowed)
    (hne : inner.normalized ≠ outer.normalized) : ¬outer.Matches inner.normalized := by
  intro hmatches
  have hnone := findSome?_eq_none_iff.1 h outer houter
  obtain ⟨normalized, matchKind⟩ := outer
  cases matchKind with
  | exactFile => exact hne hmatches
  | directory =>
    rw [if_pos rfl, Option.map_eq_none_iff, find?_eq_none] at hnone
    exact hnone inner hinner (decide_eq_true ⟨hne, hmatches⟩)

theorem Compiled.allowed (h : Compiled input snapshot) {path : String}
    {entry entry' : ScopePathEntry}
    (hentry : entry ∈ snapshot.allowedPaths) (hentry' : entry' ∈ snapshot.allowedPaths)
    (hmatches : entry.Matches path) (hmatches' : entry'.Matches path) : entry = entry' := by
  rcases matches_or_matches hmatches hmatches' with heq | ⟨habove, hlt⟩ | ⟨habove, hlt⟩
  · exact heq
  · refine absurd habove (not_matches_of_shadowed h.unshadowed hentry hentry' ?_)
    intro heq
    exact hlt.ne (congrArg String.utf8ByteSize heq.symm)
  · refine absurd habove (not_matches_of_shadowed h.unshadowed hentry' hentry ?_)
    intro heq
    exact hlt.ne (congrArg String.utf8ByteSize heq.symm)

theorem Compiled.precedence_ne (h : Compiled input snapshot)
    {first second : ScopeClassificationRule} (hfirst : first ∈ snapshot.classificationRules)
    (hsecond : second ∈ snapshot.classificationRules) (hentry : first.entry = second.entry)
    (hclass : first.fileClass ≠ second.fileClass) :
    first.precedence ≠ second.precedence := by
  have hsymm : Std.Symm fun first second : ScopeClassificationRule ↦
      second.entry = first.entry → second.fileClass ≠ first.fileClass →
        second.precedence ≠ first.precedence :=
    ⟨fun _ _ hpair hentry hclass ↦ (hpair hentry.symm hclass.symm).symm⟩
  have hne : second ≠ first := fun heq ↦ hclass (congrArg _ heq.symm)
  exact h.unconflicting.forall hsecond hfirst hne hentry hclass

/-- **Rules of different classes that stand equal are of one entry, one of them without a precedence
and the other with the one that is read for it.** -/
theorem Compiled.ties_iff (h : Compiled input snapshot) :
    (∀ path, ∀ first ∈ snapshot.classificationRules, ∀ second ∈ snapshot.classificationRules,
      first.entry.Matches path → second.entry.Matches path →
        first.entry.specificity = second.entry.specificity →
          first.effectivePrecedence = second.effectivePrecedence →
            first.fileClass = second.fileClass) ↔ ¬input.Unwritten := by
  constructor
  · rintro hties ⟨first, hfirst, second, hsecond, hentry, hnone, hzero, hclass⟩
    obtain ⟨path, hpath⟩ := exists_matches first.entry
    refine hclass (hties path first (h.rules.symm.subset hfirst) second
      (h.rules.symm.subset hsecond) hpath (hentry ▸ hpath) (by rw [hentry]) ?_)
    rw [ScopeClassificationRule.effectivePrecedence, ScopeClassificationRule.effectivePrecedence,
      hnone, hzero]
    rfl
  · intro hwritten path first hfirst second hsecond hmatches hmatches' hspecificity hlevel
    by_contra hclass
    have hentry := eq_of_matches hmatches hmatches' hspecificity
    have hne := h.precedence_ne hfirst hsecond hentry hclass
    have hfirst' := h.rules.subset hfirst
    have hsecond' := h.rules.subset hsecond
    rw [ScopeClassificationRule.effectivePrecedence,
      ScopeClassificationRule.effectivePrecedence] at hlevel
    rcases hp : first.precedence with _ | precedence
    · rcases hp' : second.precedence with _ | precedence
      · exact hne (hp.trans hp'.symm)
      rw [hp, hp'] at hlevel
      obtain rfl : 0 = precedence := hlevel
      exact hwritten ⟨first, hfirst', second, hsecond', hentry, hp, hp', hclass⟩
    rcases hp' : second.precedence with _ | precedence'
    · rw [hp, hp'] at hlevel
      obtain rfl : precedence = 0 := hlevel
      exact hwritten ⟨second, hsecond', first, hfirst', hentry.symm, hp', hp, Ne.symm hclass⟩
    rw [hp, hp'] at hlevel
    obtain rfl : precedence = precedence' := hlevel
    exact hne (hp.trans hp'.symm)

end Compiled

theorem classify_perm {rules : List ScopeClassificationRule}
    (h : rules.Perm snapshot.classificationRules) (path : String) :
    (classify { snapshot with classificationRules := rules } path).fileClass =
      (classify snapshot path).fileClass := by
  have hconfigured := h.filter fun rule ↦ decide (rule.entry.Matches path)
  rw [classify, classify]
  cases hrules : rules.filter fun rule ↦ decide (rule.entry.Matches path) with
  | nil =>
    rw [hrules] at hconfigured
    rw [← hconfigured.nil_eq]
  | cons first rest =>
    rw [hrules] at hconfigured
    cases hrules' : snapshot.classificationRules.filter fun rule ↦
        decide (rule.entry.Matches path) with
    | nil =>
      rw [hrules'] at hconfigured
      exact absurd hconfigured.eq_nil (cons_ne_nil _ _)
    | cons first' rest' =>
      rw [hrules'] at hconfigured
      exact classifyConfigured_perm hconfigured mem_cons_self mem_cons_self

/-- **A compiled policy determines every class unless one of two contradictory rules has no
precedence and the other the one that is read for it.** -/
theorem compiled_determined_iff {sha256 : Sha256} {input : ScopePolicyInput}
    {snapshot : ScopePolicySnapshot} (h : compileScopePolicy sha256 input = .ok snapshot) :
    snapshot.Determined ↔ ¬input.Unwritten := by
  have hcompiled := compiled_of_eq_ok h
  rw [← hcompiled.ties_iff]
  exact ⟨fun hdetermined ↦ hdetermined.ties, fun hties ↦
    ⟨fun _ hrules path ↦ classify_perm hrules path, hties,
      fun _ _ hentry _ hentry' ↦ hcompiled.allowed hentry hentry'⟩⟩

/-- A policy with two rules of one directory, of which only the second has a precedence. -/
def sharedPolicy (precedence : ℕ) : ScopePolicyInput where
  prdPath := "prd.md"
  prdContentHash := ""
  contract := []
  allowedPaths := ["src/"]
  allowPrdExpectedFileExpansion := false
  declarationMode := .expectedOrConfigured
  prohibitedRules := []
  fileClassPolicies := {}
  classificationRules :=
    [⟨"checks", .test, ⟨"src/checks/", .directory⟩, .configuration, none⟩,
      ⟨"output", .generatedArtifact, ⟨"src/checks/", .directory⟩, .configuration, some precedence⟩]
  baselineRevision := ""
  configProvenance := ""

/-- The compiled policy, under a digest function that is constant. -/
def sharedSnapshot (precedence : ℕ) : ScopePolicySnapshot where
  schemaVersion := "scope-policy/1"
  prdPath := "prd.md"
  prdContentHash := ""
  contract := []
  allowedPaths := [⟨"src/", .directory⟩]
  allowPrdExpectedFileExpansion := false
  declarationMode := .expectedOrConfigured
  prohibitedRules := []
  fileClassPolicies := {}
  classificationRules := (sharedPolicy precedence).classificationRules
  builtinRulesVersion := "builtin-scope-rules/1"
  baselineRevision := ""
  configProvenance := ""
  snapshotHash := contentHash (fun _ ↦ Vector.replicate 32 0) []

theorem compiled_determined_shared : (sharedSnapshot 1).Determined :=
  (@compiled_determined_iff (fun _ ↦ Vector.replicate 32 0) (sharedPolicy 1) _
    (Except.toOption_eq_some.1 (by decide +kernel))).2 (by decide +kernel)

/-- A rule without a precedence and one with precedence zero are accepted, and a path below their
directory is ambiguous. -/
theorem accepted_not_determined :
    ∃ sha256 input snapshot, compileScopePolicy sha256 input = .ok snapshot ∧
      ¬snapshot.Determined ∧ (classify snapshot "src/checks/a").fileClass = .ambiguous := by
  refine ⟨fun _ ↦ Vector.replicate 32 0, sharedPolicy 0, sharedSnapshot 0,
    Except.toOption_eq_some.1 (by decide +kernel), fun hdetermined ↦ ?_, by decide +kernel⟩
  have hclass := hdetermined.ties "src/checks/a" _ mem_cons_self _
    (mem_cons_of_mem _ mem_cons_self) (by decide +kernel) (by decide +kernel) rfl rfl
  exact absurd hclass (by decide)

end FamiliarAi
