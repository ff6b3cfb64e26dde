import FamiliarAi.Storage.Inventory
import FamiliarAi.Text.Split

/-!
# The paths under which summaries are stored

An earlier version stored the summary of a file under its absolute path. `classifyIdentity` tells
such a path from a canonical one by its text alone: below the registered root of the project it
stands for a canonical path, and everything else is left unresolved with a reason.

A path is mapped only when the mapping can be taken back: the registered root joined with the
canonical path is the stored path, letter by letter (`classifyIdentity_eq_mapped_iff`). So no two
stored paths are mapped to one canonical path.
-/

namespace FamiliarAi

open Text

inductive ReconciliationReason
  | missingProject
  | nonAbsoluteNoncanonical
  | registeredRootMismatch
  | lexicalOrTraversalFailure
  | emptyRelativeIdentity
  | losslessRepresentationFailure
  | unsupportedHostPathForm
  | internalPersistenceOrValidationFailure
  deriving DecidableEq

def ReconciliationReason.asStr : ReconciliationReason → String
  | missingProject => "missing_project"
  | nonAbsoluteNoncanonical => "non_absolute_noncanonical"
  | registeredRootMismatch => "registered_root_mismatch"
  | lexicalOrTraversalFailure => "lexical_or_traversal_failure"
  | emptyRelativeIdentity => "empty_relative_identity"
  | losslessRepresentationFailure => "lossless_representation_failure"
  | unsupportedHostPathForm => "unsupported_host_path_form"
  | internalPersistenceOrValidationFailure => "internal_persistence_or_validation_failure"

inductive IdentityClassification
  | canonical
  | mapped (path : String)
  | unresolved (reason : ReconciliationReason)
  deriving DecidableEq

/-- A part between separators that is no component. -/
def idlePart (part : List Char) : Bool :=
  part = [] ∨ part = ['.']

def AbsolutePath (path : String) : Prop :=
  StartsWith path "/"

instance : DecidablePred AbsolutePath :=
  fun path ↦ inferInstanceAs (Decidable (StartsWith path "/"))

def hasParentComponent (path : String) : Bool :=
  (pathComponents path).contains ['.', '.']

/-- `looks_like_unsupported_host_path`: a drive letter or two backslashes. -/
def looksLikeUnsupportedHostPath (path : String) : Bool :=
  match path.toList with
  | '\\' :: '\\' :: _ => true
  | drive :: ':' :: separator :: _ => drive.isAlpha && (separator == '\\' || separator == '/')
  | _ => false

/-- What is left of the parts of a path behind the components of another. -/
def stripComponents : List (List Char) → List (List Char) → Option (List (List Char))
  | [], parts => some parts
  | component :: components, parts =>
    match parts.dropWhile idlePart with
    | [] => none
    | part :: rest => if part = component then stripComponents components rest else none

/-- The parts of a path without the idle ones at both ends. -/
def trimParts (parts : List (List Char)) : List (List Char) :=
  ((parts.dropWhile idlePart).reverse.dropWhile idlePart).reverse

/-- `Path::strip_prefix` of two absolute paths: the text of what is left, from the first component
to the last one. -/
def relativeTo (root stored : String) : Option String :=
  (stripComponents (pathComponents root) (splitOn '/' stored.toList)).map fun rest ↦
    String.ofList (List.intercalate ['/'] (trimParts rest))

/-- `Path::join` with a relative path. -/
def joinPath (root path : String) : String :=
  if root.toList.getLast? = some '/' then root ++ path else root ++ "/" ++ path

/-- `classify_identity`. A text is always the text of what is left of it, so that no path fails to
be represented. -/
def classifyIdentity (repoRoot : Option String) (storedPath : String) : IdentityClassification :=
  if validateStored storedPath = .ok () then .canonical
  else match repoRoot with
    | none => .unresolved .missingProject
    | some root =>
      if looksLikeUnsupportedHostPath storedPath then .unresolved .unsupportedHostPathForm
      else if ¬AbsolutePath storedPath then .unresolved .nonAbsoluteNoncanonical
      else if ¬AbsolutePath root ∨ looksLikeUnsupportedHostPath root then
        .unresolved .unsupportedHostPathForm
      else if hasParentComponent storedPath ∨ hasParentComponent root then
        .unresolved .lexicalOrTraversalFailure
      else match relativeTo root storedPath with
        | none => .unresolved .registeredRootMismatch
        | some relative =>
          if relative = "" then .unresolved .emptyRelativeIdentity
          else if validateStored relative ≠ .ok () then .unresolved .lexicalOrTraversalFailure
          else if joinPath root relative ≠ storedPath then .unresolved .lexicalOrTraversalFailure
          else .mapped relative

/-! ### Canonical paths -/

theorem stripComponents_of_idle {component : List Char} {components parts : List (List Char)}
    {part : List Char} (h : idlePart part) :
    stripComponents (component :: components) (part :: parts) =
      stripComponents (component :: components) parts := by
  rw [stripComponents, stripComponents, List.dropWhile_cons_of_pos h]

theorem stripComponents_append (base rest : List (List Char)) :
    ∃ idle, (∀ part ∈ idle, idlePart part) ∧
      stripComponents (base.filter fun part ↦ !idlePart part) (base ++ rest) =
        some (idle ++ rest) := by
  induction base with
  | nil => exact ⟨[], by simp, rfl⟩
  | cons part base ih =>
    obtain ⟨idle, hidle, hstrip⟩ := ih
    by_cases hpart : idlePart part
    · rw [List.filter_cons_of_neg (by simp [hpart])]
      rcases hcomponents : base.filter fun part ↦ !idlePart part with _ | ⟨component, components⟩
      · -- every part is idle, so that all of them are left
        refine ⟨part :: base, ?_, rfl⟩
        rw [List.filter_eq_nil_iff] at hcomponents
        rw [List.forall_mem_cons]
        exact ⟨hpart, fun other hother ↦ by simpa using hcomponents other hother⟩
      rw [hcomponents] at hstrip
      exact ⟨idle, hidle, (stripComponents_of_idle hpart).trans hstrip⟩
    · refine ⟨idle, hidle, ?_⟩
      rw [List.filter_cons_of_pos (by simp [hpart]), List.cons_append, stripComponents,
        List.dropWhile_cons_of_neg hpart]
      exact (if_pos rfl).trans hstrip

theorem trimParts_append {idle parts : List (List Char)} (hidle : ∀ part ∈ idle, idlePart part)
    (hparts : ∀ part ∈ parts, ¬idlePart part) : trimParts (idle ++ parts) = parts := by
  have hkeep (l : List (List Char)) (hl : ∀ part ∈ l, ¬idlePart part) :
      l.dropWhile idlePart = l := by
    cases l with
    | nil => rfl
    | cons part l => exact List.dropWhile_cons_of_neg (hl part List.mem_cons_self)
  rw [trimParts, List.dropWhile_append_of_pos hidle, hkeep parts hparts,
    hkeep _ fun part hpart ↦ hparts part (List.mem_reverse.1 hpart), List.reverse_reverse]

theorem pathComponents_eq (path : String) :
    pathComponents path = (splitOn '/' path.toList).filter fun part ↦ !idlePart part := by
  refine List.filter_congr fun part _ ↦ ?_
  simp [idlePart]

section Canonical

variable {root stored path : String}

theorem validateStored_eq_ok (h : validateStored path = .ok ()) :
    ¬AbsolutePath path ∧ ['.', '.'] ∉ pathComponents path ∧ pathComponents path ≠ [] ∧
      path = String.ofList (List.intercalate ['/'] (pathComponents path)) := by
  unfold validateStored normalizeRelative at h
  by_cases habsolute : StartsWith path "/"
  · rw [if_pos habsolute] at h
    cases h
  · rw [if_neg habsolute] at h
    by_cases hparent : ['.', '.'] ∈ pathComponents path
    · rw [if_pos hparent] at h
      cases h
    · rw [if_neg hparent] at h
      by_cases hempty : pathComponents path = []
      · rw [if_pos hempty] at h
        cases h
      · rw [if_neg hempty] at h
        refine ⟨habsolute, hparent, hempty, ?_⟩
        by_contra hne
        have hfail : (Except.error PathIdentityError.lexicalEscape : Except _ Unit) = .ok () :=
          (if_pos (Ne.symm hne)).symm.trans h
        cases hfail

theorem splitOn_of_validateStored (h : validateStored path = .ok ()) :
    splitOn '/' path.toList = pathComponents path := by
  obtain ⟨-, -, hne, htext⟩ := validateStored_eq_ok h
  have hslash : ∀ part ∈ pathComponents path, '/' ∉ part := fun part hpart ↦
    notMem_of_mem_splitOn (List.mem_of_mem_filter hpart)
  have htoList : path.toList = List.intercalate ['/'] (pathComponents path) := by
    conv_lhs => rw [htext]
    exact String.toList_ofList
  rw [htoList, splitOn_eq_listSplitOn, List.splitOn_intercalate '/' hslash hne]

theorem splitOn_joinPath (root path : String) :
    ∃ base, splitOn '/' (joinPath root path).toList = base ++ splitOn '/' path.toList ∧
      (base.filter fun part ↦ !idlePart part) = pathComponents root := by
  rw [joinPath]
  split
  · rename_i hlast
    obtain ⟨front, hfront⟩ := List.getLast?_eq_some_iff.1 hlast
    refine ⟨splitOn '/' front, ?_, ?_⟩
    · rw [String.toList_append, hfront, List.append_assoc, List.singleton_append]
      rw [splitOn_append_cons]
    · rw [pathComponents_eq, hfront]
      rw [splitOn_append_cons, List.filter_append]
      simp [splitOn, idlePart]
  · refine ⟨splitOn '/' root.toList, ?_, (pathComponents_eq root).symm⟩
    have hjoin : (root ++ "/" ++ path).toList = root.toList ++ '/' :: path.toList := by
      simp
    rw [hjoin, splitOn_append_cons]

theorem relativeTo_joinPath (h : validateStored path = .ok ()) :
    relativeTo root (joinPath root path) = some path := by
  obtain ⟨base, hparts, hbase⟩ := splitOn_joinPath root path
  obtain ⟨idle, hidle, hstrip⟩ := stripComponents_append base (splitOn '/' path.toList)
  have hcomponents : ∀ part ∈ splitOn '/' path.toList, ¬idlePart part := by
    intro part hpart
    rw [splitOn_of_validateStored h, pathComponents_eq] at hpart
    simpa using (List.mem_filter.1 hpart).2
  rw [relativeTo, hparts, ← hbase, hstrip, Option.map_some, trimParts_append hidle hcomponents,
    splitOn_of_validateStored h, ← (validateStored_eq_ok h).2.2.2]

theorem pathComponents_joinPath (root path : String) :
    pathComponents (joinPath root path) = pathComponents root ++ pathComponents path := by
  obtain ⟨base, hparts, hbase⟩ := splitOn_joinPath root path
  rw [pathComponents_eq, hparts, List.filter_append, hbase, ← pathComponents_eq]

/-- A registered root that stored paths can be taken below. -/
structure UsableRoot (root : String) : Prop where
  absolute : AbsolutePath root
  host : looksLikeUnsupportedHostPath root = false
  parent : hasParentComponent root = false

theorem AbsolutePath.joinPath (h : AbsolutePath root) : AbsolutePath (joinPath root path) := by
  have happend : ∃ text, (FamiliarAi.joinPath root path).toList = root.toList ++ text := by
    rw [FamiliarAi.joinPath]
    split
    · exact ⟨_, String.toList_append⟩
    · exact ⟨_, by rw [String.append_assoc, String.toList_append]⟩
  obtain ⟨text, htext⟩ := happend
  show "/".toList <+: (FamiliarAi.joinPath root path).toList
  rw [htext]
  exact h.trans (List.prefix_append _ _)

theorem AbsolutePath.not_host (h : AbsolutePath path) :
    looksLikeUnsupportedHostPath path = false := by
  obtain ⟨text, htext⟩ := h
  have hcons : path.toList = '/' :: text := htext.symm
  rw [looksLikeUnsupportedHostPath, hcons]
  split
  · rename_i heq
    cases heq
  · rename_i heq
    cases heq
    rfl
  · rfl

theorem not_validateStored_of_absolute (h : AbsolutePath stored) : validateStored stored ≠ .ok () :=
  fun hvalid ↦ (validateStored_eq_ok hvalid).1 h

/-- **The mapping can be taken back.** -/
theorem classifyIdentity_eq_mapped_iff :
    classifyIdentity (some root) stored = .mapped path ↔
      UsableRoot root ∧ validateStored path = .ok () ∧ stored = joinPath root path := by
  constructor
  · intro h
    rw [classifyIdentity] at h
    split_ifs at h with hcanonical hhost habsolute hroot hparent
    · have hroot := not_or.1 hroot
      have hparent := not_or.1 hparent
      rcases hrelative : relativeTo root stored with _ | relative
      · rw [hrelative] at h
        cases h
      rw [hrelative] at h
      dsimp only at h
      split_ifs at h with hempty hvalid hjoin
      · obtain rfl := IdentityClassification.mapped.inj h
        exact ⟨⟨not_not.1 hroot.1, Bool.eq_false_iff.2 hroot.2, Bool.eq_false_iff.2 hparent.2⟩,
          not_not.1 hvalid, (not_not.1 hjoin).symm⟩
  · rintro ⟨hroot, hvalid, rfl⟩
    have habsolute : AbsolutePath (joinPath root path) := hroot.absolute.joinPath
    have hparent : hasParentComponent (joinPath root path) = false := by
      have hbase := hroot.parent
      rw [hasParentComponent, List.contains_eq_mem, decide_eq_false_iff_not] at hbase ⊢
      rw [pathComponents_joinPath, List.mem_append, not_or]
      exact ⟨hbase, (validateStored_eq_ok hvalid).2.1⟩
    have hempty : path ≠ "" := by
      rintro rfl
      exact (validateStored_eq_ok hvalid).2.2.1 rfl
    rw [classifyIdentity, if_neg (not_validateStored_of_absolute habsolute)]
    rw [habsolute.not_host, hroot.host, hparent, hroot.parent, relativeTo_joinPath hvalid]
    simp [habsolute, hroot.absolute, hempty, hvalid]

theorem not_validateStored_of_mapped (h : classifyIdentity (some root) stored = .mapped path) :
    validateStored stored ≠ .ok () := by
  obtain ⟨hroot, -, rfl⟩ := classifyIdentity_eq_mapped_iff.1 h
  exact not_validateStored_of_absolute hroot.absolute.joinPath

theorem classifyIdentity_eq_canonical_iff {repoRoot : Option String} :
    classifyIdentity repoRoot stored = .canonical ↔ validateStored stored = .ok () := by
  constructor
  · intro h
    by_contra hcanonical
    unfold classifyIdentity at h
    rw [if_neg hcanonical] at h
    split at h
    · cases h
    · split_ifs at h
      split at h
      · cases h
      · split_ifs at h
  · exact fun h ↦ if_pos h

def CanonicalFor (root stored path : String) : Prop :=
  validateStored path = .ok () ∧ (stored = path ∨ UsableRoot root ∧ stored = joinPath root path)

theorem not_canonicalFor_of_unresolved {reason : ReconciliationReason}
    (h : classifyIdentity (some root) stored = .unresolved reason) (path : String) :
    ¬CanonicalFor root stored path := by
  rintro ⟨hvalid, rfl | ⟨hroot, heq⟩⟩
  · rw [classifyIdentity_eq_canonical_iff.2 hvalid] at h
    cases h
  · rw [classifyIdentity_eq_mapped_iff.2 ⟨hroot, hvalid, heq⟩] at h
    cases h

end Canonical

end FamiliarAi
