import FamiliarAi.Json.Value
import FamiliarAi.Storage.Completion

/-!
# What a waiver covers

A waiver is stored with the substance of the finding that the human saw, as a JSON text: its
category and the labels of what it cites. A later finding is covered when it has the category and
every label of its own is among the stored ones. Files, checks and invariants have labels, and the
kinds of labels are told apart by their beginnings, so each of these that a covered finding cites
was cited by the waived one (`waiverCovers_seen`).

The severity and the lines of a citation are no part of the substance.
-/

namespace FamiliarAi

open Text

/-- `review_finding_substance_json`, as the value that its text is read back to. -/
def FindingSubstance.json (substance : FindingSubstance) : JsonValue :=
  .object [("category", .string substance.category.asStr),
    ("cited", .array (substance.cited.map .string))]

/-- `waiver_covers`, on what the stored text is read to. -/
def WaiverCovers (waived : Option JsonValue) (finding : ReviewFinding) : Prop :=
  ∃ value ∈ waived,
    (value.get? "category").bind JsonValue.asStr? = some finding.substance.category.asStr ∧
    ∃ cited ∈ (value.get? "cited").bind JsonValue.asArray?,
      finding.substance.cited ≠ [] ∧
        ∀ item ∈ finding.substance.cited, item ∈ cited.filterMap JsonValue.asStr?

def FindingEvidence.invariantLabel? : FindingEvidence → Option String
  | invariant source sectionTitle _ => some (source ++ "#" ++ sectionTitle)
  | _ => none

/-- What the human saw of a finding when the waived one was waived. -/
structure SeenByHuman (waived finding : ReviewFinding) : Prop where
  category : finding.category = waived.category
  cites : ∃ evidence ∈ finding.evidence,
    evidence.path?.isSome ∨ evidence.checkId?.isSome ∨ evidence.invariantLabel?.isSome
  files : ∀ evidence ∈ finding.evidence, ∀ path ∈ evidence.path?,
    ∃ evidence' ∈ waived.evidence, evidence'.path? = some path
  checks : ∀ evidence ∈ finding.evidence, ∀ checkId ∈ evidence.checkId?,
    ∃ evidence' ∈ waived.evidence, evidence'.checkId? = some checkId
  invariants : ∀ evidence ∈ finding.evidence, ∀ label ∈ evidence.invariantLabel?,
    ∃ evidence' ∈ waived.evidence, evidence'.invariantLabel? = some label

section Labels

variable {evidence : FindingEvidence} {path checkId label : String}

/-- Labels that begin differently are different. -/
theorem append_ne_append {s t : String} (hs : s.toList ≠ []) (ht : t.toList ≠ [])
    (h : s.toList.head? ≠ t.toList.head?) (rest rest' : String) : s ++ rest ≠ t ++ rest' := by
  intro heq
  have hhead := congrArg (fun text : String ↦ text.toList.head?) heq
  rw [String.toList_append, String.toList_append, List.head?_append_of_ne_nil _ hs,
    List.head?_append_of_ne_nil _ ht] at hhead
  exact h hhead

/-- The label of a file. -/
theorem citation?_eq_path :
    evidence.citation? = some ("path:" ++ path) ↔ evidence.path? = some path := by
  have hcheck := append_ne_append (s := "check:") (t := "path:") (by decide) (by decide) (by decide)
  have hinvariant := append_ne_append (s := "invariant:") (t := "path:") (by decide) (by decide)
    (by decide)
  cases evidence <;>
    simp [FindingEvidence.citation?, FindingEvidence.path?, String.append_assoc, hcheck, hinvariant]

theorem citation?_eq_check :
    evidence.citation? = some ("check:" ++ checkId) ↔ evidence.checkId? = some checkId := by
  have hpath := append_ne_append (s := "path:") (t := "check:") (by decide) (by decide) (by decide)
  have hinvariant := append_ne_append (s := "invariant:") (t := "check:") (by decide) (by decide)
    (by decide)
  cases evidence <;>
    simp [FindingEvidence.citation?, FindingEvidence.checkId?, String.append_assoc, hpath,
      hinvariant]

theorem citation?_eq_invariant :
    evidence.citation? = some ("invariant:" ++ label) ↔ evidence.invariantLabel? = some label := by
  have hpath := append_ne_append (s := "path:") (t := "invariant:") (by decide) (by decide)
    (by decide)
  have hcheck := append_ne_append (s := "check:") (t := "invariant:") (by decide) (by decide)
    (by decide)
  cases evidence <;>
    simp [FindingEvidence.citation?, FindingEvidence.invariantLabel?, String.append_assoc, hpath,
      hcheck]

theorem isSome_of_citation? {item : String} (h : evidence.citation? = some item) :
    evidence.path?.isSome ∨ evidence.checkId?.isSome ∨ evidence.invariantLabel?.isSome := by
  cases evidence with
  | fileRange path range => exact .inl rfl
  | diffHunk path hunk => exact .inl rfl
  | verification checkId output => exact .inr (.inl rfl)
  | invariant source sectionTitle sourceHash => exact .inr (.inr rfl)
  | contract source sectionTitle sourceHash => cases h
  | artifact artifact field => cases h

end Labels

section Cover

variable {waived finding : ReviewFinding}

theorem mem_substance_cited {item : String} : item ∈ finding.substance.cited ↔
    ∃ evidence ∈ finding.evidence, evidence.citation? = some item := by
  rw [ReviewFinding.substance, List.mem_eraseDups, (List.perm_insertionSort _ _).mem_iff,
    List.mem_filterMap]

theorem FindingCategory.asStr_injective : Function.Injective FindingCategory.asStr := by
  intro c c' h
  cases c <;> cases c' <;> first | rfl | exact absurd h (by decide)

theorem waiverCovers_json {substance : FindingSubstance} :
    WaiverCovers (some substance.json) finding ↔ substance.Covers finding := by
  have hcategory : (substance.json.get? "category").bind JsonValue.asStr? =
      some substance.category.asStr := by
    simp [FindingSubstance.json]
  have hcited : (substance.json.get? "cited").bind JsonValue.asArray? =
      some (substance.cited.map .string) := by
    simp [FindingSubstance.json]
  have hstrings : (substance.cited.map JsonValue.string).filterMap JsonValue.asStr? =
      substance.cited := by
    rw [List.filterMap_map]
    exact List.filterMap_some
  constructor
  · rintro ⟨value, hvalue, hcategory', cited, hcited', hne, hall⟩
    obtain rfl := Option.some.inj hvalue
    rw [hcategory] at hcategory'
    rw [hcited] at hcited'
    obtain rfl := Option.some.inj hcited'
    rw [hstrings] at hall
    exact ⟨FindingCategory.asStr_injective (Option.some.inj hcategory'), hne, hall⟩
  · rintro ⟨hcategory', hne, hall⟩
    refine ⟨_, rfl, ?_, _, hcited, hne, ?_⟩
    · rw [hcategory, hcategory']
      rfl
    · rw [hstrings]
      exact hall

/-- **A waiver covers a finding only when the human saw what the finding cites**: it has the
category of the waived one and cites a file, a check or an invariant, and each of these was cited by
the waived one. -/
theorem waiverCovers_seen (h : WaiverCovers (some waived.substance.json) finding) :
    SeenByHuman waived finding := by
  obtain ⟨hcategory, hne, hall⟩ := waiverCovers_json.1 h
  have hseen {item : String} {evidence : FindingEvidence} (hevidence : evidence ∈ finding.evidence)
      (hitem : evidence.citation? = some item) :
      ∃ evidence' ∈ waived.evidence, evidence'.citation? = some item :=
    mem_substance_cited.1 (hall item (mem_substance_cited.2 ⟨evidence, hevidence, hitem⟩))
  refine ⟨hcategory.symm, ?_, ?_, ?_, ?_⟩
  · obtain ⟨item, hitem⟩ := List.exists_mem_of_ne_nil _ hne
    obtain ⟨evidence, hevidence, hcitation⟩ := mem_substance_cited.1 hitem
    exact ⟨evidence, hevidence, isSome_of_citation? hcitation⟩
  · intro evidence hevidence path hpath
    obtain ⟨evidence', hevidence', hsame⟩ := hseen hevidence (citation?_eq_path.2 hpath)
    exact ⟨evidence', hevidence', citation?_eq_path.1 hsame⟩
  · intro evidence hevidence checkId hcheck
    obtain ⟨evidence', hevidence', hsame⟩ := hseen hevidence (citation?_eq_check.2 hcheck)
    exact ⟨evidence', hevidence', citation?_eq_check.1 hsame⟩
  · intro evidence hevidence label hlabel
    obtain ⟨evidence', hevidence', hsame⟩ := hseen hevidence (citation?_eq_invariant.2 hlabel)
    exact ⟨evidence', hevidence', citation?_eq_invariant.1 hsame⟩

end Cover

def fileFinding (severity : FindingSeverity) (others : List FindingEvidence) : ReviewFinding where
  findingId := "f"
  category := .correctnessDefect
  severity := severity
  blocking := true
  title := "t"
  claim := "c"
  evidence := .fileRange "src/lib.rs" ⟨1, 2⟩ :: others
  remediation := "r"
  status := .opened
  supersedes := none
  acceptanceCriterionId := none

theorem waiverCovers_seen_file : SeenByHuman (fileFinding .low []) (fileFinding .low []) :=
  waiverCovers_seen (waiverCovers_json.2 (by decide +kernel))

theorem waiverCovers_more_severe :
    ∃ waived finding : ReviewFinding, WaiverCovers (some waived.substance.json) finding ∧
      waived.severity = .low ∧ finding.severity = .critical ∧
      FindingEvidence.contract "docs/contract.md" "Limits" "sha256:0" ∈ finding.evidence ∧
      FindingEvidence.contract "docs/contract.md" "Limits" "sha256:0" ∉ waived.evidence :=
  ⟨fileFinding .low [], fileFinding .critical [.contract "docs/contract.md" "Limits" "sha256:0"],
    waiverCovers_json.2 (by decide +kernel), rfl, rfl,
    List.mem_cons_of_mem _ List.mem_cons_self, by decide⟩

end FamiliarAi
