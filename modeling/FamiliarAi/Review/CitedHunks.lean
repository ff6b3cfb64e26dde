import FamiliarAi.Review.Disclosure
import FamiliarAi.Review.GitPatch

/-!
# Hunks of cited files

A finding that is still to be disposed of cites files, and their hunks have to be disclosed. Which
hunks these are is read from the text of their headers: from the line of the section when it has one
path, and from the line of the new path before the first hunk.

What is recognised is disclosed (`cited_hunks_disclosed`). A path in quotation marks is not
recognised, nor is the old path of a rename, nor a rename without hunks of text.
-/

namespace FamiliarAi

open Text Except List

def ReviewPackageInput.citedPaths (input : ReviewPackageInput) : List String :=
  (input.priorFindings.flatMap (·.evidence)).filterMap FindingEvidence.path?

def PatchContent.IsText : PatchContent → Prop
  | .text _ _ => True
  | _ => False

def FilePatch.Recognisable (q : PathQuoting) (patch : FilePatch) (path : String) : Prop :=
  q.Leaves path ∧ path = patch.change.newPath ∧
    (patch.change.oldPath = patch.change.newPath ∨ patch.content.IsText)

section Recognise

variable {q : PathQuoting} {patch : FilePatch} {path : String} {part : List Char}

theorem infix_document {l : List Char} {ls : List (List Char)} (h : l ∈ ls) :
    l <:+: document ls := by
  obtain ⟨before, after, rfl⟩ := append_of_mem h
  refine ⟨document before, '\n' :: document after, ?_⟩
  simp [document]

theorem FilePatch.infix_part {part line : List Char} (hpart : part ∈ patch.parts q)
    (hline : line ∈ patch.gitLine q :: patch.headerLines q) : line <:+: part := by
  unfold parts at hpart
  have hsection : part = document (patch.sectionLines q) → line <:+: part := by
    rintro rfl
    exact infix_document (mem_append_left patch.contentLines hline)
  cases hcontent : patch.content with
  | nothing =>
    rw [hcontent] at hpart
    exact hsection (mem_singleton.1 hpart)
  | binary lines plain =>
    rw [hcontent] at hpart
    exact hsection (mem_singleton.1 hpart)
  | text first rest =>
    rw [hcontent] at hpart
    obtain ⟨hunk, -, rfl⟩ := mem_map.1 hpart
    exact infix_document (mem_append_left hunk.lines hline)

theorem toList_gitPaths (path : String) : (" a/" ++ path ++ " b/" ++ path).toList =
    ' ' :: (sided 'a' path ++ ' ' :: sided 'b' path) := by
  rw [String.toList_append, String.toList_append, String.toList_append, sided, sided,
    append_assoc, append_assoc]
  rfl

theorem FilePatch.gitLine_eq (hq : q.Leaves path) (hold : patch.change.oldPath = path)
    (hnew : patch.change.newPath = path) :
    patch.gitLine q = "diff --git".toList ++ (" a/" ++ path ++ " b/" ++ path).toList := by
  have hgit : "diff --git ".toList = "diff --git".toList ++ [' '] := by decide
  unfold gitLine
  rw [hold, hnew, hq.1, hq.2, toList_gitPaths, hgit, append_assoc]
  rfl

theorem FilePatch.newLabel_eq (hq : q.Leaves path) (hnew : patch.change.newPath = path)
    (hrenamed : patch.change.oldPath ≠ patch.change.newPath) :
    ∃ rest, "+++ ".toList ++ patch.newLabel q = ("+++ b/" ++ path).toList ++ rest := by
  have hlabel : patch.newLabel q = FilePatch.label q 'b' path := by
    unfold newLabel
    cases hchange : patch.change with
    | renamed old new modes similarity =>
      rw [hchange] at hnew
      rw [← hnew]
    | _ =>
      rw [hchange] at hrenamed
      exact absurd rfl hrenamed
  refine ⟨if ' ' ∈ path.toList then ['\t'] else [], ?_⟩
  rw [hlabel, label, hq.2, String.toList_append]
  rfl

theorem FilePatch.Recognisable.infix_part (h : patch.Recognisable q path)
    (hpart : part ∈ patch.parts q) :
    (" a/" ++ path ++ " b/" ++ path).toList <:+: part ∨ ("+++ b/" ++ path).toList <:+: part := by
  obtain ⟨hq, hnew, hform⟩ := h
  by_cases hone : patch.change.oldPath = patch.change.newPath
  · have hline := patch.gitLine_eq hq (hone.trans hnew.symm) hnew.symm
    refine .inl (List.IsInfix.trans ?_ (FilePatch.infix_part hpart mem_cons_self))
    rw [hline]
    exact (suffix_append _ _).isInfix
  · have htext := hform.resolve_left hone
    have hline : "+++ ".toList ++ patch.newLabel q ∈ patch.headerLines q := by
      unfold headerLines
      cases hcontent : patch.content with
      | text first rest =>
        refine mem_append_right _ (mem_append_right _ ?_)
        exact mem_cons_of_mem _ mem_cons_self
      | _ =>
        rw [hcontent] at htext
        exact htext.elim
    obtain ⟨rest, hrest⟩ := patch.newLabel_eq hq hnew.symm hone
    rw [hrest] at hline
    refine .inr (List.IsInfix.trans ?_ (FilePatch.infix_part hpart (mem_cons_of_mem _ hline)))
    exact (prefix_append _ _).isInfix

theorem hunkIsRequired_of_recognisable {input : ReviewPackageInput}
    (hcited : path ∈ input.citedPaths) (h : patch.Recognisable q path)
    (hpart : part ∈ patch.parts q) : hunkIsRequired input part = true := by
  refine any_eq_true.2 ⟨path, hcited, ?_⟩
  rw [Bool.or_eq_true, decide_eq_true_eq, decide_eq_true_eq]
  exact h.infix_part hpart

end Recognise

/-! ### What is required is disclosed -/

section Required

variable {sha256 : Sha256} {input : ReviewPackageInput} {hunks : List Hunk}
  {request : ReviewRequest} {d d' : Disclosure} {seen : List Hunk}

def KeepsRequired (input : ReviewPackageInput) (seen disclosed : List Hunk) : Prop :=
  ∀ hunk ∈ seen, hunkIsRequired input hunk.1 = true → hunk ∈ disclosed

theorem KeepsRequired.discloseHunk {hunk : Hunk} (hkeeps : KeepsRequired input seen d.disclosed)
    (h : discloseHunk sha256 input d hunk = .ok d') :
    KeepsRequired input (seen ++ [hunk]) d'.disclosed := by
  obtain ⟨fit, -, h⟩ := bind_eq_ok.1 h
  split_ifs at h with hfit hrequired
  · obtain rfl := Except.ok.inj h
    intro other hother hother'
    refine (mem_insertionSort _).2 (mem_append.2 ?_)
    exact (mem_append.1 hother).imp_left fun hseen ↦ hkeeps other hseen hother'
  · obtain ⟨omission, -, h⟩ := bind_eq_ok.1 h
    obtain rfl := Except.ok.inj h
    intro other hother hother'
    rcases mem_append.1 hother with hseen | hhunk
    · exact hkeeps other hseen hother'
    · rw [mem_singleton.1 hhunk] at hother'
      exact absurd hother' hrequired

theorem KeepsRequired.foldlM (hkeeps : KeepsRequired input seen d.disclosed)
    (h : hunks.foldlM (FamiliarAi.discloseHunk sha256 input) d = .ok d') :
    KeepsRequired input (seen ++ hunks) d'.disclosed := by
  induction hunks generalizing seen d with
  | nil =>
    obtain rfl := Except.ok.inj h
    rwa [append_nil]
  | cons hunk hunks ih =>
    rw [foldlM_cons] at h
    obtain ⟨d₁, hd₁, h⟩ := bind_eq_ok.1 h
    have h' := ih (hkeeps.discloseHunk hd₁) h
    rwa [append_assoc] at h'

theorem KeepsRequired.evict {d : Disclosure} (hkeeps : KeepsRequired input hunks d.disclosed)
    (h : FamiliarAi.evict sha256 input d = .ok request) :
    ∃ disclosed, KeepsRequired input hunks disclosed ∧ disclosed.Sublist d.disclosed ∧
      request.disclosedDiff.toList = flatten disclosed := by
  induction hlength : d.disclosed.length using Nat.strong_induction_on generalizing d with
  | _ n ih =>
    rw [FamiliarAi.evict] at h
    obtain ⟨-, h⟩ := ite_throw_eq_ok.1 h
    obtain ⟨settled, hsettled, h⟩ := bind_eq_ok.1 h
    obtain ⟨fit, -, h⟩ := bind_eq_ok.1 h
    split_ifs at h
    · obtain rfl := Except.ok.inj h
      obtain ⟨size, rfl, -⟩ := settlePrompt_eq_ok hsettled
      exact ⟨d.disclosed, hkeeps, .refl _, String.toList_ofList⟩
    · split at h
      · cases h
      · rename_i hunk rest hlargest
        obtain ⟨hrequired, h⟩ := ite_throw_eq_ok.1 h
        obtain ⟨omission, -, h⟩ := bind_eq_ok.1 h
        have hperm := removeLargest_perm hlargest
        have hrest : KeepsRequired input hunks rest := by
          intro other hother hother'
          rcases mem_cons.1 (hperm.mem_iff.2 (hkeeps other hother hother')) with rfl | hmem
          · exact absurd hother' hrequired
          · exact hmem
        obtain ⟨disclosed, hdisclosed, hsub, hdiff⟩ :=
          ih _ (by rw [← hlength, ← hperm.length_eq]; exact Nat.lt_succ_self _) hrest h rfl
        exact ⟨disclosed, hdisclosed, hsub.trans (removeLargest_sublist hlargest), hdiff⟩

/-- **Required hunks are disclosed.** -/
theorem required_hunks_disclosed (h : buildReviewRequest sha256 input = .ok request) :
    ∃ (parts : List (List Char)) (disclosed : List Hunk),
      wholeHunks input.captured.bytes = .ok parts ∧ disclosed.Sublist parts.zipIdx ∧
      request.disclosedDiff.toList = flatten disclosed ∧
      KeepsRequired input.sorted parts.zipIdx disclosed := by
  obtain ⟨parts, d, hparts, hd, hevict⟩ := buildReviewRequest_steps h
  have hnone : Partitions sha256 input.sorted [] ⟨[], []⟩ [] := ⟨.refl _, .refl _, .nil⟩
  obtain ⟨omitted, hpartitions⟩ := hnone.foldlM hd
  have hnoneSeen : KeepsRequired input.sorted [] [] := forall_mem_nil _
  have hkeeps : KeepsRequired input.sorted (smallestFirst parts.zipIdx) d.disclosed :=
    hnoneSeen.foldlM hd
  have hall : KeepsRequired input.sorted parts.zipIdx
      ({ d with omissions := sortOmissions d.omissions } : Disclosure).disclosed :=
    fun hunk hhunk ↦ hkeeps hunk ((mem_insertionSort _).2 hhunk)
  obtain ⟨disclosed, hdisclosed, hsub, hdiff⟩ := hall.evict hevict
  have hperm : (d.disclosed ++ omitted).Perm parts.zipIdx :=
    hpartitions.perm.trans (perm_insertionSort _ _)
  have hsubperm : d.disclosed.Subperm parts.zipIdx :=
    (sublist_append_left d.disclosed omitted).subperm.trans hperm.subperm
  exact ⟨parts, disclosed, hparts, hsub.trans (hpartitions.inOrder.sublist hsubperm), hdiff,
    hdisclosed⟩

end Required

theorem mem_citedPaths_sorted {input : ReviewPackageInput} {path : String} :
    path ∈ input.sorted.citedPaths ↔ path ∈ input.citedPaths := by
  simp only [ReviewPackageInput.citedPaths, ReviewPackageInput.sorted, mem_filterMap,
    mem_flatMap, mem_insertionSort]

def linePatch (path : String) (line : List Char) (h : '\n' ∉ line) : FilePatch where
  change := .modified path none
  index := some "1..2 100644".toList
  content := .text ⟨"-0,0 +1 @@".toList, ['+' :: line], by decide, by simpa using h,
    forall_mem_singleton.2 rfl⟩ []
  index_feed := fun hashes hhashes ↦ by
    rw [← Option.some.inj hhashes]
    decide

/-- The hunk of the line, with its header. -/
def linePart (q : PathQuoting) (path : String) (line : List Char) (h : '\n' ∉ line) : List Char :=
  document ((linePatch path line h).sectionLines q)

theorem shortLine : '\n' ∉ ['x'] := by
  decide

/-- What stands in front of the line. -/
def lineHeader (q : PathQuoting) (path : String) : List Char :=
  document ((linePatch path ['x'] shortLine).sectionLines q).dropLast ++ ['+']

theorem linePart_eq (q : PathQuoting) (path : String) (line : List Char) (h : '\n' ∉ line) :
    linePart q path line h = lineHeader q path ++ (line ++ ['\n']) := by
  have hlines : (linePatch path line h).sectionLines q =
      ((linePatch path ['x'] shortLine).sectionLines q).dropLast ++ ['+' :: line] := rfl
  rw [linePart, hlines, document, flatMap_append, lineHeader, document, append_assoc]
  simp

theorem longLine : '\n' ∉ List.replicate 600 'y' :=
  fun h ↦ absurd (eq_of_mem_replicate h) (by decide)

/-- A review of a change, after a finding about the file `é`. -/
def citedInput (q : PathQuoting) (patches : List FilePatch) : ReviewPackageInput :=
  { hunkInput with
    captured := { hunkInput.captured with bytes := encodeUtf8 (writtenDiff q patches) }
    priorFindings := [⟨"f", .opened, "c", .correctnessDefect, [.fileRange "é" ⟨1, 1⟩]⟩]
    budget := ⟨4300, 10000⟩ }

/-- A short change of another file, and a long change of the file. -/
def quotedPatches : List FilePatch :=
  [linePatch "a" ['x'] shortLine, linePatch "é" (List.replicate 600 'y') longLine]

/-- The digest does not matter here. -/
def zeroSha256 : Sha256 :=
  fun _ ↦ Vector.replicate 32 0

def quotedInput : ReviewPackageInput :=
  citedInput (quotePath true) quotedPatches

/-- The two hunks, with their positions. -/
def shortHunk : Hunk :=
  (linePart (quotePath true) "a" ['x'] shortLine, 0)

def longHunk : Hunk :=
  (linePart (quotePath true) "é" (List.replicate 600 'y') longLine, 1)

def citedHunk : Hunk :=
  (linePart (quotePath false) "é" ['x'] shortLine, 0)

theorem byteSize_replicate (n : ℕ) : byteSize (List.replicate n 'y') = n := by
  induction n with
  | zero => rfl
  | succ n ih =>
    rw [replicate_succ, byteSize_cons, ih, Nat.add_comm]
    rfl

theorem texts_measured :
    (byteSize (lineHeader (quotePath true) "é") = 104 ∧
      (lineHeader (quotePath true) "é").length = 104 ∧
      (lineHeader (quotePath true) "é").elem 'é' = false) ∧
    (shortHunk.1.length ≤ 90 ∧ byteSize shortHunk.1 ≤ 100 ∧
      byteSize (Json.renderChars (flatten [shortHunk])) ≤ 89) ∧
    byteSize (Json.renderChars (flatten [citedHunk])) ≤ 512 := by
  decide

theorem byteSize_longHunk : byteSize longHunk.1 = 705 := by
  have hend : byteSize ['\n'] = 1 := by decide
  rw [longHunk, linePart_eq, byteSize_append, byteSize_append, byteSize_replicate,
    texts_measured.1.1, hend]

theorem packages_measured :
    containsSecret (encodeUtf8 (citedInput (quotePath true) []).sorted.documents.render) = false ∧
      promptSize (requestWithManifest (citedInput (quotePath true) []).sorted [] [] 0 0 "") = 3712 ∧
      containsSecret quotedInput.captured.bytes = false ∧
      containsSecret (citedInput (quotePath false)
        [linePatch "é" ['x'] shortLine]).captured.bytes = false :=
  ⟨by decide +kernel, by decide +kernel, by decide +kernel, by decide +kernel⟩

theorem longHunk_measured :
    smallestFirst [shortHunk, longHunk] = [shortHunk, longHunk] ∧
      hunkIsRequired quotedInput.sorted longHunk.1 = false ∧
      byteSize (Json.array PackageOmission.json
        [omissionOf zeroSha256 quotedInput.sorted longHunk]).render ≤ 425 ∧
      [omissionOf zeroSha256 quotedInput.sorted longHunk].map (·.source) = ["diff:hunk:1"] :=
  ⟨by decide +kernel, by decide +kernel, by decide +kernel, by decide +kernel⟩

section Small

variable {sha256 : Sha256} {input : ReviewPackageInput} {disclosed : List Char}
  {omissions : List PackageOmission} {d : Disclosure} {bound : ℕ}

theorem settlePrompt_of_small {n : ℕ}
    {hle : n ≤ promptSize (requestOfSize sha256 input disclosed omissions n)}
    (hbase : promptSize (requestOfSize sha256 input disclosed omissions 0) + 6 ≤ bound)
    (hbound : bound < 10000) (hn : n < 10000) :
    ∃ request, settlePrompt sha256 input disclosed omissions n hle = .ok request ∧
      promptSize request ≤ bound ∧ request.disclosedDiff = String.ofList disclosed ∧
      request.manifest.omissions = omissions := by
  have hsize (n : ℕ) (hn : n < 10000) :
      promptSize (requestOfSize sha256 input disclosed omissions n) ≤ bound := by
    have hprompt := promptSize_requestOfSize sha256 input disclosed omissions n
    have htotal : (Nat.toDigits 10 n).length ≤ 4 := by
      rw [Nat.length_toDigits_le_iff (by decide) (by decide)]
      omega
    have hestimated : (Nat.toDigits 10 ((n + 3) / 4)).length ≤ 4 := by
      rw [Nat.length_toDigits_le_iff (by decide) (by decide)]
      omega
    omega
  have hmax : 10000 + 3 ≤ maxU64 := by decide
  fun_induction settlePrompt with
  | case1 n hle e hestimated =>
    rw [estimateTokens, checkedAdd, if_pos (by omega)] at hestimated
    cases hestimated
  | case2 n hle estimated hestimated actual hover =>
    have hactual : actual ≤ bound := hsize n hn
    omega
  | case3 n hle estimated hestimated actual hover heq => exact ⟨_, rfl, hsize n hn, rfl, rfl⟩
  | case4 n hle estimated hestimated actual hover hne ih =>
    have hactual : actual ≤ bound := hsize n hn
    exact ih (by omega)

theorem promptSize_provisional :
    promptSize (requestOfSize sha256 input disclosed omissions 0) + 4 =
      promptSize (requestWithManifest input disclosed [] 0 0 "") + 73 +
        byteSize (Json.array PackageOmission.json omissions).render := by
  have hhash : byteSize (Json.str (contentHash sha256
      (packageIdentity sha256 input disclosed omissions 0 0).render)).render = 73 :=
    byteSize_renderStr_contentHash _ _
  have hzero : (0 + 3) / 4 = 0 := rfl
  have hempty : byteSize (Json.str "").render = 2 ∧
      byteSize (Json.array PackageOmission.json []).render = 2 := by
    decide
  have hnames :
      (requestOfSize sha256 input disclosed omissions 0).manifest.json.members.map Prod.fst =
        (requestWithManifest input disclosed [] 0 0 "").manifest.json.members.map Prod.fst :=
    rfl
  have hmanifest := Json.byteSize_render_obj_add hnames
  simp only [requestOfSize, requestWithManifest, ReviewPackageManifest.json, Json.members,
    Json.valuesSize_cons, Json.valuesSize_nil, hzero, hhash, hempty] at hmanifest
  have hprompt := promptSize_add_manifest
    (show requestOfSize sha256 input disclosed omissions 0 =
      { requestWithManifest input disclosed [] 0 0 "" with
        manifest := (requestOfSize sha256 input disclosed omissions 0).manifest } from rfl)
  simp only [requestOfSize, requestWithManifest, ReviewPackageManifest.json, hzero] at hprompt ⊢
  omega

theorem evict_of_small (hdisclosed : flatten d.disclosed ≠ [])
    (hbase : promptSize (requestOfSize sha256 input (flatten d.disclosed) d.omissions 0) + 6 ≤ bound)
    (hbound : bound < 10000) (hfits : ∀ size ≤ bound, fits input.budget size = .ok true) :
    ∃ request, evict sha256 input d = .ok request ∧
      request.disclosedDiff = String.ofList (flatten d.disclosed) ∧
      request.manifest.omissions = d.omissions := by
  obtain ⟨request, hsettled, hsize, hkept⟩ :=
    settlePrompt_of_small hbase hbound (Nat.zero_lt_succ 9999)
  refine ⟨request, ?_, hkept⟩
  rw [evict, if_neg fun h ↦ hdisclosed h.2]
  beta_reduce
  rw [hsettled, ok_bind, hfits _ hsize, ok_bind]
  rfl

end Small

section Cited

variable {sha256 : Sha256} {q : PathQuoting} {patches : List FilePatch} {hunk : Hunk}
  {omissions : List PackageOmission}

theorem citedInput_documents (q : PathQuoting) (patches : List FilePatch) :
    containsSecret (encodeUtf8 (citedInput q patches).sorted.documents.render) = false :=
  packages_measured.1

theorem promptSize_citedInput (q : PathQuoting) (patches : List FilePatch) :
    promptSize (requestWithManifest (citedInput q patches).sorted [] [] 0 0 "") = 3712 :=
  packages_measured.2.1

def provisionalSize (q : PathQuoting) (patches : List FilePatch) (disclosed : List Hunk)
    (omissions : List PackageOmission) : ℕ :=
  promptSize (requestWithManifest (citedInput q patches).sorted (flatten disclosed) omissions 0 0
    "")

theorem provisionalSize_nil (disclosed : List Hunk) :
    provisionalSize q patches disclosed [] =
      3711 + byteSize (Json.renderChars (flatten disclosed)) := by
  have hdisclosed := promptSize_disclosed (citedInput q patches).sorted (flatten disclosed) []
  rw [promptSize_citedInput] at hdisclosed
  rw [provisionalSize]
  omega

theorem fits_citedInput {size : ℕ} (hsize : size ≤ 4300) :
    fits (citedInput q patches).sorted.budget size = .ok true := by
  have hbytes : (citedInput q patches).sorted.budget.maxBytes = 4300 := rfl
  have htokens : (citedInput q patches).sorted.budget.maxEstimatedTokens = 10000 := rfl
  exact fits_eq_true (by unfold maxU64; omega) (hbytes ▸ hsize) (by omega)

theorem evict_citedInput (hdisclosed : flatten [hunk] ≠ [])
    (hsize : byteSize (Json.renderChars (flatten [hunk])) +
      byteSize (Json.array PackageOmission.json omissions).render ≤ 514) :
    ∃ request, evict sha256 (citedInput q patches).sorted ⟨[hunk], omissions⟩ = .ok request ∧
      request.disclosedDiff = String.ofList (flatten [hunk]) ∧
      request.manifest.omissions = omissions := by
  have hprompt := @promptSize_provisional sha256 (citedInput q patches).sorted (flatten [hunk])
    omissions
  have hprovisional := @provisionalSize_nil q patches [hunk]
  rw [provisionalSize] at hprovisional
  have hbase : promptSize (requestOfSize sha256 (citedInput q patches).sorted (flatten [hunk])
      omissions 0) + 6 ≤ 4300 := by
    omega
  exact evict_of_small hdisclosed hbase (by decide) fun _ ↦ fits_citedInput

end Cited

theorem exists_citedInput : ∃ request, buildReviewRequest lengthSha256
    (citedInput (quotePath false) [linePatch "é" ['x'] shortLine]) = .ok request := by
  have hchars := texts_measured.2.2
  have hprovisional :=
    @provisionalSize_nil (quotePath false) [linePatch "é" ['x'] shortLine] [citedHunk]
  have hempty : byteSize (Json.array PackageOmission.json []).render = 2 := by decide
  have hdisclosed : discloseHunk lengthSha256
      (citedInput (quotePath false) [linePatch "é" ['x'] shortLine]).sorted ⟨[], []⟩ citedHunk =
        .ok ⟨[citedHunk], []⟩ :=
    discloseHunk_of_fits (fits_citedInput (hprovisional.trans_le (by omega)))
  have hd : [citedHunk].foldlM (discloseHunk lengthSha256
      (citedInput (quotePath false) [linePatch "é" ['x'] shortLine]).sorted) ⟨[], []⟩ =
        .ok ⟨[citedHunk], []⟩ := by
    rw [foldlM_cons, hdisclosed, ok_bind, foldlM_nil]
    rfl
  obtain ⟨request, hevict, -⟩ : ∃ request, evict lengthSha256
      (citedInput (quotePath false) [linePatch "é" ['x'] shortLine]).sorted ⟨[citedHunk], []⟩ =
        .ok request ∧ _ :=
    evict_citedInput (cons_ne_nil _ _) (by omega)
  exact ⟨request, buildReviewRequest_of_steps rfl rfl (citedInput_documents _ _)
    packages_measured.2.2.2 (wholeHunks_writtenDiff _ _) hd hevict⟩

theorem provisionalSize_shortHunk :
    provisionalSize (quotePath true) quotedPatches [shortHunk] [] ≤ 3800 := by
  have hchars := texts_measured.2.1.2.2
  rw [provisionalSize_nil]
  omega

theorem provisionalSize_bothHunks :
    4300 < provisionalSize (quotePath true) quotedPatches [shortHunk, longHunk] [] ∧
      provisionalSize (quotePath true) quotedPatches [shortHunk, longHunk] [] ≤ maxU64 := by
  have hlower := Json.length_le_byteSize_renderChars (flatten [shortHunk, longHunk])
  have hupper := Json.byteSize_renderChars_le (flatten [shortHunk, longHunk])
  have hheader := texts_measured.1.2.1
  have hshort := texts_measured.2.1.1
  have hlength : (flatten [shortHunk, longHunk]).length =
      shortHunk.1.length + ((lineHeader (quotePath true) "é").length + (600 + 1)) := by
    rw [flatten, flatMap_cons, flatMap_singleton, length_append, longHunk,
      linePart_eq, length_append, length_append, length_replicate]
    rfl
  rw [provisionalSize_nil]
  unfold maxU64
  omega

theorem discloseHunk_shortHunk :
    discloseHunk zeroSha256 quotedInput.sorted ⟨[], []⟩ shortHunk = .ok ⟨[shortHunk], []⟩ :=
  discloseHunk_of_fits (fits_citedInput (provisionalSize_shortHunk.trans (by decide)))

theorem discloseHunk_longHunk :
    discloseHunk zeroSha256 quotedInput.sorted ⟨[shortHunk], []⟩ longHunk =
      .ok ⟨[shortHunk], [omissionOf zeroSha256 quotedInput.sorted longHunk]⟩ := by
  refine discloseHunk_of_over (fits_eq_false provisionalSize_bothHunks.2
    provisionalSize_bothHunks.1) longHunk_measured.2.1 ?_
  rw [byteSize_longHunk]
  decide

theorem evict_shortHunk : ∃ request, evict zeroSha256 quotedInput.sorted
      ⟨[shortHunk], [omissionOf zeroSha256 quotedInput.sorted longHunk]⟩ = .ok request ∧
    request.disclosedDiff = String.ofList (flatten [shortHunk]) ∧
    request.manifest.omissions = [omissionOf zeroSha256 quotedInput.sorted longHunk] := by
  have hchars := texts_measured.2.1.2.2
  have homission := longHunk_measured.2.2.1
  exact evict_citedInput (cons_ne_nil _ _) (by omega)

end FamiliarAi
