import FamiliarAi.Review.Package

/-!
# What a package discloses

A package that is built discloses a part of the hunks of the diff in the order of the diff and lists
every other hunk once among its omissions (`buildReviewRequest_eq_ok`). Its manifest states the size
of the prompt that it is a part of, and this size is within the budget.

The invariant of the construction is `Partitions`: the hunks that have been looked at are those that
are disclosed and those that are listed.
-/

namespace FamiliarAi

open Text Except List

variable {budget : ReviewPackageBudget} {size : ℕ}

/-! ### Sizes -/

theorem estimateTokens_eq_ok {bytes estimated : ℕ} (h : estimateTokens bytes = .ok estimated) :
    estimated = (bytes + 3) / 4 := by
  unfold estimateTokens at h
  split at h
  · rename_i v hv
    obtain ⟨rfl, -⟩ := checkedAdd_eq_some hv
    exact (ok.inj h).symm
  · cases h

theorem fits_eq_ok_true (h : fits budget size = .ok true) :
    size ≤ budget.maxBytes ∧ (size + 3) / 4 ≤ budget.maxEstimatedTokens := by
  obtain ⟨bytes, hbytes, h⟩ := bind_eq_ok.1 h
  unfold sizeU64 at hbytes
  split_ifs at hbytes
  obtain rfl := ok.inj hbytes
  split_ifs at h with hle
  · obtain ⟨estimated, hestimated, h⟩ := bind_eq_ok.1 h
    obtain rfl := estimateTokens_eq_ok hestimated
    exact ⟨hle, of_decide_eq_true (ok.inj h)⟩
  · cases ok.inj h

theorem fits_eq_true (hmax : size + 3 ≤ maxU64) (hbytes : size ≤ budget.maxBytes)
    (htokens : (size + 3) / 4 ≤ budget.maxEstimatedTokens) :
    fits budget size = .ok true := by
  have hsize : sizeU64 size = .ok size := if_pos (Nat.le_of_add_right_le hmax)
  have hestimate : estimateTokens size = .ok ((size + 3) / 4) := by
    rw [estimateTokens, checkedAdd, if_pos hmax]
  rw [fits, hsize]
  show (if size ≤ budget.maxBytes then _ else _) = _
  rw [if_pos hbytes, hestimate]
  exact congrArg ok (decide_eq_true htokens)

theorem fits_eq_false (hmax : size ≤ maxU64) (hbytes : budget.maxBytes < size) :
    fits budget size = .ok false := by
  have hsize : sizeU64 size = .ok size := if_pos hmax
  rw [fits, hsize]
  exact if_neg (Nat.not_le.2 hbytes)

section Build

variable {sha256 : Sha256} {input : ReviewPackageInput} {request : ReviewRequest} {hunk : Hunk}
  {d : Disclosure} {texts : List (List Char)} {seen omitted : List Hunk}

/-- **The stated size is the size.** -/
theorem settlePrompt_eq_ok {disclosed : List Char} {omissions : List PackageOmission}
    {totalBytes : ℕ}
    {hle : totalBytes ≤ promptSize (requestOfSize sha256 input disclosed omissions totalBytes)}
    (h : settlePrompt sha256 input disclosed omissions totalBytes hle = .ok request) :
    ∃ size, request = requestOfSize sha256 input disclosed omissions size ∧
      promptSize request = size ∧ estimateTokens size = .ok ((size + 3) / 4) := by
  fun_induction settlePrompt with
  | case1 => cases h
  | case2 => cases h
  | case3 totalBytes hle estimated hestimated actual hover heq =>
    obtain rfl := ok.inj h
    exact ⟨totalBytes, rfl, heq, by rw [hestimated, estimateTokens_eq_ok hestimated]⟩
  | case4 totalBytes hle estimated hestimated actual hover hne ih => exact ih h

theorem removeLargest_sublist {hunks rest : List Hunk} (h : removeLargest hunks = some (hunk, rest)) :
    rest.Sublist hunks := by
  induction hunks generalizing hunk rest with
  | nil => cases h
  | cons first hunks ih =>
    unfold removeLargest at h
    split at h
    · rename_i largest others hlargest
      split_ifs at h
      · cases h
        exact sublist_cons_self _ _
      · cases h
        exact (ih hlargest).cons_cons _
    · cases h
      exact nil_sublist _

def InOrder (hunks : List Hunk) : Prop :=
  hunks.Pairwise fun a b ↦ a.2 ≤ b.2

theorem inOrder_inDocumentOrder (hunks : List Hunk) : InOrder (inDocumentOrder hunks) := by
  have : Std.Total fun a b : Hunk ↦ a.2 ≤ b.2 := ⟨fun a b ↦ Nat.le_total a.2 b.2⟩
  have : IsTrans Hunk fun a b ↦ a.2 ≤ b.2 := ⟨fun _ _ _ ↦ Nat.le_trans⟩
  exact pairwise_insertionSort _ _

theorem InOrder.sublist {hunks : List Hunk} (horder : InOrder hunks)
    (h : hunks.Subperm texts.zipIdx) : hunks.Sublist texts.zipIdx := by
  have hstrict : texts.zipIdx.Pairwise fun a b ↦ a.2 < b.2 := by
    rw [← pairwise_map (f := Prod.snd), zipIdx_map_snd]
    exact pairwise_lt_range'
  have hdistinct : hunks.Pairwise fun a b ↦ a.2 ≠ b.2 := by
    obtain ⟨hunks', hperm, hsub⟩ := h
    exact (hperm.pairwise_iff fun h ↦ h.symm).1 ((hstrict.imp Nat.ne_of_lt).sublist hsub)
  have : Std.Antisymm fun a b : Hunk ↦ a.2 < b.2 :=
    ⟨fun _ _ hab hba ↦ absurd hab (Nat.lt_asymm hba)⟩
  refine sublist_of_subperm_of_pairwise (r := fun a b ↦ a.2 < b.2) h ?_ hstrict
  exact (horder.and hdistinct).imp fun h ↦ Nat.lt_of_le_of_ne h.1 h.2

variable (sha256 input) in
/-- The hunks that were looked at are those that are disclosed, in order, and those that are
listed. -/
structure Partitions (seen : List Hunk) (d : Disclosure) (omitted : List Hunk) : Prop where
  perm : (d.disclosed ++ omitted).Perm seen
  omissions : d.omissions.Perm (omitted.map (omissionOf sha256 input))
  inOrder : InOrder d.disclosed

theorem omissionFor_eq_ok {omission : PackageOmission}
    (h : omissionFor sha256 input hunk = .ok omission) :
    omission = omissionOf sha256 input hunk := by
  obtain ⟨_, -, h⟩ := bind_eq_ok.1 h
  exact (ok.inj h).symm

theorem sortOmissions_perm (omissions : List PackageOmission) :
    (sortOmissions omissions).Perm omissions :=
  perm_insertionSort _ _

theorem Partitions.discloseHunk {d d' : Disclosure}
    (hpartitions : Partitions sha256 input seen d omitted)
    (h : discloseHunk sha256 input d hunk = .ok d') :
    ∃ omitted', Partitions sha256 input (seen ++ [hunk]) d' omitted' := by
  obtain ⟨hperm, homissions, hinOrder⟩ := hpartitions
  obtain ⟨fit, -, h⟩ := bind_eq_ok.1 h
  split_ifs at h
  · -- The hunk takes its place among those that are disclosed.
    obtain rfl := ok.inj h
    refine ⟨omitted, ?_, homissions, inOrder_inDocumentOrder _⟩
    have hcandidate : (inDocumentOrder (d.disclosed ++ [hunk])).Perm (d.disclosed ++ [hunk]) :=
      perm_insertionSort _ _
    refine (hcandidate.append_right omitted).trans (.trans ?_ (hperm.append_right [hunk]))
    rw [append_assoc, append_assoc]
    exact perm_append_comm.append_left _
  · -- The hunk is listed.
    obtain ⟨omission, homission, h⟩ := bind_eq_ok.1 h
    obtain rfl := omissionFor_eq_ok homission
    obtain rfl := ok.inj h
    refine ⟨omitted ++ [hunk], ?_, ?_, hinOrder⟩
    · rw [← append_assoc]
      exact hperm.append_right _
    · rw [map_append]
      exact homissions.append_right _

theorem Partitions.foldlM {seen omitted hunks : List Hunk} {d d' : Disclosure}
    (hpartitions : Partitions sha256 input seen d omitted)
    (h : hunks.foldlM (FamiliarAi.discloseHunk sha256 input) d = .ok d') :
    ∃ omitted', Partitions sha256 input (seen ++ hunks) d' omitted' := by
  induction hunks generalizing seen omitted d with
  | nil =>
    obtain rfl := ok.inj h
    exact ⟨omitted, by rwa [append_nil]⟩
  | cons hunk hunks ih =>
    rw [foldlM_cons] at h
    obtain ⟨d₁, hd₁, h⟩ := bind_eq_ok.1 h
    obtain ⟨omitted₁, h₁⟩ := hpartitions.discloseHunk hd₁
    obtain ⟨omitted', h'⟩ := ih h₁ h
    exact ⟨omitted', by rwa [append_assoc] at h'⟩

theorem Partitions.sortOmissions (h : Partitions sha256 input seen d omitted) :
    Partitions sha256 input seen { d with omissions := FamiliarAi.sortOmissions d.omissions }
      omitted :=
  ⟨h.perm, (sortOmissions_perm _).trans h.omissions, h.inOrder⟩

theorem Partitions.evict {seen omitted rest : List Hunk}
    (h : Partitions sha256 input seen d omitted)
    (hlargest : removeLargest d.disclosed = some (hunk, rest)) :
    Partitions sha256 input seen ⟨rest, d.omissions ++ [omissionOf sha256 input hunk]⟩
      (omitted ++ [hunk]) := by
  refine ⟨?_, ?_, List.Pairwise.sublist (removeLargest_sublist hlargest) h.inOrder⟩
  · refine List.Perm.trans ?_ h.perm
    refine List.Perm.trans ?_ ((removeLargest_perm hlargest).append_right omitted)
    rw [← append_assoc, cons_append]
    exact perm_append_singleton _ _
  · rw [map_append]
    exact h.omissions.append_right _

/-! ### The package -/

variable (sha256 input) in
/-- The request discloses a part of the hunks and lists the rest, and its manifest states the size
of the prompt, which is within the budget. -/
structure Packages (hunks : List Hunk) (request : ReviewRequest) (d : Disclosure) (size : ℕ) :
    Prop where
  request_eq : request = requestOfSize sha256 input (flatten d.disclosed) d.omissions size
  partitions : ∃ omitted, Partitions sha256 input hunks d omitted
  nonempty : input.captured.bytes ≠ [] → flatten d.disclosed ≠ []
  size_eq : promptSize request = size
  estimated : estimateTokens size = .ok ((size + 3) / 4)
  size_le : size ≤ input.budget.maxBytes
  estimated_le : (size + 3) / 4 ≤ input.budget.maxEstimatedTokens

/-- **Eviction keeps the partition**, and it ends with a request that fits. -/
theorem evict_eq_ok {hunks omitted : List Hunk}
    (hpartitions : Partitions sha256 input hunks d omitted) (h : evict sha256 input d = .ok request)
    :
    ∃ d' size, Packages sha256 input hunks request d' size := by
  induction hlength : d.disclosed.length using Nat.strong_induction_on generalizing d omitted with
  | _ n ih =>
    rw [FamiliarAi.evict] at h
    obtain ⟨hempty, h⟩ := ite_throw_eq_ok.1 h
    obtain ⟨settled, hsettled, h⟩ := bind_eq_ok.1 h
    obtain ⟨fit, hfits, h⟩ := bind_eq_ok.1 h
    split_ifs at h with hfit
    · obtain rfl := ok.inj h
      obtain ⟨size, hrequest, hsize, hestimate⟩ := settlePrompt_eq_ok hsettled
      rw [hfit, hsize] at hfits
      obtain ⟨hle, hestimated⟩ := fits_eq_ok_true hfits
      exact ⟨d, size, hrequest, ⟨omitted, hpartitions⟩, fun hbytes hnil ↦ hempty ⟨hbytes, hnil⟩,
        hsize, hestimate, hle, hestimated⟩
    · split at h
      · cases h
      · -- The largest hunk goes, and there is one hunk less to go.
        rename_i hunk rest hlargest
        obtain ⟨-, h⟩ := ite_throw_eq_ok.1 h
        obtain ⟨omission, homission, h⟩ := bind_eq_ok.1 h
        obtain rfl := omissionFor_eq_ok homission
        have hrest := (removeLargest_perm hlargest).length_eq
        exact ih _ (by rw [← hlength, ← hrest]; exact Nat.lt_succ_self _)
          (hpartitions.evict hlargest).sortOmissions h rfl

theorem buildReviewRequest_steps (h : buildReviewRequest sha256 input = .ok request) :
    ∃ hunks d, wholeHunks input.captured.bytes = .ok hunks ∧
      (smallestFirst hunks.zipIdx).foldlM (discloseHunk sha256 input.sorted) ⟨[], []⟩ = .ok d ∧
      evict sha256 input.sorted { d with omissions := sortOmissions d.omissions } =
        .ok request := by
  unfold buildReviewRequest at h
  obtain ⟨-, h⟩ := ite_throw_eq_ok.1 h
  obtain ⟨-, h⟩ := ite_throw_eq_ok.1 h
  obtain ⟨_, -, h⟩ := bind_eq_ok.1 h
  obtain ⟨_, -, h⟩ := bind_eq_ok.1 h
  obtain ⟨hunks, hhunks, h⟩ := bind_eq_ok.1 h
  obtain ⟨d, hd, h⟩ := bind_eq_ok.1 h
  exact ⟨hunks, d, hhunks, hd, h⟩

theorem exists_packages (h : buildReviewRequest sha256 input = .ok request) :
    ∃ hunks d size, wholeHunks input.captured.bytes = .ok hunks ∧
      Packages sha256 input.sorted hunks.zipIdx request d size := by
  obtain ⟨hunks, d, hhunks, hd, hevict⟩ := buildReviewRequest_steps h
  have hnone : Partitions sha256 input.sorted [] ⟨[], []⟩ [] := ⟨.refl _, .refl _, .nil⟩
  obtain ⟨omitted, hpartitions⟩ := hnone.foldlM hd
  have hall : Partitions sha256 input.sorted hunks.zipIdx d omitted :=
    ⟨hpartitions.perm.trans (perm_insertionSort _ _), hpartitions.omissions, hpartitions.inOrder⟩
  obtain ⟨d', size, hpackages⟩ := evict_eq_ok hall.sortOmissions hevict
  exact ⟨hunks, d', size, hhunks, hpackages⟩

theorem nodup_sources {disclosed omitted : List Hunk} (h : (disclosed ++ omitted).Perm texts.zipIdx)
    :
    ((omitted.map (omissionOf sha256 input)).map (·.source)).Nodup := by
  have hpositions : ((disclosed ++ omitted).map Prod.snd).Nodup := by
    rw [(h.map Prod.snd).nodup_iff, zipIdx_map_snd]
    exact nodup_range'
  rw [map_append] at hpositions
  have homitted := (nodup_append.1 hpositions).2.1
  rw [map_map]
  refine List.Nodup.map_on ?_ (List.Nodup.of_map _ homitted)
  intro a ha b hb heq
  have hposition : a.2 = b.2 :=
    toString_nat_injective ((String.append_right_inj "diff:hunk:").1 heq)
  exact inj_on_of_nodup_map homitted ha hb hposition

/-- **What a package discloses.** The disclosed diff is a part of the hunks of the diff, in the
order of the diff; every other hunk is listed once, with its hash; something is disclosed of a diff
that is not empty; and the manifest states the size of the prompt, which is within the budget. -/
theorem buildReviewRequest_eq_ok {request : ReviewRequest}
    (h : buildReviewRequest sha256 input = .ok request) :
    ∃ (hunks : List (List Char)) (disclosed omitted : List Hunk),
      wholeHunks input.captured.bytes = .ok hunks ∧
      disclosed.Sublist hunks.zipIdx ∧ (disclosed ++ omitted).Perm hunks.zipIdx ∧
      request.disclosedDiff.toList = disclosed.flatMap (·.1) ∧
      request.manifest.omissions.Perm (omitted.map (omissionOf sha256 input)) ∧
      (request.manifest.omissions.map (·.source)).Nodup ∧
      (input.captured.bytes ≠ [] → request.disclosedDiff ≠ "") ∧
      request.manifest.totalBytes = byteSize (renderReviewPrompt request) ∧
      estimateTokens (byteSize (renderReviewPrompt request)) =
        .ok request.manifest.estimatedTokens ∧
      request.manifest.totalBytes ≤ input.budget.maxBytes ∧
      request.manifest.estimatedTokens ≤ input.budget.maxEstimatedTokens := by
  obtain ⟨hunks, d, size, hhunks, hpackages⟩ := exists_packages h
  obtain ⟨hrequest, ⟨omitted, hpartitions⟩, hnonempty, hsize, hestimate, hle, hestimated⟩ :=
    hpackages
  have hsubperm : d.disclosed.Subperm hunks.zipIdx :=
    (sublist_append_left d.disclosed omitted).subperm.trans hpartitions.perm.subperm
  have hsources := @nodup_sources sha256 input _ _ _ hpartitions.perm
  have homissions : request.manifest.omissions = d.omissions := by rw [hrequest]; rfl
  have hdisclosed : request.disclosedDiff.toList = flatten d.disclosed := by
    rw [hrequest]
    exact String.toList_ofList
  refine ⟨hunks, d.disclosed, omitted, hhunks, hpartitions.inOrder.sublist hsubperm,
    hpartitions.perm, hdisclosed, ?_, ?_, fun hbytes hempty ↦ ?_, ?_, ?_, ?_, ?_⟩
  · rw [homissions]
    exact hpartitions.omissions
  · rw [homissions, (hpartitions.omissions.map _).nodup_iff]
    exact hsources
  · rw [hempty] at hdisclosed
    exact hnonempty hbytes hdisclosed.symm
  · rw [byteSize_renderReviewPrompt, hsize, hrequest]
    rfl
  · rw [byteSize_renderReviewPrompt, hsize, hestimate, hrequest]
    rfl
  · rw [hrequest]
    exact hle
  · rw [hrequest]
    exact hestimated

end Build

section Progress

variable {sha256 : Sha256} {input : ReviewPackageInput} {bound : ℕ} {d : Disclosure} {hunk : Hunk}

theorem promptSize_disclosed (input : ReviewPackageInput) (disclosed : List Char)
    (omissions : List PackageOmission) :
    promptSize (requestWithManifest input disclosed omissions 0 0 "") + 1 =
      promptSize (requestWithManifest input [] omissions 0 0 "") +
        byteSize (Json.renderChars disclosed) := by
  have hnames :
      (requestWithManifest input disclosed omissions 0 0 "").json.members.map Prod.fst =
        (requestWithManifest input [] omissions 0 0 "").json.members.map Prod.fst :=
    rfl
  have hsize := Json.byteSize_render_obj_add hnames
  have hdiff : byteSize (Json.str (String.ofList disclosed)).render =
      byteSize (Json.renderChars disclosed) + 1 := by
    have hmark : Char.utf8Size '"' = 1 := by decide
    show byteSize ('"' :: Json.renderChars (String.ofList disclosed).toList) = _
    rw [String.toList_ofList, byteSize_cons, hmark, Nat.add_comm]
  have hempty : byteSize (Json.str (String.ofList [])).render = 2 := by decide
  simp only [requestWithManifest, ReviewRequest.json, Json.members, Json.valuesSize_cons,
    Json.valuesSize_nil, hdiff, hempty] at hsize
  simp only [promptSize, requestWithManifest, ReviewRequest.json]
  omega

theorem discloseHunk_of_fits
    (h : fits input.budget (promptSize (requestWithManifest input (flatten (inDocumentOrder (d.disclosed ++ [hunk]))) d.omissions 0 0 "")) = .ok true)
    :
    discloseHunk sha256 input d hunk =
      .ok { d with disclosed := inDocumentOrder (d.disclosed ++ [hunk]) } := by
  simp only [discloseHunk, h, ok_bind, if_true]
  rfl

theorem discloseHunk_of_over
    (h : fits input.budget (promptSize (requestWithManifest input (flatten (inDocumentOrder (d.disclosed ++ [hunk]))) d.omissions 0 0 "")) = .ok false)
    (hrequired : hunkIsRequired input hunk.1 = false) (hsize : byteSize hunk.1 ≤ maxU64) :
    discloseHunk sha256 input d hunk =
      .ok { d with omissions := d.omissions ++ [omissionOf sha256 input hunk] } := by
  have homission : omissionFor sha256 input hunk = .ok (omissionOf sha256 input hunk) := by
    rw [omissionFor, sizeU64, if_pos hsize]
    rfl
  simp only [discloseHunk, h, hrequired, homission, ok_bind, Bool.false_eq_true, if_false]
  rfl

theorem buildReviewRequest_of_steps {hunks : List (List Char)} {request : ReviewRequest}
    (htruncated : input.captured.diff.truncated = false)
    (hbase : input.captured.baseRevision = input.task.baseRevision)
    (hdocuments : containsSecret (encodeUtf8 input.sorted.documents.render) = false)
    (hdiff : containsSecret input.captured.bytes = false)
    (hhunks : wholeHunks input.captured.bytes = .ok hunks)
    (hd : (smallestFirst hunks.zipIdx).foldlM (discloseHunk sha256 input.sorted) ⟨[], []⟩ = .ok d)
    (hevict : evict sha256 input.sorted { d with omissions := sortOmissions d.omissions } = .ok request)
    :
    buildReviewRequest sha256 input = .ok request := by
  have hsorted : input.sorted.captured = input.captured ∧ input.sorted.task = input.task :=
    ⟨rfl, rfl⟩
  have htruncated' : ¬input.captured.diff.truncated = true := by
    rw [htruncated]
    exact Bool.false_ne_true
  simp only [buildReviewRequest, hsorted.1, hsorted.2, if_neg htruncated', if_neg (not_not.2 hbase),
    rejectSecrets, hdocuments, hdiff, hhunks, hd, hevict, ok_bind, Bool.false_eq_true,
    if_false]

end Progress

def hunkInput : ReviewPackageInput where
  reviewId := "r"
  task := ⟨"t", "o", [], "base", [], [], "v"⟩
  implementation := ⟨"a", "a", none, none, .implementation, none⟩
  reviewer := ⟨"b", "b", none, none, .review, none⟩
  candidateRevision := none
  captured :=
    { baseRevision := "base"
      resultingTree := "tree"
      changedFiles := []
      diff := ⟨"hash", "text/x-diff", 2, "repo", "base", "diff", false, 0⟩
      bytes := [97, 10] }
  contracts := []
  invariants := []
  verification := []
  priorFindings := []
  budget := ⟨10000, 10000⟩

/-- A digest function that tells some texts of different lengths apart. -/
def lengthSha256 : Sha256 :=
  fun text ↦ Vector.replicate 32 (UInt8.ofNat text.length)

theorem hunkInput_isOk : (buildReviewRequest lengthSha256 hunkInput).isOk = true := by
  decide +kernel

theorem buildReviewRequest_hunkInput :
    ∃ request, buildReviewRequest lengthSha256 hunkInput = .ok request ∧
      request.disclosedDiff ≠ "" ∧
      request.manifest.totalBytes = byteSize (renderReviewPrompt request) := by
  obtain ⟨request, h⟩ := exists_of_isOk hunkInput_isOk
  obtain ⟨hunks, disclosed, omitted, -, -, -, -, -, -, hnonempty, htotal, -⟩ :=
    buildReviewRequest_eq_ok h
  exact ⟨request, h, hnonempty (cons_ne_nil _ _), htotal⟩

end FamiliarAi
