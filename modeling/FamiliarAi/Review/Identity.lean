import FamiliarAi.Review.Disclosure

/-!
# The identity of a package

The manifest hash is the hash of a canonical manifest: the hash of the captured diff and of the
resulting tree, the names of the sources, the omissions, the size, and the hash of the disclosed diff.
Two packages with one manifest hash agree in all of these (`manifestHash_binds`). What the sources say
is not a part of the manifest; packages that differ in it only, at the same size, have one hash.
-/

namespace FamiliarAi

open Text

theorem EvidenceRef.json_injective : Function.Injective EvidenceRef.json := by
  rintro ⟨⟩ ⟨⟩ h
  simpa [EvidenceRef.json, Json.nat, Int.ofNat_inj] using h

theorem PackageOmission.json_injective : Function.Injective PackageOmission.json := by
  rintro ⟨source, contentHash, byteSize, reason, retainedRef⟩ ⟨⟩ h
  simp only [PackageOmission.json, Json.obj.injEq, List.cons.injEq, Prod.mk.injEq, Json.str.injEq,
    true_and, and_true] at h
  obtain ⟨rfl, rfl, hsize, rfl, hretained⟩ := h
  obtain rfl := Json.nat_injective hsize
  obtain rfl := Json.option_injective EvidenceRef.json_injective (fun _ ↦ nofun) hretained
  rfl

def ReviewRequest.identityText (sha256 : Sha256) (input : ReviewPackageInput)
    (request : ReviewRequest) : List Char :=
  (packageIdentity sha256 input.sorted request.disclosedDiff.toList request.manifest.omissions
    request.manifest.totalBytes request.manifest.estimatedTokens).render

variable {sha256 : Sha256} {input input' : ReviewPackageInput} {request request' : ReviewRequest}

theorem manifest_of_buildReviewRequest (h : buildReviewRequest sha256 input = .ok request) :
    request.manifest.includedSources = input.sorted.includedSources ∧
      request.diff = input.captured.diff ∧
      request.manifest.manifestHash = contentHash sha256 (request.identityText sha256 input) := by
  obtain ⟨_, d, size, -, hpackages⟩ := exists_packages h
  rw [hpackages.request_eq]
  refine ⟨rfl, rfl, ?_⟩
  simp only [ReviewRequest.identityText, requestOfSize, requestWithManifest, String.toList_ofList]

theorem contracts_of_buildReviewRequest (h : buildReviewRequest sha256 input = .ok request) :
    request.contracts = input.sorted.contracts := by
  obtain ⟨_, d, size, -, hpackages⟩ := exists_packages h
  rw [hpackages.request_eq]
  rfl

/-- **What the manifest hash binds.** Where the content hash has no collision among the texts that
the two packages hash, equal manifest hashes mean equal diffs, as captured and as disclosed, equal
trees, equal names of sources, equal omissions and equal sizes. -/
theorem manifestHash_binds (h : buildReviewRequest sha256 input = .ok request)
    (h' : buildReviewRequest sha256 input' = .ok request')
    (hinjective : Set.InjOn (contentHash sha256)
      {request.identityText sha256 input, request'.identityText sha256 input',
        request.disclosedDiff.toList, request'.disclosedDiff.toList})
    (hhash : request.manifest.manifestHash = request'.manifest.manifestHash) :
    request.disclosedDiff = request'.disclosedDiff ∧
      request.manifest.omissions = request'.manifest.omissions ∧
      request.manifest.includedSources = request'.manifest.includedSources ∧
      request.diff.contentHash = request'.diff.contentHash ∧
      input.captured.resultingTree = input'.captured.resultingTree ∧
      request.manifest.totalBytes = request'.manifest.totalBytes ∧
      request.manifest.estimatedTokens = request'.manifest.estimatedTokens := by
  obtain ⟨hsources, hdiff, hmanifest⟩ := manifest_of_buildReviewRequest h
  obtain ⟨hsources', hdiff', hmanifest'⟩ := manifest_of_buildReviewRequest h'
  rw [hmanifest, hmanifest'] at hhash
  have htext := hinjective (by simp) (by simp) hhash
  have hidentity := Json.render_injective htext
  simp only [packageIdentity, Json.arr.injEq, List.cons.injEq, Json.str.injEq, and_true]
    at hidentity
  obtain ⟨hcontent, htree, hincluded, homissions, htotal, hestimated, hdisclosed⟩ := hidentity
  refine ⟨?_, Json.array_injective PackageOmission.json_injective homissions, ?_, ?_, htree,
    Json.nat_injective htotal, Json.nat_injective hestimated⟩
  · exact String.toList_inj.1 (hinjective (by simp) (by simp) hdisclosed)
  · rw [hsources, hsources']
    exact Json.array_injective Json.str_injective hincluded
  · rw [hdiff, hdiff']
    exact hcontent

/-- A review of an empty diff with one document. -/
def contractInput (content : String) : ReviewPackageInput :=
  { hunkInput with
    captured := { hunkInput.captured with bytes := [] }
    contracts := [⟨"PRD.md", content, "", "frozen", 1⟩] }

/-- The parts of a package that its manifest hash is made of, with the hash. -/
def ReviewRequest.packed (request : ReviewRequest) :
    String × List PackageOmission × ℕ × ℕ × String :=
  (request.disclosedDiff, request.manifest.omissions, request.manifest.totalBytes,
    request.manifest.estimatedTokens, request.manifest.manifestHash)

/-- The second letter makes no difference to the size. -/
theorem packed_contractInput :
    (buildReviewRequest lengthSha256 (contractInput "a")).toOption.map ReviewRequest.packed =
        some ("", [], 3745, 937, contentHash (fun _ ↦ Vector.replicate 32 142) []) ∧
      (buildReviewRequest lengthSha256 (contractInput "b")).toOption.map ReviewRequest.packed =
        some ("", [], 3745, 937, contentHash (fun _ ↦ Vector.replicate 32 142) []) :=
  ⟨by decide +kernel, by decide +kernel⟩

theorem exists_packed {packed : String × List PackageOmission × ℕ × ℕ × String}
    (h : (buildReviewRequest sha256 input).toOption.map ReviewRequest.packed = some packed) :
    ∃ request, buildReviewRequest sha256 input = .ok request ∧ request.packed = packed := by
  obtain ⟨request, hrequest, hpacked⟩ := Option.map_eq_some_iff.1 h
  rcases hbuild : buildReviewRequest sha256 input with e | r
  · simp [hbuild, Except.toOption] at hrequest
  rw [hbuild] at hrequest
  obtain rfl := Option.some.inj hrequest
  exact ⟨r, rfl, hpacked⟩

theorem exists_contractInput :
    ∃ request request', buildReviewRequest lengthSha256 (contractInput "a") = .ok request ∧
      buildReviewRequest lengthSha256 (contractInput "b") = .ok request' ∧
      Set.InjOn (contentHash lengthSha256)
        {request.identityText lengthSha256 (contractInput "a"),
          request'.identityText lengthSha256 (contractInput "b"),
          request.disclosedDiff.toList, request'.disclosedDiff.toList} ∧
      request.manifest.manifestHash = request'.manifest.manifestHash ∧
      request.contracts ≠ request'.contracts := by
  obtain ⟨request, hrequest, hpacked⟩ := exists_packed packed_contractInput.1
  obtain ⟨request', hrequest', hpacked'⟩ := exists_packed packed_contractInput.2
  obtain ⟨hsources, -, hmanifest⟩ := manifest_of_buildReviewRequest hrequest
  have hcontracts := contracts_of_buildReviewRequest hrequest
  have hcontracts' := contracts_of_buildReviewRequest hrequest'
  simp only [ReviewRequest.packed, Prod.mk.injEq] at hpacked hpacked'
  obtain ⟨hdisclosed, homissions, htotal, hestimated, hhash⟩ := hpacked
  obtain ⟨hdisclosed', homissions', htotal', hestimated', hhash'⟩ := hpacked'
  -- The two identities are one text, and the empty text has another hash.
  have hidentity : request.identityText lengthSha256 (contractInput "a") =
      request'.identityText lengthSha256 (contractInput "b") := by
    rw [ReviewRequest.identityText, ReviewRequest.identityText, hdisclosed, hdisclosed', homissions,
      homissions', htotal, htotal', hestimated, hestimated']
    rfl
  have hempty : contentHash lengthSha256 (request.identityText lengthSha256 (contractInput "a")) ≠
      contentHash lengthSha256 [] := by
    rw [← hmanifest, hhash]
    decide
  refine ⟨request, request', hrequest, hrequest', ?_, by rw [hhash, hhash'], ?_⟩
  · rw [← hidentity, hdisclosed, hdisclosed']
    intro text htext text' htext' heq
    simp only [String.toList_empty, Set.mem_insert_iff, Set.mem_singleton_iff, or_self, or_self_left]
      at htext htext'
    rcases htext with rfl | rfl <;> rcases htext' with rfl | rfl
    · rfl
    · exact absurd heq hempty
    · exact absurd heq.symm hempty
    · rfl
  · rw [hcontracts, hcontracts']
    decide

theorem manifestHash_binds_contractInput :
    ∃ request request', buildReviewRequest lengthSha256 (contractInput "a") = .ok request ∧
      buildReviewRequest lengthSha256 (contractInput "b") = .ok request' ∧
      request.manifest.includedSources = request'.manifest.includedSources := by
  obtain ⟨request, request', h, h', hinjective, hhash, -⟩ := exists_contractInput
  exact ⟨request, request', h, h', (manifestHash_binds h h' hinjective hhash).2.2.1⟩

theorem manifestHash_leaves_contract_out :
    ∃ request request', buildReviewRequest lengthSha256 (contractInput "a") = .ok request ∧
      buildReviewRequest lengthSha256 (contractInput "b") = .ok request' ∧
      Set.InjOn (contentHash lengthSha256)
        {request.identityText lengthSha256 (contractInput "a"),
          request'.identityText lengthSha256 (contractInput "b"),
          request.disclosedDiff.toList, request'.disclosedDiff.toList} ∧
      request.manifest.manifestHash = request'.manifest.manifestHash ∧
      request.contracts ≠ request'.contracts :=
  exists_contractInput

end FamiliarAi
