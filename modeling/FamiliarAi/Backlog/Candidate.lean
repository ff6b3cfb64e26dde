import FamiliarAi.Backlog.FrontMatter
import FamiliarAi.Review.Wire

/-!
# Documents of PRDs

A file in the backlog is read as a PRD: its name gives the identity, its front matter or the
metadata in its body the dependencies, its heading the title. Only canonical documents have metadata
in the body.
-/

namespace FamiliarAi

open Text Except

variable {prd : DiscoveredPrd} {heading : List Char}

inductive PrdMetadataPolicy
  | incremental
  | strict
  deriving DecidableEq

structure BacklogLayout where
  profile : BacklogProfile
  activeDir : RepositoryPath
  archivedDir : RepositoryPath
  metadataPolicy : PrdMetadataPolicy
  /-- The values that `risk_classes` may have. -/
  riskVocabulary : List String

/-- What is found at the path of a candidate. A regular file is read after its name. -/
inductive CandidateFile
  | uninspectable (message : String)
  | symlink
  | irregular
  | regular (read : Except String (List UInt8))

def inspectFile (relative : String) :
    CandidateFile → Except (Halt BacklogError) (Except String (List UInt8))
  | .uninspectable message => reject relative ("cannot inspect file: " ++ message)
  | .symlink => reject relative "matching symlinks are forbidden"
  | .irregular => reject relative "matching entry is not a regular file"
  | .regular read => .ok read

def readFile (relative : String) :
    Except String (List UInt8) → Except (Halt BacklogError) (List Char)
  | .ok bytes => orReject relative "content is not valid UTF-8" (decodeUtf8? bytes)
  | .error message => reject relative ("cannot read file: " ++ message)

def RepositoryPath.new (path : String) : Except BacklogError RepositoryPath :=
  if h : IsRepositoryPath path then .ok ⟨path, h⟩
  else .error (.discovery ("invalid repository-relative path '" ++ path ++ "'"))

def IsBodyMetadata (line : List Char) : Prop :=
  line = "## Expected Files".toList ∨ line = "## Acceptance Criteria".toList ∨
    "**Status:**".toList <+: line ∨ "**Depends on:**".toList <+: line

instance IsBodyMetadata.decidable : DecidablePred IsBodyMetadata :=
  fun _ ↦ inferInstanceAs (Decidable (_ ∨ _ ∨ _ ∨ _))

def checkBody (relative : String) (document : List Char) : Except (Halt BacklogError) Unit :=
  (lines document).forM fun raw ↦
    let line := trimEnd (· = '\r') raw
    rejectUnless (¬IsBodyMetadata line) relative
      ("contradictory body metadata '" ++ String.ofList line ++ "'")

def checkRiskClasses (relative : String) (riskVocabulary : List String) (metadata : PrdMetadata) :
    Except (Halt BacklogError) Unit :=
  metadata.riskClasses.forM fun riskClass ↦
    rejectUnless (riskClass ∈ riskVocabulary) relative
      ("risk class '" ++ riskClass ++ "' is not in the configured repository risk vocabulary")

def headingLine (document : List Char) : Option (List Char × List (List Char)) :=
  match (lines document).dropWhile fun line ↦ trimWhere (" \t\r".toList.contains ·) line = [] with
  | [] => none
  | heading :: rest => some ((stripSuffix? ['\r'] heading).getD heading, rest)

/-- The number, the suffix and the title of a canonical heading. -/
def parseHeading (relative : String) (heading : List Char) :
    Except (Halt BacklogError) (ℕ × Option Char × List Char) := do
  let body ← orReject relative "first nonblank content is not a PRD level-one heading"
    (stripPrefix? "# PRD-".toList heading)
  let (identity, title) ← orReject relative "heading must be '# PRD-<digits>: <title>'"
    (splitFirst? ": ".toList body)
  let digits := identity.takeWhile Char.isDigit
  let suffix ← orReject relative "heading has an invalid PRD identity"
    (idSuffix (identity.dropWhile Char.isDigit))
  rejectUnless (digits ≠ []) relative "heading has an invalid PRD identity"
  let number ← orReject relative "heading number overflows u64" (parseU64 digits)
  .ok (number, suffix, title)

/-- The value of `Depends on` among the bold fields below the heading. -/
def dependsOn (relative : String) :
    Option (List Char) → List (List Char) → Except (Halt BacklogError) (Option (List Char))
  | found, [] => .ok found
  | found, raw :: raws =>
    let line := (stripSuffix? ['\r'] raw).getD raw
    if trimWhere (" \t".toList.contains ·) line = [] then dependsOn relative found raws
    else
      match (stripPrefix? "**".toList line).bind (splitFirst? ":** ".toList) with
      | some (label, value) =>
        if label = "Depends on".toList then
          if found.isSome then reject relative "repeated Depends on field"
          else dependsOn relative (some value) raws
        else dependsOn relative found raws
      | none =>
        if "**Depends on".toList <+: line then reject relative "malformed Depends on field"
        else .ok found

/-- One element of the value of `Depends on`. An identity with the number of the PRD is taken for
the PRD itself. -/
def pushLegacyDependency (relative : String) (number : ℕ) (dependencies : List PrdId)
    (item : List Char) : Except BacklogError (List PrdId) :=
  let token := trimWhere (" \t".toList.contains ·) item
  if token = [] then .error (malformed relative "empty dependency list element")
  else pushDependency relative .canonical (·.number = number) dependencies (String.ofList token)

def legacyDependencies (relative : String) (number : ℕ) (value : List Char) :
    Except BacklogError (List PrdId) :=
  if value = "none".toList then .ok []
  else do
    let dependencies ← (splitOn ',' value).foldlM (pushLegacyDependency relative number) []
    .ok (dependencies.insertionSort PrdId.LE)

def checkFrontMatterId (relative : String) (number : ℕ) (suffix : Option Char) :
    Option ParsedFrontMatter → Except (Halt BacklogError) Unit
  | none => .ok ()
  | some front =>
    rejectUnless (front.id.number = number ∧ front.id.suffix = suffix) relative
      ("front matter identity " ++ front.id.display ++ " does not match filename identity")

/-! ### Candidates -/

/-- What a document is about, apart from what its profile makes of it. -/
structure Candidate where
  relative : String
  location : PrdLocation
  number : ℕ
  suffix : Option Char
  width : ℕ
  contentHash : String
  structured : Option ParsedFrontMatter

/-- The dependencies of a canonical document. Those in its front matter are authoritative. -/
def Candidate.dependencies (c : Candidate) (value : Option (List Char)) :
    Except (Halt BacklogError) (List PrdId) :=
  match c.structured, value with
  | some front, _ => .ok front.dependencies
  | none, some value => (legacyDependencies c.relative c.number value).orHalt
  | none, none => .ok []

/-- What is left of `parse_candidate` below the heading of a canonical document. -/
def parseCanonicalContent (c : Candidate) (heading : List Char) (body : List (List Char)) :
    Except (Halt BacklogError) DiscoveredPrd := do
  let (headingNumber, headingSuffix, title) ← parseHeading c.relative heading
  rejectUnless (headingNumber = c.number ∧ headingSuffix = c.suffix) c.relative
    ("heading identity PRD-" ++ toString headingNumber ++ " does not match filename PRD-" ++
      toString c.number)
  rejectUnless (¬(trim title = [] ∨ title.any ("\t\r\n".toList.contains ·))) c.relative
    "title is empty or contains forbidden whitespace"
  let value ← dependsOn c.relative none body
  rejectUnless (¬(c.structured.isSome ∧ value.isSome)) c.relative <|
    "contradictory body metadata: Depends on is forbidden when structured front matter is present"
  let dependencies ← c.dependencies value
  checkFrontMatterId c.relative c.number c.suffix c.structured
  let path ← (RepositoryPath.new c.relative).orHalt
  .ok
    { id := ⟨c.number, c.suffix, .canonical⟩
      number := c.number
      path
      location := c.location
      title := String.ofList title
      dependencies
      metadata := (c.structured.map (·.metadata)).getD {}
      contentHash := c.contentHash }

def parseNumberedSlugContent (c : Candidate) (heading : List Char) :
    Except (Halt BacklogError) DiscoveredPrd := do
  let body ← orReject c.relative
    "first nonblank content is not a numbered-slug PRD level-one heading"
    (stripPrefix? "# PRD ".toList heading)
  let (identity, title) ← orReject c.relative "heading separator must be an em-dash or colon"
    ((splitFirst? " — ".toList body).or (splitFirst? ": ".toList body))
  let headingSuffix ← orReject c.relative "heading has an invalid PRD identity"
    (idSuffix (identity.dropWhile Char.isDigit))
  let headingNumber ← orReject c.relative "heading has an invalid PRD identity"
    (parseU64 (identity.takeWhile Char.isDigit))
  rejectUnless (headingNumber = c.number ∧ headingSuffix = c.suffix) c.relative
    ("heading identity PRD " ++ String.ofList identity ++ " does not match filename identity")
  rejectUnless (trim title ≠ []) c.relative "title must not be empty"
  checkFrontMatterId c.relative c.number c.suffix c.structured
  let path ← (RepositoryPath.new c.relative).orHalt
  .ok
    { id := ⟨c.number, c.suffix, .numberedSlug c.width⟩
      number := c.number
      path
      location := c.location
      title := String.ofList title
      dependencies := (c.structured.map (·.dependencies)).getD []
      metadata := (c.structured.map (·.metadata)).getD {}
      contentHash := c.contentHash }

section Parse

variable (sha256 : Sha256) (layout : BacklogLayout)

def parseCandidate (file : CandidateFile) (relative name : String) (location : PrdLocation) :
    Except (Halt BacklogError) DiscoveredPrd := do
  let read ← inspectFile relative file
  let identity ← orPanic (filenameIdentity name layout.profile)
  let (number, suffix, width) ← (identity.mapError (malformed relative)).orHalt
  let text ← readFile relative read
  let content := (stripPrefix? ['\uFEFF'] text).getD text
  let (structured, document) ← parseFrontMatter content relative
  rejectUnless (¬(structured.isNone ∧ layout.metadataPolicy = .strict)) relative
    "missing structured PRD front matter (policy=strict)"
  structured.forM fun front ↦ checkRiskClasses relative layout.riskVocabulary front.metadata
  structured.forM fun _ ↦ checkBody relative document
  let (heading, body) ← orReject relative "missing level-one heading" (headingLine document)
  let candidate : Candidate :=
    { relative, location, number, suffix, width, structured
      contentHash := String.ofList ((sha256 text).toList.flatMap hexByte) }
  match layout.profile with
  | .canonical => parseCanonicalContent candidate heading body
  | .numberedSlug => parseNumberedSlugContent candidate heading

end Parse

theorem RepositoryPath.new_eq_ok {text : String} {path : RepositoryPath}
    (h : RepositoryPath.new text = .ok path) : path.text = text := by
  unfold RepositoryPath.new at h
  split_ifs at h
  rw [← Except.ok.inj h]

variable {c : Candidate}

theorem parseCanonicalContent_eq_ok {body : List (List Char)}
    (h : parseCanonicalContent c heading body = .ok prd) :
    prd.path.text = c.relative ∧ prd.id.key = (c.number, c.suffix) ∧ prd.location = c.location := by
  unfold parseCanonicalContent at h
  obtain ⟨⟨headingNumber, headingSuffix, title⟩, -, h⟩ := bind_eq_ok.1 h
  obtain ⟨_, -, h⟩ := bind_eq_ok.1 h
  obtain ⟨_, -, h⟩ := bind_eq_ok.1 h
  obtain ⟨value, -, h⟩ := bind_eq_ok.1 h
  obtain ⟨_, -, h⟩ := bind_eq_ok.1 h
  obtain ⟨dependencies, -, h⟩ := bind_eq_ok.1 h
  obtain ⟨_, -, h⟩ := bind_eq_ok.1 h
  obtain ⟨path, hpath, h⟩ := bind_eq_ok.1 h
  rw [← Except.ok.inj h]
  exact ⟨RepositoryPath.new_eq_ok (orHalt_eq_ok.1 hpath), rfl, rfl⟩

theorem parseNumberedSlugContent_eq_ok (h : parseNumberedSlugContent c heading = .ok prd) :
    prd.path.text = c.relative ∧ prd.id.key = (c.number, c.suffix) ∧ prd.location = c.location := by
  unfold parseNumberedSlugContent at h
  obtain ⟨body, -, h⟩ := bind_eq_ok.1 h
  obtain ⟨⟨identity, title⟩, -, h⟩ := bind_eq_ok.1 h
  obtain ⟨headingSuffix, -, h⟩ := bind_eq_ok.1 h
  obtain ⟨headingNumber, -, h⟩ := bind_eq_ok.1 h
  obtain ⟨_, -, h⟩ := bind_eq_ok.1 h
  obtain ⟨_, -, h⟩ := bind_eq_ok.1 h
  obtain ⟨_, -, h⟩ := bind_eq_ok.1 h
  obtain ⟨path, hpath, h⟩ := bind_eq_ok.1 h
  rw [← Except.ok.inj h]
  exact ⟨RepositoryPath.new_eq_ok (orHalt_eq_ok.1 hpath), rfl, rfl⟩

theorem parseCandidate_eq_ok {sha256 : Sha256} {layout : BacklogLayout} {file : CandidateFile}
    {relative name : String} {location : PrdLocation}
    (h : parseCandidate sha256 layout file relative name location = .ok prd) :
    prd.path.text = relative ∧ prd.location = location ∧
      ∃ width, filenameIdentity name layout.profile =
        some (.ok (prd.id.number, prd.id.suffix, width)) := by
  unfold parseCandidate at h
  obtain ⟨read, -, h⟩ := bind_eq_ok.1 h
  obtain ⟨identity, hidentity, h⟩ := bind_eq_ok.1 h
  obtain ⟨⟨number, suffix, width⟩, hnumber, h⟩ := bind_eq_ok.1 h
  obtain ⟨text, -, h⟩ := bind_eq_ok.1 h
  obtain ⟨⟨structured, document⟩, -, h⟩ := bind_eq_ok.1 h
  obtain ⟨_, -, h⟩ := bind_eq_ok.1 h
  obtain ⟨_, -, h⟩ := bind_eq_ok.1 h
  obtain ⟨_, -, h⟩ := bind_eq_ok.1 h
  obtain ⟨⟨heading, body⟩, -, h⟩ := bind_eq_ok.1 h
  rw [orPanic_eq_ok] at hidentity
  rw [orHalt_eq_ok, mapError_eq_ok] at hnumber
  rw [hidentity, hnumber]
  have hprd : prd.path.text = relative ∧ prd.id.key = (number, suffix) ∧
      prd.location = location := by
    cases hprofile : layout.profile with
    | canonical =>
      rw [hprofile] at h
      exact parseCanonicalContent_eq_ok h
    | numberedSlug =>
      rw [hprofile] at h
      exact parseNumberedSlugContent_eq_ok h
  obtain ⟨hpath, hkey, hlocation⟩ := hprd
  obtain ⟨rfl, rfl⟩ := Prod.mk.inj hkey
  exact ⟨hpath, hlocation, width, rfl⟩

end FamiliarAi
