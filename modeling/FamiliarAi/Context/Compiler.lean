import FamiliarAi.Context.Basic
import Mathlib.Data.String.Basic

/-!
# Compiling an execution context

The context of a PRD is its text with the documents that the text refers to. A reference is a path
that the text spells out below the prefix of one of the roots of the profile; it must lead to a file
under the directory of its root, unless it is an output that the PRD plans and that does not exist yet.
Every file is included once, under the name that it has in the worktree.

What the compilation asks of the operating system and of Git are functions of a `ContextHost`.
-/

namespace FamiliarAi

open Text

/-- A path as it is handed to the system. -/
inductive PathBuf
  | given (text : OsString)
  | joined (base : CanonicalPath) (text : OsString)
  | canonical (path : CanonicalPath)
  deriving DecidableEq

structure IoError where
  notFound : Bool
  text : String
  deriving DecidableEq

structure GitOutput where
  success : Bool
  stdout : List UInt8
  stderr : List UInt8

/-- What the compilation asks of the system, with the state in which the repository is. -/
structure ContextHost where
  canonicalize : PathBuf → Except IoError CanonicalPath
  symlinkMetadata : PathBuf → Except IoError Unit
  isFile : CanonicalPath → Bool
  readToString : CanonicalPath → Except IoError String
  /-- Run Git in a directory. -/
  git : CanonicalPath → List String → Except IoError GitOutput
  /-- The front matter of a PRD. -/
  structuredPrdMetadata : String → Except String (Option PrdMetadata)

def osString (text : String) : OsString :=
  encodeUtf8 text.toList

def joinNames (path : CanonicalPath) : OsString :=
  [0x2F].intercalate path

def CanonicalPath.display (path : CanonicalPath) : String :=
  fromUtf8Lossy (0x2F :: joinNames path)

/-- What follows the last dot of the last name, if the dot is not the first byte of the name. -/
def CanonicalPath.extension (path : CanonicalPath) : Option OsString :=
  path.getLast?.bind fun name ↦
    let after := (name.reverse.takeWhile (· ≠ 0x2E)).reverse
    if name.length ≤ after.length + 1 then none else some after

structure ContextRequest where
  repository : OsString
  prd : OsString

inductive ContextCompilationError
  | repositoryInput (path : PathBuf) (source : IoError)
  | git (operation : String) (path : PathBuf) (detail : String)
  | invalidPrd (path : PathBuf) (detail : String)
  | readPrd (path : PathBuf) (source : IoError)
  | invalidReference (path detail : String)
  | missingReference (path : String)
  | readReference (path : PathBuf) (source : IoError)
  | tokenEstimateOverflow (path : String)
  | aggregateTokenOverflow
  deriving DecidableEq

namespace ContextCompiler

def orFail {ε α : Type} (result : Except ε α) (error : ε → ContextCompilationError) :
    Except ContextCompilationError α :=
  match result with
  | .ok a => .ok a
  | .error e => .error (error e)

variable (host : ContextHost)

/-! ### The PRD -/

def document (path : String) (kind : DocumentKind) (content : String) (inclusion : InclusionReason) :
    Except ContextCompilationError ContextDocument :=
  let estimatedTokens := Tokens.estimateTokens content
  if estimatedTokens ≤ maxU64 then .ok ⟨path, kind, content, inclusion, estimatedTokens⟩
  else .error (.tokenEstimateOverflow path)

/-- The output of a Git command that must succeed and print something. -/
def requiredGit (cwd : CanonicalPath) (args : List String) (operation : String) :
    Except ContextCompilationError String := do
  let failed := ContextCompilationError.git operation (.canonical cwd)
  let output ← orFail (host.git cwd args) fun e ↦ failed e.text
  if ¬output.success then
    throw (failed (String.ofList (trim (fromUtf8Lossy output.stderr).toList)))
  let value ← orFail (fromUtf8 output.stdout) failed
  let value := trim value.toList
  if value = [] then throw (failed "empty output")
  return String.ofList value

def optionalGit (cwd : CanonicalPath) (args : List String) : Option String :=
  match host.git cwd args with
  | .error _ => none
  | .ok output =>
    if ¬output.success then none
    else
      match fromUtf8 output.stdout with
      | .error _ => none
      | .ok value =>
        let value := trim value.toList
        if value = [] then none else some (String.ofList value)

/-- The file of the requested PRD, below the active directory. -/
def validatePrd (worktree input : CanonicalPath) (supplied : OsString) (activeDir : String) :
    Except ContextCompilationError CanonicalPath := do
  if supplied = [] then
    throw (.invalidPrd (.given supplied) "PRD path cannot be empty")
  let candidate := PathBuf.joined input supplied
  let path ← orFail (host.canonicalize candidate) fun e ↦
    .invalidPrd candidate ("cannot resolve path: " ++ e.text)
  let active := PathBuf.joined worktree (osString activeDir)
  let prdRoot ← orFail (host.canonicalize active) fun e ↦
    .invalidPrd active ("cannot resolve repository PRD directory: " ++ e.text)
  if ¬worktree <+: prdRoot then
    throw (.invalidPrd (.canonical prdRoot) "repository PRD directory escapes the worktree")
  if ¬prdRoot <+: path then
    throw (.invalidPrd (.canonical path) ("path must be contained in " ++ prdRoot.display))
  if ¬host.isFile path then
    throw (.invalidPrd (.canonical path) "path is not a regular file")
  if path.extension ≠ some (osString "md") then
    throw (.invalidPrd (.canonical path) "path must have a .md extension")
  return path

/-- The name of a file in the worktree. -/
def identity (worktree path : CanonicalPath) : Except String String :=
  match worktree.isPrefixOf? path with
  | some relative =>
    .ok (String.ofList ((fromUtf8Lossy (joinNames relative)).toList.map fun c ↦
      if c = '\\' then '/' else c))
  | none => .error "prefix not found"

/-- What is known before the references are looked for. -/
structure Opened where
  repository : RepositoryContext
  prd : ContextDocument
  plannedOutputs : List String

/-- Find the worktree and read the PRD. -/
def openPrd (request : ContextRequest) (profile : ContextProfile) :
    Except ContextCompilationError Opened := do
  let input ← orFail (host.canonicalize (.given request.repository))
    (.repositoryInput (.given request.repository))
  let worktree ← requiredGit host input ["rev-parse", "--show-toplevel"] "rev-parse --show-toplevel"
  let worktree ← orFail (host.canonicalize (.given (osString worktree)))
    (.repositoryInput (.canonical input))
  let common ← requiredGit host worktree ["rev-parse", "--git-common-dir"]
    "rev-parse --git-common-dir"
  let repository ← orFail (host.canonicalize (.joined worktree (osString common)))
    (.repositoryInput (.canonical worktree))
  let gitCommit := optionalGit host worktree ["rev-parse", "--verify", "HEAD"]
  let prdPath ← validatePrd host worktree input request.prd profile.activeDir
  let prdIdentity ← orFail (identity worktree prdPath) (.invalidPrd (.canonical prdPath))
  let prdContent ← orFail (host.readToString prdPath) (.readPrd (.canonical prdPath))
  let metadata ← orFail (host.structuredPrdMetadata prdContent) (.invalidPrd (.canonical prdPath))
  let prd ← document prdIdentity .prd prdContent .requestedPrd
  return {
    repository := ⟨repository, worktree, gitCommit⟩
    prd
    plannedOutputs := (metadata.map (·.expectedFiles)).getD [] }

/-- The characters that references are made of. -/
def isReferenceChar (c : Char) : Bool :=
  c.isAlphanum || c == '/' || c == '-' || c == '_' || c == '.'

def splitAtFirst (needle : List Char) : List Char → Option (List Char × List Char)
  | [] => if needle = [] then some ([], []) else none
  | c :: text =>
    if needle <+: c :: text then some ([], c :: text)
    else (splitAtFirst needle text).map fun (before, rest) ↦ (c :: before, rest)

/-- `trim_end_matches` of one character. -/
def trimEndMatches (c : Char) (text : List Char) : List Char :=
  (text.reverse.dropWhile (· = c)).reverse

/-- The references below one prefix, in the rounds of the search that `fuel` allows. A round in which
no character follows that belongs to a reference starts over where it is, and the search never ends. -/
def searchPrefix (needle : List Char) : ℕ → List Char → Option (List String)
  | 0, _ => none
  | fuel + 1, rest =>
    match splitAtFirst needle rest with
    | none => some []
    | some (before, rest) =>
      let reference := trimEndMatches '.' (rest.takeWhile isReferenceChar)
      let found :=
        if before.getLast?.all (!isReferenceChar ·) && decide (['.', 'm', 'd'] <:+ reference) then
          [String.ofList reference]
        else []
      (searchPrefix needle fuel (rest.dropWhile isReferenceChar)).map (found ++ ·)

/-- The references with the directory and the kind of the root that is the last to discover them. -/
abbrev References := Std.TreeMap String (String × DocumentKind) compare

/-- Add the references below a root. Every round but a stuck one uses up characters of the text. -/
def discoverRoot (content : String) (references : References)
    (root : String × String × DocumentKind) : Option References :=
  (searchPrefix root.1.toList (content.length + 1) content.toList).map fun found ↦
    found.foldl (fun references reference ↦ references.insert reference root.2) references

/-- The references of a text, unless the search for them does not end. -/
def discoverRoots (content : String) (roots : List (String × String × DocumentKind)) :
    Option References :=
  roots.foldlM (discoverRoot content) ∅

def documentKind : ContextReferenceKind → DocumentKind
  | .prd => .prd
  | .adr => .adr
  | .contract => .contract
  | .supporting => .supporting

def discoverProfiled (content : String) (roots : List ContextReferenceRoot) : Option References :=
  discoverRoots content <| roots.map fun root ↦
    (root.pathPrefix, String.ofList (trimEndMatches '/' root.pathPrefix.toList),
      documentKind root.kind)

/-- The file that a reference leads to, below the directory of its root. -/
def validateReference (worktree : CanonicalPath) (relative root : String) :
    Except ContextCompilationError CanonicalPath := do
  let path ← orFail (host.canonicalize (.joined worktree (osString relative))) fun e ↦
    if e.notFound then .missingReference relative
    else .invalidReference relative ("cannot be resolved: " ++ e.text)
  let allowed ← orFail (host.canonicalize (.joined worktree (osString root))) fun e ↦
    .invalidReference relative ("cannot resolve allowed documentation directory: " ++ e.text)
  if ¬worktree <+: allowed then
    throw (.invalidReference relative "allowed documentation directory escapes the worktree")
  if ¬allowed <+: path ∨ ¬host.isFile path then
    throw (.invalidReference relative
      "path escapes its documentation directory or is not a regular file")
  if path.extension ≠ some (osString "md") then
    throw (.invalidReference relative "path must have a .md extension")
  return path

/-- The reference is an output that the PRD plans and that does not exist. -/
def IsPlanned (start : Opened) (relative : String) : Prop :=
  relative ∈ start.plannedOutputs ∧
    match host.symlinkMetadata (.joined start.repository.worktree (osString relative)) with
    | .error e => e.notFound = true
    | .ok _ => False

instance (start : Opened) (relative : String) : Decidable (IsPlanned host start relative) :=
  match h : host.symlinkMetadata (.joined start.repository.worktree (osString relative)) with
  | .error e => decidable_of_iff (relative ∈ start.plannedOutputs ∧ e.notFound = true) (by
      rw [IsPlanned, h])
  | .ok _ => isFalse fun hplanned ↦ by
      rw [IsPlanned, h] at hplanned
      exact hplanned.2

/-- The files to include, each with its kind, by their names. -/
abbrev Documents := Std.TreeMap String (CanonicalPath × DocumentKind) compare

def includeReference (start : Opened) (validated : Documents)
    (reference : String × String × DocumentKind) : Except ContextCompilationError Documents :=
  if IsPlanned host start reference.1 then .ok validated
  else do
    let path ← validateReference host start.repository.worktree reference.1 reference.2.1
    let canonicalIdentity ← orFail (identity start.repository.worktree path)
      (.invalidReference reference.1)
    return validated.insertIfNew canonicalIdentity (path, reference.2.2)

def readDocument (start : Opened) (entry : String × CanonicalPath × DocumentKind) :
    Except ContextCompilationError ContextDocument := do
  let content ← orFail (host.readToString entry.2.1) (.readReference (.canonical entry.2.1))
  document entry.1 entry.2.2 content (.directReference start.prd.path)

def addEstimate (total : ℕ) (document : ContextDocument) : Except ContextCompilationError ℕ :=
  match checkedAdd total document.estimatedTokens with
  | some total => .ok total
  | none => .error .aggregateTokenOverflow

/-- Read the files that the references lead to. -/
def includeReferences (start : Opened) (references : References) :
    Except ContextCompilationError ExecutionContext := do
  let validated ← references.toList.foldlM (includeReference host start) ∅
  let documents ← validated.toList.mapM (readDocument host start)
  let estimatedTokens ← documents.foldlM addEstimate start.prd.estimatedTokens
  return { repository := start.repository, prd := start.prd, documents, estimatedTokens }

/-- The compilation, unless the search for references does not end. -/
def compileProfiled (request : ContextRequest) (profile : ContextProfile) :
    Option (Except ContextCompilationError ExecutionContext) :=
  match openPrd host request profile with
  | .error e => some (.error e)
  | .ok start =>
    (discoverProfiled start.prd.content profile.referenceRoots).map fun references ↦
      includeReferences host start references

end ContextCompiler

/-- What the configuration asks of a reference root: a path below the repository, with a slash at its
end. -/
def ContextReferenceRoot.Validated (root : ContextReferenceRoot) : Prop :=
  IsRepositoryPath (String.ofList (ContextCompiler.trimEndMatches '/' root.pathPrefix.toList)) ∧
    ['/'] <:+ root.pathPrefix.toList

instance : DecidablePred ContextReferenceRoot.Validated :=
  fun _ ↦ inferInstanceAs (Decidable (_ ∧ _))

end FamiliarAi
