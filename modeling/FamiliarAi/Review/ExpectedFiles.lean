import FamiliarAi.Text.Basic

/-!
# Expected Files

The closed grammar in which a PRD declares the paths it may change: exact files, and directories
with everything below them. The declaration is read from the one `## Expected Files` section of the
document.
-/

namespace FamiliarAi

open Text

/-- What an entry stands for. -/
inductive ExpectedMatchKind
  | exactFile
  | directory
  deriving DecidableEq

/-- A declared path with the line it was declared in. -/
structure ExpectedFileEntry where
  sourceLine : ℕ
  bulletText : String
  normalized : String
  matchKind : ExpectedMatchKind
  deriving DecidableEq

/-- The entry authorises the path. The directory itself is not below the directory. -/
def ExpectedFileEntry.Matches (entry : ExpectedFileEntry) (path : String) : Prop :=
  match entry.matchKind with
  | .exactFile => path = entry.normalized
  | .directory => StartsWith path entry.normalized ∧ entry.normalized.utf8ByteSize < path.utf8ByteSize

instance (entry : ExpectedFileEntry) : DecidablePred entry.Matches := fun path ↦ by
  unfold ExpectedFileEntry.Matches
  split <;> infer_instance

/-- The rule that a path expression violates. -/
inductive ScopePathRule
  | empty
  | absolutePath
  | backslash
  | whitespace
  | homeExpansion
  | variableExpansion
  | uriForm
  | unsupportedGlob
  | invalidComponent
  deriving DecidableEq

/-- The text of a violation. -/
def ScopePathRule.display : ScopePathRule → String
  | empty => "empty expression"
  | absolutePath => "absolute paths are not supported"
  | backslash => "backslashes are not supported"
  | whitespace => "whitespace-joined expressions are not supported"
  | homeExpansion => "home expansion is not supported"
  | variableExpansion => "variable expansion is not supported"
  | uriForm => "URI forms are not supported"
  | unsupportedGlob => "glob syntax other than a terminal '/**' is not supported"
  | invalidComponent => "empty, '.' or '..' path components are not supported"

/-- A path expression without its ending, which says what kind of entry it is. -/
def splitKind (expression : List Char) : List Char × ExpectedMatchKind :=
  match stripSuffix? ['/', '*', '*'] expression with
  | some body => (body, .directory)
  | none =>
    match stripSuffix? ['/'] expression with
    | some body => (body, .directory)
    | none => (expression, .exactFile)

/-- Read a path expression: `dir/**` and `dir/` are the directory `dir/`. -/
def normalizeScopePath (expression : String) :
    Except ScopePathRule (String × ExpectedMatchKind) :=
  let text := expression.toList
  if text = [] then .error .empty
  else if text.head? = some '/' then .error .absolutePath
  else if text.contains '\\' then .error .backslash
  else if text.any Text.isWhiteSpace then .error .whitespace
  else if text.head? = some '~' then .error .homeExpansion
  else if text.contains '$' then .error .variableExpansion
  else if text.contains ':' then .error .uriForm
  else
    let (body, kind) := splitKind text
    if body = [] then .error .invalidComponent
    else if body.any (['*', '?', '\x7b', '\x7d', '[', ']'].contains ·) then .error .unsupportedGlob
    else if (splitOn '/' body).any fun part ↦
        part = [] ∨ part = ['.'] ∨ part = ['.', '.'] then .error .invalidComponent
    else
      match kind with
      | .exactFile => .ok (String.ofList body, kind)
      | .directory => .ok (String.ofList (body ++ ['/']), kind)

/-- Why a document has no declaration. -/
inductive ExpectedFilesError
  | missingHeading
  | duplicateHeading (line : ℕ)
  | missingBulletList
  | noPathExpression (line : ℕ)
  | unclosedCodeSpan (line : ℕ)
  | emptyExpression (line : ℕ)
  | unsupportedExpression (line : ℕ) (expression : String) (rule : ScopePathRule)
  | duplicateExpression (line : ℕ) (normalized : String)
  deriving DecidableEq

def ExpectedFilesError.display : ExpectedFilesError → String
  | missingHeading => "no authoritative `## Expected Files` heading found"
  | duplicateHeading line => "duplicate `## Expected Files` heading at line " ++ toString line
  | missingBulletList => "Expected Files section contains no top-level bullet list"
  | noPathExpression line =>
    "bullet at line " ++ toString line ++ " has no inline-code path expression"
  | unclosedCodeSpan line =>
    "bullet at line " ++ toString line ++ " contains an unclosed inline-code span"
  | emptyExpression line => "bullet at line " ++ toString line ++ " has an empty path expression"
  | unsupportedExpression line expression rule =>
    "bullet at line " ++ toString line ++ " has unsupported path expression '" ++ expression ++
      "': " ++ rule.display
  | duplicateExpression line normalized =>
    "bullet at line " ++ toString line ++ " duplicates normalized expression '" ++ normalized ++ "'"

def isSectionHeading (line : List Char) : Bool :=
  match stripPrefix? "## ".toList line with
  | some text => trim text = "Expected Files".toList
  | none => false

def isNextHeading (line : List Char) : Bool :=
  ("# ".toList.isPrefixOf line || "## ".toList.isPrefixOf line) && !"###".toList.isPrefixOf line

def sectionLines (numbered : List (List Char × ℕ)) :
    Except ExpectedFilesError (List (List Char × ℕ)) :=
  match numbered.filter fun l ↦ isSectionHeading l.1 with
  | [] => .error .missingHeading
  | [heading] => .ok ((numbered.drop heading.2).takeWhile fun l ↦ !isNextHeading l.1)
  | _ :: second :: _ => .error (.duplicateHeading second.2)

/-- Why a block of text has no path expression. -/
inductive SpanError
  | none
  | unclosed

/-- The text between the first two backquotes. -/
def firstCodeSpan (block : List Char) : Except SpanError (List Char) :=
  let backquote := Char.ofNat 96
  match block.dropWhile (· ≠ backquote) with
  | [] => .error .none
  | _ :: rest =>
    if rest.contains backquote then .ok (rest.takeWhile (· ≠ backquote)) else .error .unclosed

/-- Read one bullet: the block that starts at `line`, after the entries before it. -/
def readBullet (line : ℕ) (bullet block : List Char) (entries : List ExpectedFileEntry) :
    Except ExpectedFilesError (List ExpectedFileEntry) := do
  let expression ← match firstCodeSpan block with
    | .ok expression => .ok expression
    | .error .none => .error (.noPathExpression line)
    | .error .unclosed => .error (.unclosedCodeSpan line)
  if expression = [] then .error (.emptyExpression line)
  let expression := String.ofList expression
  let (normalized, kind) ← match normalizeScopePath expression with
    | .ok r => .ok r
    | .error .empty => .error (.emptyExpression line)
    | .error rule => .error (.unsupportedExpression line expression rule)
  if entries.any (·.normalized = normalized) then .error (.duplicateExpression line normalized)
  else .ok (entries ++ [⟨line, String.ofList bullet, normalized, kind⟩])

def readBullets : List (List Char × ℕ) → List ExpectedFileEntry →
    Except ExpectedFilesError (List ExpectedFileEntry)
  | [], entries => .ok entries
  | (line, number) :: rest, entries =>
    if !"- ".toList.isPrefixOf line then readBullets rest entries
    else
      let further := rest.takeWhile fun l ↦
        !"- ".toList.isPrefixOf l.1 && !(trim l.1).isEmpty
      let block := line ++ further.flatMap fun l ↦ '\n' :: l.1
      match readBullet number line block entries with
      | .ok entries => readBullets rest entries
      | .error e => .error e

/-- Read the declaration of a document. -/
def parseExpectedFiles (content : String) : Except ExpectedFilesError (List ExpectedFileEntry) := do
  let numbered ← sectionLines ((lines content.toList).zipIdx 1)
  let entries ← readBullets numbered []
  if entries = [] then .error .missingBulletList else .ok entries

end FamiliarAi
