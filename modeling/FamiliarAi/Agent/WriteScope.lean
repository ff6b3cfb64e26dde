import FamiliarAi.Agent.RunLoop
import FamiliarAi.Agent.TargetedEdits
import FamiliarAi.Files.Write
import FamiliarAi.Review.ExpectedFiles

/-!
# The write scope of a worker

An `apply-edit` call passes three tests of its path. The authoriser compares the path as it is
spelled with the Expected Files of the PRD; the executor resolves the path, refuses what lies
outside the worktree, and compares what is left with the same entries. Only then is the file read,
edited and written, under the path that was resolved.

Between two calls other tools and other processes may change the tree in any way; during a call
nobody does. The operating system's limits on the length of names are not modelled.
-/

namespace FamiliarAi

open Files Text

def IsFileName (text : List Char) : Prop :=
  text ≠ [] ∧ text ≠ ['.'] ∧ text ≠ ['.', '.'] ∧ '/' ∉ text ∧ Char.ofNat 0 ∉ text

instance : DecidablePred IsFileName := fun _ ↦
  inferInstanceAs (Decidable (_ ∧ _))

inductive FileName
  | utf8 (text : List Char) (isName : IsFileName text)
  | bytes (raw : List UInt8)
  deriving DecidableEq

/-- `Path::to_str`, of one name. -/
def FileName.toStr : FileName → Option (List Char)
  | utf8 text _ => some text
  | bytes _ => none

/-- What a file holds. -/
inductive FileContent
  | text (s : String)
  | bytes (raw : List UInt8)

abbrev FilePath := Path FileName

abbrev FileLocation := Location FileName

abbrev FileTree := Tree FileName FileContent

def pathSteps : List (List Char) → Option (List (Step FileName))
  | [] => some []
  | piece :: pieces =>
    if piece = [] ∨ piece = ['.'] then pathSteps pieces
    else if piece = ['.', '.'] then (pathSteps pieces).map (.parent :: ·)
    else if h : IsFileName piece then (pathSteps pieces).map (.name (.utf8 piece h) :: ·)
    else none

/-- The path that a text spells. The operating system takes no text with a NUL. -/
def pathOf (text : List Char) : Option FilePath :=
  let pieces := splitOn '/' text
  (pathSteps pieces).map fun steps ↦
    ⟨text.head? = some '/', steps,
      text ≠ [] ∧ (pieces.getLast? = some [] ∨ pieces.getLast? = some ['.'])⟩

/-- What the executor uses of the libraries around it. -/
structure EditPlatform extends Platform where
  /-- A path as `Path::display` shows it. -/
  displayPath : FilePath → String
  /-- A path as `Debug` prints it. -/
  debugPath : FilePath → String
  /-- The message of the JSON parser for a text it rejects. -/
  jsonError : String → String

def osMessage : OsError → String
  | .notFound => "No such file or directory (os error 2)"
  | .permissionDenied => "Permission denied (os error 13)"
  | .notADirectory => "Not a directory (os error 20)"
  | .isADirectory => "Is a directory (os error 21)"
  | .alreadyExists => "File exists (os error 17)"
  | .tooManyLinks => "Too many levels of symbolic links (os error 40)"
  | .invalidInput detail => detail

def ValidatedCall.strOrDefault (call : ValidatedCall) (name : String) : String :=
  ((call.arguments.get? name).bind JsonValue.asStr?).getD ""

structure ScopeAuthorizer where
  grantedCapabilities : List CapabilityId
  /-- Exact files or `dir/` prefixes a write may target. -/
  allowedWritePaths : List String
  allowedCommands : List String
  networkAllowed : Bool
  deriving DecidableEq

namespace ScopeAuthorizer

variable (authorizer : ScopeAuthorizer)

/-- The path, as it is spelled, is one of the entries, or a directory among them, or begins with
one. -/
def writePathAllowed (path : String) : Bool :=
  authorizer.allowedWritePaths.any fun entry ↦
    match stripSuffix? ['/'] entry.toList with
    | some dir => path.toList = dir ∨ StartsWith path entry
    | none => path = entry

def authorize (call : ValidatedCall) : AuthorizationDecision :=
  if !authorizer.grantedCapabilities.contains call.capability then
    .refused (.outOfAuthorityScope call.capability) .informModelAndContinue
  else
    match call.capability with
    | .applyEdit =>
      let path := call.strOrDefault "path"
      if !authorizer.writePathAllowed path then
        .refused (.outOfWriteScope path) .informModelAndContinue
      else .authorized
    | .runCommand =>
      let argv := ((call.arguments.get? "argv").bind JsonValue.asArray?).bind (·.head?)
      let command := (argv.bind JsonValue.asStr?).getD ""
      if !authorizer.allowedCommands.contains command then
        .refused (.commandDenied command) .informModelAndContinue
      else .authorized
    | _ => .authorized

end ScopeAuthorizer

/-- What the configuration says about the sandbox. -/
structure AgentRuntimeSandboxConfig where
  allowedCommands : List String
  networkAllowed : Bool

def writeScopeAuthorizerFromPrd (prdMarkdown : String) (grantedCapabilities : List CapabilityId)
    (sandbox : AgentRuntimeSandboxConfig) : Except String ScopeAuthorizer :=
  match parseExpectedFiles prdMarkdown with
  | .error error => .error error.display
  | .ok entries => .ok
      { grantedCapabilities
        allowedWritePaths := entries.map (·.normalized)
        allowedCommands := sandbox.allowedCommands
        networkAllowed := sandbox.networkAllowed }

/-! ### The executor -/

/-- The names of a location below another one, as one text with slashes between them. -/
def relativeText (root l : FileLocation) : Option (List Char) :=
  ((l.take (l.length - root.length)).reverse.mapM FileName.toStr).map (['/'].intercalate ·)

def replaceBackslashes (text : List Char) : List Char :=
  text.map fun c ↦ if c = '\\' then '/' else c

def resolvedEntryAllows (relative : List Char) (entry : String) : Bool :=
  entry.toList == relative ||
    match stripSuffix? ['/'] entry.toList with
    | some directory => relative == directory || entry.toList.isPrefixOf relative
    | none => false

/-- An executor that is confined to a worktree. -/
structure SandboxedToolExecutor where
  worktreeRoot : FilePath
  tokenDiscipline : Bool

namespace EditPlatform

variable (P : EditPlatform) (executor : SandboxedToolExecutor) (cwd : FileLocation)
  (tree : FileTree)

def hashOutcome (resultText : String) : ExecutionOutcome :=
  ⟨resultText, P.sha256Hex resultText⟩

def canonicalizeFrom : FilePath → List (Step FileName) → Except OsError FileLocation
  | path, components =>
    match tree.canonicalize cwd path with
    | .ok canonical => .ok canonical
    | .error .notFound =>
      if (tree.symlinkMetadata cwd path).isSome then
        .error (.invalidInput (P.displayPath path ++ " is a dangling symlink"))
      else
        match components with
        | .name fileName :: above =>
          (canonicalizeFrom ⟨path.absolute, above.reverse, false⟩ above).map (fileName :: ·)
        | _ => .error .notFound
    | .error error => .error error
  termination_by structural _ components => components

def canonicalizePartial (path : FilePath) : Except OsError FileLocation :=
  P.canonicalizeFrom cwd tree path path.steps.reverse

def refuseUnprovableHardLink (resolved : FileLocation) (relative : String) :
    Except ExecutionError Unit :=
  match tree.symlinkMetadata cwd (Path.ofLocation resolved) with
  | some (.file i) =>
    if 1 < (tree.inode i).names then
      .error (.failed ("path " ++ P.debugStr relative ++ " is a hard link with " ++
        toString (tree.inode i).names ++ " names; containment cannot be proven"))
    else .ok ()
  | _ => .ok ()

def canonicalRoot : Except ExecutionError FileLocation :=
  match tree.canonicalize cwd executor.worktreeRoot with
  | .ok root => .ok root
  | .error error => .error (.failed ("worktree root " ++ P.debugPath executor.worktreeRoot ++
      " could not be resolved: " ++ osMessage error))

def resolveJoined (relative : String) : Except OsError FileLocation :=
  match pathOf relative.toList with
  | none => .error (.invalidInput "file name contained an unexpected NUL byte")
  | some path => P.canonicalizePartial cwd tree (executor.worktreeRoot.join path)

def resolveWithinWorktree (relative : String) : Except ExecutionError FileLocation :=
  if relative = "" ∨ relative.toList.head? = some '/' ∨
      (splitOn '/' relative.toList).any (· = ['.', '.']) then
    .error (.failed ("path " ++ P.debugStr relative ++ " is not a safe worktree-relative path"))
  else do
    let root ← P.canonicalRoot executor cwd tree
    let resolved ← match P.resolveJoined executor cwd tree relative with
      | .ok resolved => .ok resolved
      | .error error => .error (.failed ("path " ++ P.debugStr relative ++
          " could not be resolved: " ++ osMessage error))
    if ¬root <:+ resolved then
      .error (.failed ("path " ++ P.debugStr relative ++ " escapes the worktree root"))
    else
      P.refuseUnprovableHardLink cwd tree resolved relative
      return resolved

end EditPlatform

structure EditEffect where
  /-- `None` is a panic. -/
  answer : Option (Except ExecutionError ExecutionOutcome)
  after : FileTree
  written : Option FileLocation

namespace EditPlatform

variable (P : EditPlatform) (executor : SandboxedToolExecutor) (cwd : FileLocation)
  (tree : FileTree)

/-- An error of an edit as `Debug` prints it. -/
def debugEditError : EditError → String
  | .anchorDivergence detail => "AnchorDivergence \x7b detail: " ++ P.debugStr detail ++ " \x7d"
  | .malformedEdit detail => "MalformedEdit \x7b detail: " ++ P.debugStr detail ++ " \x7d"

def createParent : FileLocation → Except OsError Unit × FileTree
  | [] => (.ok (), tree)
  | _ :: parent => tree.createDirectories parent

/-- Nothing is changed, and the call fails. -/
def failEdit (path detail : String) : EditEffect :=
  ⟨some (.error (.failed ("apply-edit " ++ P.debugStr path ++ detail))), tree, none⟩

def writeEdit (path changeKind : String) (resolved : FileLocation) (content : String) :
    EditEffect :=
  match createParent tree resolved with
  | (.error error, tree') => P.failEdit tree' path (" failed: " ++ osMessage error)
  | (.ok (), tree') =>
    match tree'.writeFile resolved (.text content) with
    | (.error error, tree'') => P.failEdit tree'' path (" failed: " ++ osMessage error)
    | (.ok location, tree'') =>
      let wrote := "wrote " ++ toString content.utf8ByteSize ++ " bytes to " ++ path
      let resultText :=
        if executor.tokenDiscipline then wrote ++ " (change_kind: " ++ changeKind ++ ")" else wrote
      ⟨some (.ok (P.hashOutcome resultText)), tree'', some location⟩

def currentText (resolved : FileLocation) : Option String :=
  match tree.readFile resolved with
  | .ok (.text s) => some s
  | _ => none

/-- `SandboxedToolExecutor::apply_edit`. -/
def applyEdit (call : ValidatedCall) : EditEffect :=
  let path := call.strOrDefault "path"
  let payload := call.strOrDefault "content"
  let changeKind := ((call.arguments.get? "change_kind").bind JsonValue.asStr?).getD "whole-file"
  match EditForm.parse changeKind with
  | none => P.failEdit tree path (" failed: unknown change_kind " ++ P.debugStr changeKind)
  | some form =>
    match P.resolveWithinWorktree executor cwd tree path with
    | .error error => ⟨some (.error error), tree, none⟩
    | .ok resolved =>
      let current := currentText tree resolved
      if form ≠ .wholeFile ∧ current = none then
        P.failEdit tree path (" failed: change_kind " ++ P.debugStr changeKind ++
          " requires an existing file")
      else
        match P.resolveEdit P.jsonError current form payload with
        | .error .panicked => ⟨none, tree, none⟩
        | .error (.refused error) =>
          P.failEdit tree path (" failed: " ++ P.debugEditError error)
        | .ok edit =>
          if edit.alreadyApplied then
            let resultText := "apply-edit " ++ path ++
              ": already applied, no bytes written (change_kind: " ++ changeKind ++ ")"
            ⟨some (.ok (P.hashOutcome resultText)), tree, none⟩
          else P.writeEdit executor tree path changeKind resolved edit.content

/-- `ResolvedWriteScopeExecutor::resolved_write_allowed`. -/
def resolvedWriteAllowed (allowedWritePaths : List String) (declared : String) :
    Except ExecutionError Bool := do
  let resolved ← P.resolveWithinWorktree executor cwd tree declared
  let root ← P.canonicalRoot executor cwd tree
  if ¬root <:+ resolved then
    .error (.failed ("path " ++ P.debugStr declared ++ " escapes worktree"))
  else
    match relativeText root resolved with
    | none =>
      .error (.failed ("resolved path for " ++ P.debugStr declared ++ " is not UTF-8"))
    | some text => return allowedWritePaths.any (resolvedEntryAllows (replaceBackslashes text) ·)

/-- `ResolvedWriteScopeExecutor::execute`, of an `apply-edit` call. -/
def executeEdit (allowedWritePaths : List String) (call : ValidatedCall) : EditEffect :=
  let declared := call.strOrDefault "path"
  match P.resolvedWriteAllowed executor cwd tree allowedWritePaths declared with
  | .error error => ⟨some (.error error), tree, none⟩
  | .ok false =>
    P.failEdit tree declared " refused: resolved path is outside allowed_write_paths"
  | .ok true => P.applyEdit executor cwd tree call

end EditPlatform

/-- A worker's authoriser, with the executor that has the same entries. -/
structure EditWorker where
  platform : EditPlatform
  authorizer : ScopeAuthorizer
  executor : SandboxedToolExecutor
  /-- The current directory of the process. -/
  cwd : FileLocation

/-- What happens to the worktree. -/
inductive WorktreeEvent
  /-- The worker calls `apply-edit` with these arguments. -/
  | applyEdit (callId : String) (arguments : JsonValue) (argumentHash : String)
  /-- Other tools and other processes change the tree. -/
  | other (after : FileTree)

/-- A call of `apply-edit` that was executed, with the tree before it and what it did. -/
structure EditRecord where
  call : ValidatedCall
  before : FileTree
  effect : EditEffect

namespace EditWorker

variable (worker : EditWorker)

def execute (tree : FileTree) (call : ValidatedCall) : EditEffect :=
  worker.platform.executeEdit worker.executor worker.cwd tree
    worker.authorizer.allowedWritePaths call

def run : FileTree → List WorktreeEvent → List EditRecord
  | _, [] => []
  | _, .other after :: events => run after events
  | tree, .applyEdit callId arguments argumentHash :: events =>
    let call : ValidatedCall := ⟨callId, .applyEdit, arguments, argumentHash⟩
    match worker.authorizer.authorize call with
    | .refused _ _ => run tree events
    | .authorized =>
      let effect := worker.execute tree call
      ⟨call, tree, effect⟩ :: run effect.after events

end EditWorker

end FamiliarAi
