import FamiliarAi.Text.Basic

/-!
# Backlog vocabulary of the core crate

PRDs as they are discovered in a repository and reconciled with the store. The identity of a PRD is
its number and its suffix; how the identity is written in the repository plays no part in comparing
two of them.
-/

namespace FamiliarAi

open Text

/-- How the identity of a PRD is written. -/
inductive PrdRendering
  | canonical
  | numberedSlug (width : ℕ)
  deriving DecidableEq

/-- The identity of a PRD, with the way it is written. -/
structure PrdId where
  number : ℕ
  suffix : Option Char
  rendering : PrdRendering := .canonical
  deriving DecidableEq

namespace PrdId

/-- What identities are compared by. -/
def key (id : PrdId) : ℕ × Option Char :=
  (id.number, id.suffix)

/-- Two identities are the same whatever they are written like. -/
instance : BEq PrdId := ⟨fun id id' ↦ decide (id.key = id'.key)⟩

theorem beq_iff {id id' : PrdId} : (id == id') = true ↔ id.key = id'.key :=
  decide_eq_true_iff

/-- A suffixed identity comes before the plain one of its number. -/
def LE (id id' : PrdId) : Prop :=
  id.number < id'.number ∨ id.number = id'.number ∧
    match id.suffix, id'.suffix with
    | some c, some c' => c ≤ c'
    | some _, none => True
    | none, some _ => False
    | none, none => True

instance : DecidableRel LE := fun id id' ↦ by
  unfold LE
  cases id.suffix <;> cases id'.suffix <;> infer_instance

def padded (width number : ℕ) : String :=
  let digits := toString number
  String.ofList (List.replicate (width - digits.length) '0') ++ digits

/-- The identity as it is written. -/
def display (id : PrdId) : String :=
  (match id.rendering with
    | .canonical => "PRD-" ++ toString id.number
    | .numberedSlug width => "PRD " ++ padded width id.number) ++
    match id.suffix with
    | some c => c.toString
    | none => ""

end PrdId

/-- The text is a path below the repository, without empty and dotted components. -/
def IsRepositoryPath (path : String) : Prop :=
  path ≠ "" ∧ ¬StartsWith path "/" ∧
    ∀ part ∈ splitOn '/' path.toList, part ≠ [] ∧ part ≠ ['.'] ∧ part ≠ ['.', '.']

instance : DecidablePred IsRepositoryPath :=
  fun _ ↦ inferInstanceAs (Decidable (_ ∧ _ ∧ _))

/-- A path below the repository. -/
structure RepositoryPath where
  text : String
  valid : IsRepositoryPath text
  deriving DecidableEq

/-- The last component of the path. -/
def RepositoryPath.fileName (path : RepositoryPath) : String :=
  String.ofList ((splitOn '/' path.text.toList).getLast?.getD [])

/-- The front matter of a PRD. -/
structure PrdMetadata where
  contractVersion : Option ℕ := none
  status : Option String := none
  expectedFiles : List String := []
  acceptanceCriteria : List String := []
  riskClasses : List String := []
  externalGates : List String := []
  /-- The exclusive resources that the PRD holds while it runs. -/
  resources : List String := []
  deriving DecidableEq

/-- The repository of a backlog. In the store it is named by its key. -/
structure RepositoryIdentity where
  key : String

/-- Where a PRD lies: with the active ones, or with those that are done. -/
inductive PrdLocation
  | active
  | archived
  deriving DecidableEq

/-- A PRD found in the repository. -/
structure DiscoveredPrd where
  id : PrdId
  number : ℕ
  path : RepositoryPath
  location : PrdLocation
  title : String := ""
  dependencies : List PrdId
  metadata : PrdMetadata
  contentHash : String
  deriving DecidableEq

/-- The status of a PRD in the store. -/
inductive BacklogStatus
  | pending
  | inProgress
  | completed
  | blocked
  deriving DecidableEq

def BacklogStatus.asStr : BacklogStatus → String
  | pending => "pending"
  | inProgress => "in_progress"
  | completed => "completed"
  | blocked => "blocked"

/-- A PRD with the status that the store has for it. -/
structure BacklogEntry where
  prd : DiscoveredPrd
  status : BacklogStatus

def frontMatterHold (prd : DiscoveredPrd) : Option String :=
  match prd.metadata.status with
  | some "draft" => some "draft"
  | some "in_progress" => some "in_progress"
  | some "blocked" => some "blocked"
  | _ => none

/-- The status of an identity in the snapshot; of several entries with it the last counts. -/
def statusOf (entries : List BacklogEntry) (id : PrdId) : Option BacklogStatus :=
  (entries.reverse.find? (·.prd.id == id)).map (·.status)

/-- The dependencies that are not completed. -/
def unmet (entries : List BacklogEntry) (prd : DiscoveredPrd) : List PrdId :=
  prd.dependencies.filter fun id ↦ statusOf entries id ≠ some .completed

variable {entries : List BacklogEntry} {id : PrdId}

theorem exists_of_statusOf {status : BacklogStatus} (h : statusOf entries id = some status) :
    ∃ entry ∈ entries, (entry.prd.id == id) = true ∧ entry.status = status := by
  obtain ⟨entry, hfind, hstatus⟩ := Option.map_eq_some_iff.1 h
  refine ⟨entry, List.mem_reverse.1 (List.mem_of_find?_eq_some hfind), ?_, hstatus⟩
  exact List.find?_some (p := fun entry : BacklogEntry ↦ entry.prd.id == id) hfind

theorem exists_completed_of_unmet {prd : DiscoveredPrd} (h : unmet entries prd = [])
    (hid : id ∈ prd.dependencies) :
    ∃ entry ∈ entries, (entry.prd.id == id) = true ∧ entry.status = .completed := by
  have hmet := List.filter_eq_nil_iff.1 h id hid
  simp only [decide_not, Bool.not_eq_true, Bool.not_eq_false', decide_eq_true_eq] at hmet
  exact exists_of_statusOf hmet

/-! ### Errors -/

/-- Why an operation of the backlog store failed. A status that is no status cannot be stored, so it
is none of the reasons. -/
inductive BacklogStoreError
  | storage (message : String)
  | conflict (path : RepositoryPath) (expected actual : String)
  | emptyActor
  | notFound (path : RepositoryPath)
  | invalidRecoveryActor
  | invalidRecoveryReason
  | humanAuthorityRequired
  | recoveryAuditCorrupt (path : RepositoryPath)
  | incompleteDependencies (path : RepositoryPath) (dependencies : String)
  deriving DecidableEq

/-- What is wrong with a backlog, as far as it is read here. -/
inductive BacklogError
  | discovery (message : String)
  | malformed (path message : String)
  | duplicateIdentity (id : PrdId) (paths : String)
  | selfDependency (path : RepositoryPath) (id : PrdId)
  | missingDependency (path : RepositoryPath) (dependency : PrdId)
  | cycle (text : String)
  | store (e : BacklogStoreError)
  | emptyBacklog
  | noEligiblePrd (reasons : String)
  | runPath (message : String)
  | runStatus (path : RepositoryPath) (status : String)
  | runArchived (path : RepositoryPath)
  | runDependencies (path : RepositoryPath) (dependencies : String)
  deriving DecidableEq

def BacklogStoreError.display : BacklogStoreError → String
  | storage message => "storage failure: " ++ message
  | conflict path expected actual =>
    "status transition conflict for " ++ path.text ++ ": expected " ++ expected ++ ", found " ++
      actual
  | emptyActor => "status transition actor must not be empty"
  | notFound path => "backlog entry not found: " ++ path.text
  | invalidRecoveryActor =>
    "recovery actor must be non-empty, printable, and at most 256 bytes"
  | invalidRecoveryReason =>
    "recovery reason must be non-empty, printable, and at most 2048 bytes"
  | humanAuthorityRequired => "manual completion override requires --actor human:<identity>"
  | recoveryAuditCorrupt path => "backlog recovery audit lineage is corrupt for " ++ path.text
  | incompleteDependencies path dependencies =>
    "cannot record completion for " ++ path.text ++ ": incomplete dependencies [" ++
      dependencies ++ "]"

def BacklogError.display : BacklogError → String
  | discovery message => "backlog discovery failed: " ++ message
  | malformed path message => "malformed PRD " ++ path ++ ": " ++ message
  | duplicateIdentity id paths => "duplicate PRD identity " ++ id.display ++ ": " ++ paths
  | selfDependency path id => "PRD " ++ path.text ++ " depends on itself (" ++ id.display ++ ")"
  | missingDependency path dependency =>
    "dependency target " ++ dependency.display ++ " referenced by " ++ path.text ++
      " is absent from the active backlog"
  | cycle text => "dependency cycle: " ++ text
  | store e => "backlog storage failed: " ++ e.display
  | emptyBacklog => "backlog is empty"
  | noEligiblePrd reasons => "no eligible PRD: " ++ reasons
  | runPath message => "run path admission failed: " ++ message
  | runStatus path status => "cannot run " ++ path.text ++ ": backlog status is " ++ status
  | runArchived path => "cannot run " ++ path.text ++ ": PRD is archived"
  | runDependencies path dependencies =>
    "cannot run " ++ path.text ++ ": incomplete dependencies [" ++ dependencies ++ "]"

def displayIds (ids : List PrdId) : String :=
  ",".intercalate (ids.map (·.display))

def admitRunPrd (entries : List BacklogEntry) (target : DiscoveredPrd) :
    Except BacklogError Unit :=
  if target.location = .archived then .error (.runArchived target.path)
  else
    match frontMatterHold target with
    | some status => .error (.runStatus target.path status)
    | none =>
      match entries.find? (·.prd.path = target.path) with
      | none => .error (.runPath (target.path.text ++ " is not active"))
      | some entry =>
        if entry.status ≠ .pending then .error (.runStatus target.path entry.status.asStr)
        else if unmet entries target ≠ [] then
          .error (.runDependencies target.path (displayIds (unmet entries target)))
        else .ok ()

theorem admitRunPrd_eq_ok {target : DiscoveredPrd} (h : admitRunPrd entries target = .ok ()) :
    target.location = .active ∧ frontMatterHold target = none ∧ unmet entries target = [] := by
  rw [admitRunPrd] at h
  split at h
  · cases h
  · rename_i hlocation
    have hactive : target.location = .active := by
      cases hl : target.location with
      | active => rfl
      | archived => exact absurd hl hlocation
    split at h
    · cases h
    · rename_i hhold
      split at h
      · cases h
      · split_ifs at h with hstatus hunmet
        exact ⟨hactive, hhold, not_not.1 hunmet⟩

/-- What a human repairs the status of a PRD with. -/
inductive BacklogRecoveryAction
  | release
  | manualCompleteOverride
  | recordedComplete
  | approveAndComplete
  deriving DecidableEq

namespace BacklogRecoveryAction

def targetStatus : BacklogRecoveryAction → BacklogStatus
  | release => .pending
  | manualCompleteOverride => .completed
  | recordedComplete => .completed
  | approveAndComplete => .completed

end BacklogRecoveryAction

/-- The Unicode category `Cc`. -/
def isControl (c : Char) : Bool :=
  decide (c.toNat ≤ 0x1F) || decide (0x7F ≤ c.toNat ∧ c.toNat ≤ 0x9F)

/-- The text names a human: something is left after `human:` that is not white space. -/
def NamesHuman (actor : List Char) : Prop :=
  ∃ identity, stripPrefix? "human:".toList actor = some identity ∧ trim identity ≠ []

instance : DecidablePred NamesHuman := fun actor ↦
  match h : stripPrefix? "human:".toList actor with
  | none => isFalse fun ⟨_, h', _⟩ ↦ by rw [h] at h'; cases h'
  | some identity =>
    if hidentity : trim identity = [] then
      isFalse fun ⟨_, h', hne⟩ ↦ by rw [h] at h'; cases h'; exact hne hidentity
    else isTrue ⟨identity, h, hidentity⟩

/-- Who repairs the status, and why. To complete a PRD takes a human. -/
def validateRecoveryAttribution (action : BacklogRecoveryAction) (actor reason : String) :
    Except BacklogStoreError (String × String) :=
  let actor := trim actor.toList
  let reason := trim reason.toList
  if actor = [] ∨ 256 < byteSize actor ∨ actor.any isControl then .error .invalidRecoveryActor
  else if reason = [] ∨ 2048 < byteSize reason ∨ reason.any isControl then
    .error .invalidRecoveryReason
  else if action ≠ .release ∧ ¬NamesHuman actor then .error .humanAuthorityRequired
  else .ok (String.ofList actor, String.ofList reason)

end FamiliarAi
