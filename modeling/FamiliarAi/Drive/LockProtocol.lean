import FamiliarAi.Drive.WorkerLock
import FamiliarAi.Transition.System

/-!
# The protocol of the lock files

The steps by which processes take the worker lock and give it back, one step of the file system at a
time. Any number of attempts proceed next to each other in any order, and a process may end wherever
it stands. A file carries the attempt that has created it: what is written through a handle reaches
the file that the handle was opened on, and not another one that has come in its place.

A claim is written elsewhere and then linked, so that it appears whole. A delegate creates its file
and writes it afterwards.
-/

namespace FamiliarAi

open Transition

def Process.identity (process : Process) : Option (ℕ × String) :=
  process.startIdentity.map fun start ↦ (process.pid, start)

/-- The process that a claim names. -/
def OwnershipClaim.identity (claim : OwnershipClaim) : ℕ × String :=
  (claim.ownerPid, claim.processStartIdentity)

structure LockFile where
  /-- The attempt that has created the file, unless it was there before all of them. -/
  creator : Option ℕ
  text : LockText

/-- The files of a runtime directory. -/
structure LockFiles where
  /-- `control-plane.claim`. -/
  claim : Option LockFile := none
  /-- `control-plane.recovery`. -/
  recovery : Option LockFile := none
  /-- `control-plane.delegate`. -/
  delegate : Option LockFile := none
  /-- What is read from `control-plane.generation`: zero where that is no number. -/
  generation : ℕ := 0

namespace LockFiles

def file (files : LockFiles) : LockKind → Option LockFile
  | .owner => files.claim
  | .delegate => files.delegate

def remove (files : LockFiles) : LockKind → LockFiles
  | .owner => { files with claim := none }
  | .delegate => { files with delegate := none }

end LockFiles

/-- A lock file that was removed, with the text that it was removed for. -/
structure LockRemoval where
  kind : LockKind
  seen : LockText
  actual : LockText

/-! ### Attempts -/

/-- The step of the file system that an attempt comes to, with what it has read. -/
inductive LockPhase
  | starting
  | reading (persisted : ℕ)
  /-- Ask whether the process in the claim is alive. -/
  | probing (persisted : ℕ) (seen : LockText)
  /-- Create the guard of `recover_exact`. -/
  | guarding (persisted : ℕ) (seen : LockText)
  | rereading (persisted : ℕ) (seen : LockText)
  | removing (persisted : ℕ) (seen : LockText)
  | unguarding (persisted : ℕ) (seen : LockText) (removed : Bool)
  | linking (persisted : ℕ) (seen : Option LockText)
  /-- `fs::write` of the generation empties the file first. -/
  | truncating (claim : OwnershipClaim)
  | recording (claim : OwnershipClaim)
  | delegating (owner : OwnershipClaim)
  /-- Ask whether that delegate is alive. -/
  | judging (owner : OwnershipClaim) (seen : LockText)
  | clearing (owner : OwnershipClaim) (seen : LockText)
  | creating (owner : OwnershipClaim)
  | writing (claim : OwnershipClaim)
  | syncing (kind : LockKind) (claim : OwnershipClaim)
  | holding (kind : LockKind) (claim : OwnershipClaim)
  /-- `Drop for WorkerLock`: read the file. -/
  | releasing (kind : LockKind) (claim : OwnershipClaim)
  | unlinking (kind : LockKind) (claim : OwnershipClaim)
  /-- The attempt has failed, or the lock was dropped. -/
  | ended

/-- The lock that an attempt has taken, from the step that makes its file to the one that removes
it. -/
def LockPhase.lock : LockPhase → Option (LockKind × OwnershipClaim)
  | .truncating claim | .recording claim => some (.owner, claim)
  | .writing claim => some (.delegate, claim)
  | .syncing kind claim | .holding kind claim | .releasing kind claim | .unlinking kind claim =>
    some (kind, claim)
  | _ => none

def highestRead (persisted : ℕ) : Option LockText → ℕ
  | some (.claim existing) => max existing.generation persisted
  | some (.other _) | none => persisted

/-- A call of `acquire`. -/
structure Claimant where
  process : Process
  /-- The PID in `FAMILIAR_AI_DELEGATED_BY`. -/
  delegatedBy : Option ℕ
  nonce : String
  phase : LockPhase := .starting

/-- What a step leaves behind. -/
structure LockStep where
  files : LockFiles
  phase : LockPhase
  removal : Option LockRemoval := none
  /-- The generation of an owner whose claim was linked. -/
  generation : Option ℕ := none

/-- `new_claim`. -/
def Claimant.ownClaim (claimant : Claimant) (persisted : ℕ) (seen : Option LockText) :
    OwnershipClaim :=
  (LockPlan.own seen (saturatingAdd (highestRead persisted seen) 1)).claim claimant.nonce
    claimant.process

def Claimant.delegateClaim (claimant : Claimant) (owner : OwnershipClaim) : OwnershipClaim :=
  (LockPlan.delegate owner none).claim claimant.nonce claimant.process

/-- The next step of the attempt with the given number, where the given processes are alive. -/
def Claimant.advance (claimant : Claimant) (self : ℕ) (live : List Process) (files : LockFiles) :
    LockStep :=
  match claimant.phase with
  | .starting => { files, phase := .reading files.generation }
  | .reading persisted =>
    match files.claim with
    | some file => { files, phase := .probing persisted file.text }
    | none => { files, phase := .linking persisted none }
  | .probing persisted (.claim existing) =>
    if claimant.delegatedBy = some existing.ownerPid then
      if processAlive live claimant.process.host existing.ownerPid then
        { files, phase := .delegating existing }
      else { files, phase := .ended }
    else if existing.matches live claimant.process.host then { files, phase := .ended }
    else { files, phase := .guarding persisted (.claim existing) }
  | .probing persisted (.other text) =>
    if (parsePid text).any (processAlive live claimant.process.host) then { files, phase := .ended }
    else { files, phase := .guarding persisted (.other text) }
  | .guarding persisted seen =>
    match files.recovery with
    | some _ => { files, phase := .ended }
    | none =>
      { files := { files with recovery := some ⟨some self, .other ""⟩ }
        phase := .rereading persisted seen }
  | .rereading persisted seen =>
    if files.claim.map (·.text) = some seen then { files, phase := .removing persisted seen }
    else { files, phase := .unguarding persisted seen false }
  | .removing persisted seen =>
    match files.claim with
    | some file =>
      { files := files.remove .owner
        phase := .unguarding persisted seen true
        removal := some ⟨.owner, seen, file.text⟩ }
    | none => { files, phase := .unguarding persisted seen false }
  | .unguarding persisted seen removed =>
    { files := { files with recovery := none }
      phase := if removed then .linking persisted (some seen) else .ended }
  | .linking persisted seen =>
    match files.claim with
    | some _ => { files, phase := .ended }
    | none =>
      let claim := claimant.ownClaim persisted seen
      { files := { files with claim := some ⟨some self, .claim claim⟩ }
        phase := .truncating claim
        generation := some claim.generation }
  | .truncating claim => { files := { files with generation := 0 }, phase := .recording claim }
  | .recording claim =>
    { files := { files with generation := claim.generation }, phase := .syncing .owner claim }
  | .delegating owner =>
    match files.delegate with
    | some file => { files, phase := .judging owner file.text }
    | none => { files, phase := .creating owner }
  | .judging owner (.claim existing) =>
    if existing.matches live claimant.process.host then { files, phase := .ended }
    else { files, phase := .clearing owner (.claim existing) }
  | .judging owner (.other text) => { files, phase := .clearing owner (.other text) }
  | .clearing owner seen =>
    match files.delegate with
    | some file =>
      { files := files.remove .delegate
        phase := .creating owner
        removal := some ⟨.delegate, seen, file.text⟩ }
    | none => { files, phase := .creating owner }
  | .creating owner =>
    match files.delegate with
    | some _ => { files, phase := .ended }
    | none =>
      { files := { files with delegate := some ⟨some self, .other ""⟩ }
        phase := .writing (claimant.delegateClaim owner) }
  | .writing claim =>
    -- The handle is that of the created file, wherever that is by now.
    if files.delegate.bind (·.creator) = some self then
      { files := { files with delegate := some ⟨some self, .claim claim⟩ }
        phase := .syncing .delegate claim }
    else { files, phase := .syncing .delegate claim }
  | .syncing kind claim => { files, phase := .holding kind claim }
  | .holding kind claim => { files, phase := .holding kind claim }
  | .releasing kind claim =>
    if (files.file kind).map (·.text) = some (.claim claim) then
      { files, phase := .unlinking kind claim }
    else { files, phase := .ended }
  | .unlinking kind claim =>
    { files := files.remove kind
      phase := .ended
      removal := (files.file kind).map fun file ↦ ⟨kind, .claim claim, file.text⟩ }
  | .ended => { files, phase := .ended }

/-- Where an attempt stands after its step has failed, with the files as they were. The probes of
processes do not fail. -/
def LockPhase.failed : LockPhase → Option LockPhase
  | .starting => some (.reading 0)
  | .rereading persisted seen | .removing persisted seen => some (.unguarding persisted seen false)
  | .unguarding persisted seen removed =>
    some (if removed then .linking persisted (some seen) else .ended)
  | .delegating owner | .clearing owner _ => some (.creating owner)
  | .reading _ | .guarding .. | .linking .. | .truncating _ | .recording _ | .creating _
  | .writing _ | .syncing .. | .releasing .. | .unlinking .. => some .ended
  | .probing .. | .judging .. | .holding .. | .ended => none

/-! ### The system -/

/-- A runtime directory with the processes of its host. -/
structure LockWorld where
  files : LockFiles := {}
  live : List Process := []
  /-- The processes that there have been, and those that a file names. -/
  past : List (ℕ × String) := []
  claimants : List Claimant := []
  removals : List LockRemoval := []
  /-- The generations of the owners, the latest first. -/
  generations : List ℕ := []

inductive LockEvent
  | spawn (process : Process)
  /-- A process ends, wherever it stands. -/
  | exit (process : Process)
  | acquire (process : Process) (delegatedBy : Option ℕ) (nonce : String)
  | advance (i : ℕ)
  /-- The next step of an attempt fails. -/
  | fail (i : ℕ)
  /-- A lock is dropped. -/
  | release (i : ℕ)

namespace LockWorld

/-- The attempt with the given number, if its process is alive. -/
def acting (w : LockWorld) (i : ℕ) : Option Claimant :=
  w.claimants[i]?.filter fun claimant ↦ claimant.process ∈ w.live

/-- An attempt has taken a step. -/
def settle (w : LockWorld) (i : ℕ) (claimant : Claimant) (s : LockStep) : LockWorld :=
  { w with
    files := s.files
    claimants := w.claimants.set i { claimant with phase := s.phase }
    removals := s.removal.toList ++ w.removals
    generations := s.generation.toList ++ w.generations }

def step (host : String) (w : LockWorld) : LockEvent → Option LockWorld
  | .spawn process =>
    process.identity.bind fun identity ↦
      if process.host = host ∧ (0 < process.pid ∧ process.pid ≤ maxPid) ∧
          (∀ p ∈ w.live, p.pid ≠ process.pid) ∧ identity ∉ w.past then
        some { w with live := process :: w.live, past := identity :: w.past }
      else none
  | .exit process => some { w with live := w.live.filter (· ≠ process) }
  | .acquire process delegatedBy nonce =>
    if process ∈ w.live then
      some { w with claimants := w.claimants ++ [{ process, delegatedBy, nonce }] }
    else none
  | .advance i => (w.acting i).map fun claimant ↦
      w.settle i claimant (claimant.advance i w.live w.files)
  | .fail i => (w.acting i).bind fun claimant ↦ claimant.phase.failed.map fun phase ↦
      w.settle i claimant { files := w.files, phase }
  | .release i => (w.acting i).bind fun claimant ↦
      match claimant.phase with
      | .holding kind claim =>
        some (w.settle i claimant { files := w.files, phase := .releasing kind claim })
      | _ => none

def Holds (w : LockWorld) (kind : LockKind) (i : ℕ) : Prop :=
  ∃ claimant claim, w.acting i = some claimant ∧ claimant.phase.lock = some (kind, claim)

instance (w : LockWorld) (kind : LockKind) (i : ℕ) : Decidable (w.Holds kind i) :=
  decidable_of_iff (((w.acting i).bind (·.phase.lock)).map (·.1) = some kind) (by
    simp [Holds, Option.map_eq_some_iff, Option.bind_eq_some_iff])

end LockWorld

/-- The lock files of a host: no process is alive, and every file is of a process that has been. -/
def lockProtocol (host : String) : System LockWorld LockEvent where
  start w := w.live = [] ∧ w.claimants = [] ∧ w.removals = [] ∧ w.generations = [] ∧
    ∀ kind file, w.files.file kind = some file → file.creator = none ∧
      ∀ claim, file.text = .claim claim → claim.identity ∈ w.past
  step := LockWorld.step host

/-- There is one live owner and one live delegate at most, a file was removed only for the text that
it had, and each owner has a higher generation than the ones before it. -/
structure LockWorld.Exclusive (w : LockWorld) : Prop where
  one : ∀ kind i j, w.Holds kind i → w.Holds kind j → i = j
  exact : ∀ removal ∈ w.removals, removal.seen = removal.actual
  increasing : w.generations.Pairwise (· > ·)

/-- Whether the next step writes the file of a delegate. -/
def LockPhase.isWriting : LockPhase → Bool
  | .writing _ => true
  | _ => false

/-- A delegate file is removed only as it was seen, and not while its creator is about to write it.
An owner follows only one whose generation it has read, below `u64::MAX`. -/
def LockPhase.Undisturbed (w : LockWorld) : LockPhase → Prop
  | .clearing _ seen => ∀ file ∈ w.files.delegate, file.text = seen ∧
      ∀ j ∈ file.creator, ∀ other ∈ w.acting j, other.phase.isWriting = false
  | .linking persisted seen => w.files.claim = none → ∀ previous ∈ w.generations.head?,
      previous ≤ highestRead persisted seen ∧ previous < maxU64
  | _ => True

instance LockPhase.decidableUndisturbed (w : LockWorld) :
    ∀ phase : LockPhase, Decidable (phase.Undisturbed w)
  | .clearing _ seen => inferInstanceAs (Decidable (∀ file ∈ w.files.delegate, file.text = seen ∧
      ∀ j ∈ file.creator, ∀ other ∈ w.acting j, other.phase.isWriting = false))
  | .linking persisted seen => inferInstanceAs (Decidable (w.files.claim = none →
      ∀ previous ∈ w.generations.head?, previous ≤ highestRead persisted seen ∧ previous < maxU64))
  | .starting | .reading _ | .probing .. | .guarding .. | .rereading .. | .removing ..
  | .unguarding .. | .truncating _ | .recording _ | .delegating _ | .judging .. | .creating _
  | .writing _ | .syncing .. | .holding .. | .releasing .. | .unlinking .. | .ended =>
    .isTrue trivial

/-- No attempt comes between another one and what it has read. -/
def LockWorld.Undisturbed (w : LockWorld) : LockEvent → Prop
  | .advance i => ∀ claimant ∈ w.acting i, claimant.phase.Undisturbed w
  | _ => True

instance LockWorld.decidableUndisturbed (w : LockWorld) : ∀ e, Decidable (w.Undisturbed e)
  | .advance i =>
    inferInstanceAs (Decidable (∀ claimant ∈ w.acting i, claimant.phase.Undisturbed w))
  | .spawn _ | .exit _ | .acquire .. | .fail _ | .release _ => .isTrue trivial

end FamiliarAi
