import FamiliarAi.Core.Outcome
import FamiliarAi.Text.Basic

/-!
# The worker lock

The lock that every mutating command takes: a claim file in the runtime directory of its host, which
names the process that owns the control plane, and beside it the lock file of the one delegate that the
owner has launched. A lock is taken in two steps. A process looks at the files, and asks its host which
of the processes named in them are alive; then it takes the lock that it has found free. An owner takes
it only where the claim is still the one it has seen. A delegate removes what it has found dead, and
what has come in its place.
-/

namespace FamiliarAi

/-- A process, as the probes of its host see it. -/
structure Process where
  host : String
  pid : ℕ
  startIdentity : Option String
  deriving DecidableEq

/-- `i32::MAX`, the largest PID that is probed. -/
def maxPid : ℕ := 2147483647

/-- `process_alive`: whether a PID is one of the processes of the host. -/
def processAlive (processes : List Process) (host : String) (pid : ℕ) : Bool :=
  decide (0 < pid ∧ pid ≤ maxPid) && processes.any fun p ↦ decide (p.host = host ∧ p.pid = pid)

def processStartIdentity (processes : List Process) (host : String) (pid : ℕ) : Option String :=
  (processes.find? fun p ↦ decide (p.host = host ∧ p.pid = pid)).bind (·.startIdentity)

/-- A claim. The installation, the boot and the socket that the source writes with it are read by no
step of the lock. -/
structure OwnershipClaim where
  ownerNonce : String
  ownerPid : ℕ
  processStartIdentity : String
  generation : ℕ
  deriving DecidableEq

/-- `claim_process_matches`: the process that the claim names is alive, and is that one. -/
def OwnershipClaim.matches (claim : OwnershipClaim) (processes : List Process) (host : String) : Bool :=
  processAlive processes host claim.ownerPid &&
    decide (FamiliarAi.processStartIdentity processes host claim.ownerPid =
      some claim.processStartIdentity)

/-- The text of a lock file. -/
inductive LockText
  | claim (claim : OwnershipClaim)
  | other (text : String)
  deriving DecidableEq

/-- `parse::<u32>` of a trimmed text. -/
def parsePid (text : String) : Option ℕ :=
  let digits : List Char := match Text.trim text.toList with
    | '+' :: digits => digits
    | digits => digits
  let pid : ℕ := digits.foldl (fun n c ↦ n * 10 + (c.toNat - '0'.toNat)) 0
  if digits ≠ [] ∧ digits.all (·.isDigit) ∧ pid < 2 ^ 32 then some pid else none

inductive LockKind
  | owner
  | delegate
  deriving DecidableEq

/-- The lock files of a runtime directory. -/
structure RuntimeDir where
  /-- `control-plane.claim`. -/
  claim : Option LockText := none
  /-- `control-plane.delegate`. -/
  delegate : Option LockText := none
  /-- `control-plane.generation`, or zero. -/
  generation : ℕ := 0

def RuntimeDir.file (dir : RuntimeDir) : LockKind → Option LockText
  | .owner => dir.claim
  | .delegate => dir.delegate

/-- A lock that is held. -/
structure WorkerLock where
  kind : LockKind
  claim : OwnershipClaim
  deriving DecidableEq

/-- Why a lock is refused. -/
inductive LockError
  | alreadyExists (message : String)
  | notFound (message : String)

/-- The lock that a process has found free, with the text of its file, if there was one. -/
inductive LockPlan
  | own (seen : Option LockText) (generation : ℕ)
  | delegate (owner : OwnershipClaim) (seen : Option LockText)
  deriving DecidableEq

namespace LockPlan

def kind : LockPlan → LockKind
  | own .. => .owner
  | delegate .. => .delegate

/-- The text that was found in its file. -/
def seen : LockPlan → Option LockText
  | own seen _ | delegate _ seen => seen

end LockPlan

/-- What `acquire_delegation` reads: another delegate, if it is alive, is not replaced. -/
def lookAsDelegate (processes : List Process) (host : String) (owner : OwnershipClaim)
    (dir : RuntimeDir) : Except LockError LockPlan :=
  match dir.delegate with
  | some (.claim claim) =>
    if claim.matches processes host then
      .error (.alreadyExists ("another delegate of control-plane owner pid " ++
        toString owner.ownerPid ++ " is live (pid " ++ toString claim.ownerPid ++ ")"))
    else .ok (.delegate owner dir.delegate)
  | some (.other _) | none => .ok (.delegate owner dir.delegate)

/-- What `acquire_inner` reads. A process that was launched by the owner in the claim is its delegate or
nothing; any other one may follow an owner that is not alive. -/
def lookAtLocks (processes : List Process) (host : String) (delegatedBy : Option ℕ)
    (dir : RuntimeDir) : Except LockError LockPlan :=
  match dir.claim with
  | some (.claim existing) =>
    if delegatedBy = some existing.ownerPid then
      if processAlive processes host existing.ownerPid then
        lookAsDelegate processes host existing dir
      else .error (.notFound ("control-plane owner pid " ++ toString existing.ownerPid ++
        " that delegated this command is no longer running"))
    else if existing.matches processes host then
      .error (.alreadyExists ("Familiar control-plane owner pid " ++ toString existing.ownerPid ++
        " is live; socket state must be diagnosed and explicit recovery used"))
    else .ok (.own dir.claim (saturatingAdd (max existing.generation dir.generation) 1))
  | some (.other text) =>
    if (parsePid text).any (processAlive processes host) then
      .error (.alreadyExists "legacy Familiar owner is live; stop or upgrade it before recovery")
    else .ok (.own dir.claim (saturatingAdd dir.generation 1))
  | none => .ok (.own none (saturatingAdd dir.generation 1))

namespace LockPlan

def claim (nonce : String) (process : Process) : LockPlan → OwnershipClaim
  | own _ generation =>
    { ownerNonce := nonce
      ownerPid := process.pid
      processStartIdentity := process.startIdentity.getD "unavailable"
      generation := generation }
  | delegate owner _ =>
    { owner with
      ownerPid := process.pid
      processStartIdentity := process.startIdentity.getD "" }

/-- Take the lock. An owner removes a claim only if it is the one that it has seen, and creates its own
only where there is none. A delegate that has seen a file removes the one that is there now. -/
def take (nonce : String) (process : Process) (dir : RuntimeDir) (plan : LockPlan) :
    Except LockError (RuntimeDir × WorkerLock) :=
  match plan with
  | own seen generation =>
    if dir.claim = seen then
      .ok ({ dir with
        claim := some (.claim (plan.claim nonce process)), generation := generation },
        ⟨.owner, plan.claim nonce process⟩)
    else if seen.isSome then
      .error (.alreadyExists "control-plane claim changed during recovery")
    else .error (.alreadyExists
      "Familiar is already running; another process won the control-plane ownership race")
  | delegate _ seen =>
    if seen.isSome ∨ dir.delegate = none then
      .ok ({ dir with delegate := some (.claim (plan.claim nonce process)) },
        ⟨.delegate, plan.claim nonce process⟩)
    else .error (.alreadyExists "File exists (os error 17)")

end LockPlan

/-- `Drop for WorkerLock`: the file is removed if it is still the one of this lock. -/
def WorkerLock.release (lock : WorkerLock) (dir : RuntimeDir) : RuntimeDir :=
  if dir.file lock.kind = some (.claim lock.claim) then
    match lock.kind with
    | .owner => { dir with claim := none }
    | .delegate => { dir with delegate := none }
  else dir

/-! ### What the steps guarantee -/

section Guarantees

variable {processes : List Process} {host nonce : String} {delegatedBy : Option ℕ}
  {process : Process} {dir dir' : RuntimeDir} {plan : LockPlan} {lock lock' : WorkerLock}
  {start : String}

theorem lookAtLocks_ok (h : lookAtLocks processes host delegatedBy dir = .ok plan) :
    plan.seen = dir.file plan.kind ∧
      ∀ claim, plan.seen = some (.claim claim) → claim.matches processes host = false := by
  have hdelegate : ∀ owner, lookAsDelegate processes host owner dir = .ok plan →
      plan.seen = dir.file plan.kind ∧
        ∀ claim, plan.seen = some (.claim claim) → claim.matches processes host = false := by
    intro owner
    fun_cases lookAsDelegate processes host owner dir with
    | case1 => exact nofun
    | case2 claim hclaim hdead =>
      rintro ⟨⟩
      refine ⟨rfl, fun claim' hseen ↦ ?_⟩
      obtain rfl : claim = claim' := by simpa using hclaim.symm.trans hseen
      simpa using hdead
    | case3 text hother =>
      rintro ⟨⟩
      exact ⟨rfl, fun claim hseen ↦ by cases hother.symm.trans hseen⟩
    | case4 hnone =>
      rintro ⟨⟩
      exact ⟨rfl, fun claim hseen ↦ by cases hnone.symm.trans hseen⟩
  revert h
  fun_cases lookAtLocks processes host delegatedBy dir with
  | case1 existing => exact hdelegate existing
  | case4 existing hclaim _ hdead =>
    rintro ⟨⟩
    refine ⟨rfl, fun claim hseen ↦ ?_⟩
    obtain rfl : existing = claim := by simpa using hclaim.symm.trans hseen
    simpa using hdead
  | case6 text hother =>
    rintro ⟨⟩
    exact ⟨rfl, fun claim hseen ↦ by cases hother.symm.trans hseen⟩
  | case7 hnone =>
    rintro ⟨⟩
    exact ⟨hnone.symm, nofun⟩
  | case2 | case3 | case5 => exact nofun

theorem matches_of_mem {claim : OwnershipClaim} (hmem : process ∈ processes)
    (hpid : 0 < process.pid ∧ process.pid ≤ maxPid)
    (hunique : ∀ p ∈ processes, p.host = process.host → p.pid = process.pid → p = process)
    (hstart : process.startIdentity = some start) (hclaimPid : claim.ownerPid = process.pid)
    (hclaimStart : claim.processStartIdentity = start) :
    claim.matches processes process.host = true := by
  have halive : processAlive processes process.host process.pid = true := by
    unfold processAlive
    rw [Bool.and_eq_true]
    refine ⟨decide_eq_true hpid, List.any_eq_true.2 ⟨process, hmem, ?_⟩⟩
    exact decide_eq_true ⟨rfl, rfl⟩
  have hfind : processes.find? (fun p ↦ decide (p.host = process.host ∧ p.pid = process.pid)) =
      some process := by
    cases hfind : processes.find? fun p ↦ decide (p.host = process.host ∧ p.pid = process.pid) with
    | none =>
      have hno := List.find?_eq_none.1 hfind process hmem
      simp at hno
    | some p =>
      have hsame := List.find?_some hfind
      rw [decide_eq_true_iff] at hsame
      obtain ⟨hhost, hsame⟩ := hsame
      rw [hunique p (List.mem_of_find?_eq_some hfind) hhost hsame]
  unfold OwnershipClaim.matches
  rw [hclaimPid, halive, hclaimStart]
  unfold processStartIdentity
  rw [hfind, Option.bind_some, hstart]
  simp

theorem claim_ownerPid (nonce : String) (process : Process) (plan : LockPlan) :
    (plan.claim nonce process).ownerPid = process.pid := by
  cases plan with
  | own => rfl
  | delegate => rfl

theorem claim_processStartIdentity (h : process.startIdentity = some start) (nonce : String)
    (plan : LockPlan) :
    (plan.claim nonce process).processStartIdentity = start := by
  cases plan with
  | own =>
    show process.startIdentity.getD _ = start
    rw [h]
    rfl
  | delegate =>
    show process.startIdentity.getD _ = start
    rw [h]
    rfl

theorem take_ok (h : plan.take nonce process dir = .ok (dir', lock)) :
    lock = ⟨plan.kind, plan.claim nonce process⟩ ∧
      dir'.file plan.kind = some (.claim (plan.claim nonce process)) ∧
      (∀ kind, kind ≠ plan.kind → dir'.file kind = dir.file kind) ∧
      (plan.kind = .owner → dir.file .owner = plan.seen) := by
  revert h
  fun_cases plan.take nonce process dir with
  | case1 =>
    rintro ⟨⟩
    refine ⟨rfl, rfl, fun kind hkind ↦ ?_, fun _ ↦ rfl⟩
    cases kind with
    | owner => exact absurd rfl hkind
    | delegate => rfl
  | case4 =>
    rintro ⟨⟩
    refine ⟨rfl, rfl, fun kind hkind ↦ ?_, nofun⟩
    cases kind with
    | owner => rfl
    | delegate => exact absurd rfl hkind
  | case2 | case3 | case5 => exact nofun

theorem file_release {text : LockText} (kind : LockKind) (h : dir.file kind = some text)
    (hother : kind = lock.kind → text ≠ .claim lock.claim) :
    (lock.release dir).file kind = some text := by
  unfold WorkerLock.release
  split
  · rename_i hown
    have hkind : kind ≠ lock.kind := by
      rintro rfl
      exact hother rfl (Option.some.inj (h.symm.trans hown))
    cases hlock : lock.kind with
    | owner =>
      cases kind with
      | owner => exact absurd hlock.symm hkind
      | delegate => exact h
    | delegate =>
      cases kind with
      | owner => exact h
      | delegate => exact absurd hlock.symm hkind
  · exact h

end Guarantees

end FamiliarAi
