import FamiliarAi.Residency.Residents

/-!
# The residents of every run

Whatever launching, probing, stopping and recording answer, the manager keeps the ceilings when it
loads, routes executions to servers of residents only, restarts a model as often as it may and does
not launch a failed one. Which servers run and what is recorded it knows as long as every event is
recorded and every stop succeeds, and then its residents are alive unless a restart failed that has
attempts left.
-/

namespace FamiliarAi

open Interaction Program

/-- What the manager keeps to. -/
structure ResidencyKept (outcome : Option ResidencyOutcome) (M : ResidencyManager)
    (h : ResidencyHistory) : Prop where
  routed : ∀ served, outcome = some served → served.Routed M
  /-- A model is launched while it has not failed, and restarted while it has attempts left since it
  was loaded. -/
  launched : ∀ e before, e :: before <:+ h → LaunchRule before e
  owned : ResidentsCareful h → ∀ key server, server ∈ (modelLog key h).running → M.Serves server
  replays : ResidentsCareful h →
    ∀ key, (modelLog key h).loaded = (M.residents.lookup key).map (·.serverIdentity)
  alive : ResidentsCareful h → Restored h →
    ∀ server, M.Serves server → server ∈ (modelLog server.residentKey h).running

theorem Tended.kept {outcome : Option ResidencyOutcome} {M : ResidencyManager}
    {h : ResidencyHistory} (htended : Tended M h)
    (hrouted : ∀ served, outcome = some served → served.Routed M) : ResidencyKept outcome M h := by
  refine
    { routed := hrouted
      launched := fun e before hsuffix ↦ htended.rule.allowed hsuffix List.nil_suffix
      owned := fun hcareful key server hserver ↦ ?_
      replays := fun hcareful key ↦ (htended.models key).log.replays hcareful
      alive := fun hcareful hrestored server ⟨resident, hlookup, hidentity⟩ ↦ ?_ }
  · have hmem := (htended.models key).log.owned hcareful hserver
    rw [ResidencyManager.log, Option.mem_toList, Option.map_eq_some_iff] at hmem
    obtain ⟨resident, hlookup, hidentity⟩ := hmem
    have hkey := ((htended.models key).named resident hlookup).2
    rw [hidentity] at hkey
    exact ⟨resident, hkey ▸ hlookup, hidentity⟩
  · have hsubset := (htended.models server.residentKey).log.alive hcareful hrestored
    rw [ResidencyManager.log, hlookup] at hsubset
    exact hsubset (hidentity ▸ List.mem_singleton_self _)

/-- **The residents of every run.** -/
theorem residents_kept (config : ModelResidencyConfig) (calls : List ResidencyCall)
    (env : ResidencyEnvironment) :
    After env (residencyRun config calls) [] (fun step h ↦ ResidencyKept step.1 step.2 h) nofun :=
  (after_residencyRun config calls).imp fun _ _ hstep ↦ hstep.1.kept hstep.2

def residencyHistory (config : ModelResidencyConfig) (calls : List ResidencyCall)
    (env : ResidencyEnvironment) : ResidencyHistory :=
  ((residencyRun config calls).run env []).2

def restartsSinceCleared (key : String) : ResidencyHistory → ℕ
  | [] => 0
  | ⟨.launch (.restartOrFail ..) spec _, _⟩ :: h =>
    if spec.residentKey = key then restartsSinceCleared key h + 1 else restartsSinceCleared key h
  | ⟨.called (.clearFailure cleared), _⟩ :: h =>
    if cleared = key then 0 else restartsSinceCleared key h
  | _ :: h => restartsSinceCleared key h

def restartedWithinBudget : ResidencyHistory → Bool
  | [] => true
  | ⟨.launch (.restartOrFail _ maxRestarts) spec _, _⟩ :: h =>
    restartsSinceCleared spec.residentKey h < maxRestarts && restartedWithinBudget h
  | _ :: h => restartedWithinBudget h

def oneResident : ModelResidencyConfig where
  enabled := true
  maxResidents := 1
  memoryCeilingMb := none
  maxRestarts := 1
  residents := fun key ↦
    if key = "coder" then some ⟨true, "local", ["serve"], none, 30⟩ else none

def oneWorker : WorkerRegistry := fun worker ↦
  if worker = "local" then some ⟨some (.ollama, "http://localhost"), some "artifact"⟩ else none

def answeredBefore (h : ResidencyHistory) (server : ServerIdentity) : Bool :=
  h.any fun e ↦ match e with
    | ⟨.probe probed _, .ok ()⟩ => probed = server
    | _ => false

def oneMachine (broken : List ℕ) (unrecorded : List ResidencyEvent) : ResidencyEnvironment
  | _, .artifactKnown _ => .ok true
  | _, .launch _ _ server => if server.number ∈ broken then .error "exited" else .ok ()
  | _, .probesUntilDeadline _ => 0
  | h, .probe server _ => if answeredBefore h server then .error "unreachable" else .ok ()
  | _, .stop _ => .ok ()
  | _, .record _ row => if row.event ∈ unrecorded then .error "database is locked" else .ok ()
  | _, .called _ => ()

/-- A load gives a model its attempts back, so over all its loads it is restarted more often. -/
theorem not_restartedWithinBudget :
    ¬∀ config calls env, restartedWithinBudget (residencyHistory config calls env) = true := by
  intro h
  let request := ResidencyCall.ensureResident (some oneWorker) "coder"
  have hwithin := h oneResident
    [request, .healthTick, .stop "coder" "operator", request, .healthTick] (oneMachine [] [])
  revert hwithin
  decide +kernel

end FamiliarAi
