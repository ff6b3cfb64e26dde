import FamiliarAi.Residency.Log

/-!
# The residents and their history

Each function of the manager is followed from a manager that agrees with its history to one that
does (`Tended`). A function that launches or stops a server works on one model: it begins with
`Tended.working`, and `Working.tended` ends it.

What is launched is recorded before the manager holds it, so a load that cannot be recorded leaves a
server running that no resident has.
-/

namespace FamiliarAi

open Interaction Program

namespace SameApart

variable {key : String} {M : ResidencyManager}

theorem clearFailure : SameApart key M (M.clearFailure key) :=
  ⟨fun _ _ ↦ rfl, fun _ hother ↦ Function.update_of_ne hother _ _,
    fun _ hother ↦ Function.update_of_ne hother _ _⟩

theorem nextServerIdentity : SameApart key M (M.nextServerIdentity key).2 :=
  ⟨fun _ _ ↦ rfl, fun _ _ ↦ rfl, fun _ _ ↦ rfl⟩

end SameApart

section

variable {env : ResidencyEnvironment} {M : ResidencyManager} {h : ResidencyHistory} {key : String}
  {log : ModelLog} {spec : ResidentLaunchSpec} {server : ServerIdentity} {resident : Resident}
  {caller : ResidencyCaller} {event : ResidencyEvent} {reason : String}
  {registry : Option WorkerRegistry} {keys : List String}

theorem after_awaitReady {baseUrl : String} {left : ℕ} (hworking : Working M h key log)
    (hkey : server.residentKey = key) :
    After env (ResidencyProgram.awaitReady server baseUrl left) h
      (fun answer h' ↦ match answer with
        | .ok () => Working M h' key log
        | .error _ => Working M h' key
            { log with running := log.running.filter (· ≠ server) }) nofun := by
  induction left generalizing h with
  | zero =>
    rw [ResidencyProgram.awaitReady, after_bind, ResidencyProgram.probe, after_perform]
    generalize env h (.probe server baseUrl) = answer
    rcases answer with error | ⟨⟩
    · show Working M (_ :: _ :: h) key _
      exact (hworking.skip rfl).stop hkey _
    · exact hworking.skip rfl
  | succ left ih =>
    rw [ResidencyProgram.awaitReady, after_bind, ResidencyProgram.probe, after_perform]
    generalize env h (.probe server baseUrl) = answer
    rcases answer with error | ⟨⟩
    · exact ih (hworking.skip rfl)
    · exact hworking.skip rfl

def Started (M : ResidencyManager) (key : String) (log : ModelLog) (caller : ResidencyCaller)
    (server : ServerIdentity) (h : ResidencyHistory) : Except String Unit → Prop
  | .ok () => Working M h key ⟨[server], some server, caller.restartsAfter log.restarts, log.failed⟩
  | .error _ => Working M h key ⟨[], log.loaded, caller.restartsAfter log.restarts, log.failed⟩

theorem after_start (hworking : Working M h key log) (hrunning : log.running = [])
    (hspec : spec.residentKey = key) (hserver : server.residentKey = key)
    (hfailed : log.failed = false) (hattempts : caller.HasAttempts log.restarts) :
    After env (ResidencyProgram.start caller spec server) h
      (fun answer h' ↦ Started M key log caller server h' answer) nofun := by
  have hrule : ∀ answer, LaunchRule h ⟨.launch caller spec server, answer⟩ := by
    intro answer
    show (modelLog spec.residentKey h).failed = false ∧
      caller.HasAttempts (modelLog spec.residentKey h).restarts
    rw [hspec, hworking.log.failed, hworking.log.restarts]
    exact ⟨hfailed, hattempts⟩
  rw [ResidencyProgram.start, after_bind, ResidencyProgram.launch, after_perform]
  generalize env h (.launch caller spec server) = answer
  obtain ⟨running, loaded, restarts, failed⟩ := log
  subst hrunning
  rcases answer with error | ⟨⟩
  · exact hworking.next (congrArg some hspec) (hrule _)
  · have hlaunched : Working M (⟨.launch caller spec server, .ok ()⟩ :: h) key
        ⟨[server], loaded, caller.restartsAfter restarts, failed⟩ :=
      hworking.next (congrArg some hspec) (hrule _)
    show After env (ResidencyProgram.probesUntilDeadline _ >>= _) _ _ _
    rw [after_bind, ResidencyProgram.probesUntilDeadline, after_perform, after_bind]
    refine (after_awaitReady (hlaunched.skip rfl) hserver).imp fun answer h' hanswer ↦ ?_
    rcases answer with error | ⟨⟩
    · show Working M h' key ⟨[], _, _, _⟩
      have hfilter : [server].filter (· ≠ server) = [] := by simp
      rwa [hfilter] at hanswer
    · show After env (ResidencyProgram.record _ _) h' _ _
      rw [ResidencyProgram.record, after_perform]
      have hrecord : ∀ answer, Working M (⟨.record caller ⟨spec, server, .loaded, none, none⟩,
          answer⟩ :: h') key _ := fun answer ↦ hanswer.next (congrArg some hspec) trivial
      generalize env h' (.record _ _) = answer
      rcases answer with error | ⟨⟩
      · exact (hrecord (.error error)).forget
          (fun hcareful ↦ (residentsCareful_cons.1 hcareful).1) rfl rfl
      · exact hrecord (.ok ())

/-- Residents were only removed. -/
def Shrunk (M M' : ResidencyManager) : Prop :=
  M'.failed = M.failed ∧ ∀ key, M.residents.lookup key = none → M'.residents.lookup key = none

theorem shrunk_remove : Shrunk M (M.remove key) := by
  refine ⟨rfl, fun other hlookup ↦ ?_⟩
  by_cases hother : other = key
  · exact hother ▸ AList.lookup_erase key M.residents
  · exact (AList.lookup_erase_ne hother).trans hlookup

theorem after_dismiss (htended : Tended M h) (hevent : event = .stopped ∨ event = .evicted) :
    After env (ResidencyProgram.dismiss key event reason M) h
      (fun step h' ↦ Tended step.2 h' ∧ Shrunk M step.2) nofun := by
  rw [ResidencyProgram.dismiss]
  rcases hlookup : M.residents.lookup key with _ | resident
  · exact ⟨htended, rfl, fun _ hother ↦ hother⟩
  obtain ⟨hspec, hserver⟩ := (htended.models key).named resident hlookup
  have hworking := htended.working key
  rw [ResidencyManager.log, hlookup] at hworking
  show After env (ResidencyProgram.stopServer _ >>= _) h _ _
  rw [after_bind, ResidencyProgram.stopServer, after_perform]
  generalize env h (.stop resident.serverIdentity) = answer
  have hstop := hworking.stop hserver answer
  have hfilter : [resident.serverIdentity].filter (· ≠ resident.serverIdentity) = [] := by simp
  replace hstop : Working M _ key ⟨[], some resident.serverIdentity, _, _⟩ := hfilter ▸ hstop
  show After env (ResidencyProgram.record _ _ >>= _) _ _ _
  rw [after_bind, ResidencyProgram.record, after_perform]
  have hremoved : (M.remove key).residents.lookup key = none := AList.lookup_erase _ _
  generalize env _ (.record _ _) = recorded
  have hrecord := hstop.next (e := ⟨.record .dismiss ⟨resident.spec, resident.serverIdentity,
    event, some reason, none⟩, recorded⟩) (congrArg some hspec) trivial
  rcases recorded with error | ⟨⟩
  · have hforget : Working M _ key
        ⟨[], none, (modelLog key h).restarts, (M.failed key).isSome⟩ :=
      hrecord.forget (fun hcareful ↦ (residentsCareful_cons.1 hcareful).1) rfl rfl
    exact ⟨(hforget.congr .remove).tended_of_lookup_eq_none hremoved rfl rfl rfl, shrunk_remove⟩
  · rcases hevent with rfl | rfl
    · exact ⟨(hrecord.congr .remove).tended_of_lookup_eq_none hremoved rfl rfl rfl, shrunk_remove⟩
    · exact ⟨(hrecord.congr .remove).tended_of_lookup_eq_none hremoved rfl rfl rfl, shrunk_remove⟩

/-- What is known after room was made. -/
def HasRoom (M : ResidencyManager) (candidate : ResidentLaunchSpec)
    (step : ResidencyStep (Option String)) (h : ResidencyHistory) : Prop :=
  Tended step.2 h ∧ Shrunk M step.2 ∧
    (step.1 = .ok none → step.2.breachedCeiling candidate = .ok none)

theorem after_makeRoom {rounds : ℕ} (htended : Tended M h) :
    After env (ResidencyProgram.makeRoom spec rounds M) h (HasRoom M spec) nofun := by
  induction rounds generalizing M h with
  | zero =>
    rw [ResidencyProgram.makeRoom]
    rcases hbreached : M.breachedCeiling spec with error | breached
    · exact ⟨htended, ⟨rfl, fun _ hother ↦ hother⟩, nofun⟩
    cases breached with
    | none => exact ⟨htended, ⟨rfl, fun _ hother ↦ hother⟩, fun _ ↦ hbreached⟩
    | some ceiling => exact ⟨htended, ⟨rfl, fun _ hother ↦ hother⟩, nofun⟩
  | succ rounds ih =>
    rw [ResidencyProgram.makeRoom]
    rcases hbreached : M.breachedCeiling spec with error | breached
    · exact ⟨htended, ⟨rfl, fun _ hother ↦ hother⟩, nofun⟩
    rcases breached with _ | ceiling
    · exact ⟨htended, ⟨rfl, fun _ hother ↦ hother⟩, fun _ ↦ hbreached⟩
    rcases hvictim : M.leastRecentlyUsed with _ | victim
    · exact ⟨htended, ⟨rfl, fun _ hother ↦ hother⟩, nofun⟩
    show After env (ResidencyProgram.dismiss _ _ _ _ >>= _) h _ _
    rw [after_bind]
    refine (after_dismiss htended (.inr rfl)).imp fun step h' hstep ↦ ?_
    obtain ⟨answer, M'⟩ := step
    obtain ⟨htended', hshrunk⟩ := hstep
    rcases answer with error | evicted
    · exact ⟨htended', hshrunk, nofun⟩
    · refine (ih htended').imp fun step h'' hroom ↦ ⟨hroom.1, ⟨?_, ?_⟩, hroom.2.2⟩
      · exact hroom.2.1.1.trans hshrunk.1
      · exact fun key hlookup ↦ hroom.2.1.2 key (hshrunk.2 key hlookup)

theorem after_makeRoomFor (htended : Tended M h) :
    After env (ResidencyProgram.makeRoomFor spec M) h (HasRoom M spec) nofun := by
  rw [ResidencyProgram.makeRoomFor]
  split
  · split_ifs
    · exact ⟨htended, ⟨rfl, fun _ hother ↦ hother⟩, nofun⟩
    · exact after_makeRoom htended
  · exact after_makeRoom htended

/-! ### Loading -/

theorem after_recordFailed (hworking : Working M h key log) (hrunning : log.running = [])
    (hfailed : log.failed = (M.failed key).isSome) (hlookup : M.residents.lookup key = none)
    (hspec : spec.residentKey = key) :
    After env (ResidencyProgram.recordFailed caller key spec server reason M) h
      (fun step h' ↦ Tended step.2 h') nofun := by
  rw [ResidencyProgram.recordFailed, after_bind, ResidencyProgram.record, after_perform]
  generalize env h (.record _ _) = answer
  have hrecord := hworking.next (e := ⟨.record caller
    ⟨spec, server, .failed, some "health-restart-exhausted", none⟩, answer⟩)
    (congrArg some hspec) trivial
  rcases answer with error | ⟨⟩
  · have hforget : Working M _ key ⟨[], none, log.restarts, log.failed⟩ :=
      hrecord.forget (fun hcareful ↦ (residentsCareful_cons.1 hcareful).1) rfl rfl
    exact hforget.tended_of_lookup_eq_none hlookup rfl rfl hfailed
  · have hfail : (M.fail key reason).failed key = some reason := Function.update_self ..
    refine (hrecord.congr .fail).tended_of_lookup_eq_none hlookup hrunning rfl ?_
    rw [hfail]
    rfl

def ResidencyManager.Serves (M : ResidencyManager) (server : ServerIdentity) : Prop :=
  ∃ resident, M.residents.lookup server.residentKey = some resident ∧
    resident.serverIdentity = server

def ResidencyManager.WithinCeilings (M : ResidencyManager) : Prop :=
  M.residents.entries.length ≤ M.config.maxResidents ∧
    ∀ ceiling, M.config.memoryCeilingMb = some ceiling → M.heldMb ≤ ceiling

def ResidencyOutcome.Routed (M : ResidencyManager) : ResidencyOutcome → Prop
  | warm server _ => M.Serves server
  | cold server _ => M.Serves server ∧ M.WithinCeilings
  | notResident _ => True

/-- What is known after an execution was routed. -/
def RoutedStep (step : ResidencyStep ResidencyOutcome) (h : ResidencyHistory) : Prop :=
  Tended step.2 h ∧ ∀ outcome, step.1 = .ok outcome → outcome.Routed step.2

theorem after_loadFailed {restarts : ℕ} (hworking : Working M h key ⟨[], none, restarts, false⟩)
    (hlookup : M.residents.lookup key = none) (hfailed : M.failed key = none)
    (hspec : spec.residentKey = key) :
    After env (ResidencyProgram.loadFailed key spec server reason M) h RoutedStep nofun := by
  rw [ResidencyProgram.loadFailed]
  show After env (ResidencyProgram.record _ _ >>= _) h _ _
  rw [after_bind, ResidencyProgram.record, after_perform]
  let M' := M.setAttempts key (M.failureAttempts key + 1)
  have hfailed' : (M'.failed key).isSome = false := by
    show (M.failed key).isSome = false
    rw [hfailed]
    rfl
  generalize env h (.record _ _) = answer
  have hrecord : Working M' (⟨.record .ensureResident
      ⟨spec, server, .healthFailed, some reason, none⟩, answer⟩ :: h) key _ :=
    (hworking.congr .setAttempts).next (congrArg some hspec) trivial
  rcases answer with error | ⟨⟩
  · refine ⟨hrecord.tended_of_lookup_eq_none hlookup rfl rfl hfailed'.symm, nofun⟩
  · replace hrecord : Working M' _ key ⟨[], none, restarts, false⟩ := hrecord
    show After env (if _ then _ else _) _ _ _
    split_ifs
    · show After env (ResidencyProgram.recordFailed _ _ _ _ _ _ >>= _) _ _ _
      rw [after_bind]
      refine (after_recordFailed hrecord rfl hfailed'.symm hlookup hspec).imp fun step h' hstep ↦ ?_
      obtain ⟨answer, M''⟩ := step
      rcases answer with error | ⟨⟩
      · exact ⟨hstep, nofun⟩
      · refine ⟨hstep, fun outcome houtcome ↦ ?_⟩
        cases houtcome
        trivial
    · refine ⟨hrecord.tended_of_lookup_eq_none hlookup rfl rfl hfailed'.symm, ?_⟩
      rintro outcome ⟨⟩
      trivial

theorem withinCeilings_insertResident (hroom : M.breachedCeiling spec = .ok none)
    (hlookup : M.residents.lookup key = none) :
    (M.insertResident key spec server).WithinCeilings := by
  have hentries : (M.insertResident key spec server).residents.entries =
      ⟨key, ⟨spec, server, M.uses + 1⟩⟩ :: M.residents.entries :=
    AList.entries_insert_of_notMem (AList.lookup_eq_none.1 hlookup)
  rw [ResidencyManager.breachedCeiling] at hroom
  by_cases hcount : M.config.maxResidents < M.residents.entries.length + 1
  · rw [if_pos hcount] at hroom
    cases hroom
  · rw [if_neg hcount] at hroom
    refine ⟨?_, fun ceiling hceiling ↦ ?_⟩
    · rw [hentries, List.length_cons]
      exact Nat.le_of_not_lt hcount
    · have hheld : (M.insertResident key spec server).heldMb = spec.memoryMb.getD 0 + M.heldMb := by
        rw [ResidencyManager.heldMb, hentries, List.map_cons, List.sum_cons]
        rfl
      replace hceiling : M.config.memoryCeilingMb = some ceiling := hceiling
      rw [hceiling] at hroom
      show (M.insertResident key spec server).heldMb ≤ ceiling
      by_cases hoverflow : 2 ^ 64 ≤ M.heldMb + spec.memoryMb.getD 0
      · cases (if_pos hoverflow).symm.trans hroom
      · by_cases hmemory : ceiling < M.heldMb + spec.memoryMb.getD 0
        · cases ((if_neg hoverflow).trans (if_pos hmemory)).symm.trans hroom
        · omega

theorem after_load (htended : Tended M h) (hlookup : M.residents.lookup key = none)
    (hfailed : M.failed key = none) (hspec : spec.residentKey = key)
    (hroom : M.breachedCeiling spec = .ok none) :
    After env (ResidencyProgram.load key spec M) h RoutedStep nofun := by
  rw [ResidencyProgram.load]
  let server := (M.nextServerIdentity key).1
  let M' := (M.nextServerIdentity key).2
  have hworking := (htended.working key).congr .nextServerIdentity
  rw [ResidencyManager.log, hlookup, hfailed] at hworking
  replace hworking : Working M' h key ⟨[], none, (modelLog key h).restarts, false⟩ := hworking
  show After env (ResidencyProgram.start _ _ _ >>= _) h _ _
  rw [after_bind]
  have hattempts : ResidencyCaller.ensureResident.HasAttempts (modelLog key h).restarts := trivial
  refine (after_start hworking rfl hspec rfl rfl hattempts).imp fun answer h' hstarted ↦ ?_
  rcases answer with error | ⟨⟩
  · exact after_loadFailed hstarted hlookup hfailed hspec
  · let M'' := (M'.setAttempts key 0).insertResident key spec server
    have hlookup'' : M''.residents.lookup key = some ⟨spec, server, M.uses + 1⟩ :=
      AList.lookup_insert _
    have hattempts'' : M''.failureAttempts key = 0 := Function.update_self ..
    have hstarted' : Working M'' h' key ⟨[server], some server, M''.failureAttempts key, false⟩ :=
      hattempts'' ▸ (hstarted.congr .setAttempts).congr .insertResident
    refine ⟨hstarted'.tended_of_lookup_eq_some hlookup'' hfailed ⟨hspec, rfl⟩, ?_⟩
    rintro outcome ⟨⟩
    refine ⟨⟨_, hlookup'', rfl⟩, ?_⟩
    exact withinCeilings_insertResident (M := M'.setAttempts key 0) hroom hlookup

theorem after_loadResident (htended : Tended M h) (hlookup : M.residents.lookup key = none)
    (hfailed : M.failed key = none) (hspec : spec.residentKey = key) :
    After env (ResidencyProgram.loadResident key spec M) h RoutedStep nofun := by
  rw [ResidencyProgram.loadResident, after_bind, ResidencyProgram.artifactKnown, after_perform]
  have hasked := htended.skip (e := ⟨.artifactKnown spec.modelArtifactId,
    env h (.artifactKnown spec.modelArtifactId)⟩) rfl
  generalize env h (.artifactKnown _) = answer at hasked ⊢
  rcases answer with error | _ | _
  · exact ⟨hasked, nofun⟩
  · refine ⟨hasked, ?_⟩
    rintro outcome ⟨⟩
    trivial
  · show After env (ResidencyProgram.makeRoomFor _ _ >>= _) _ _ _
    rw [after_bind]
    refine (after_makeRoomFor hasked).imp fun step h' hstep ↦ ?_
    obtain ⟨answer, M'⟩ := step
    obtain ⟨htended', hshrunk, hroom⟩ := hstep
    rcases answer with error | _ | refusal
    · exact ⟨htended', nofun⟩
    · have hfailed' : M'.failed key = none := (congrFun hshrunk.1 key).trans hfailed
      exact after_load htended' (hshrunk.2 key hlookup) hfailed' hspec (hroom rfl)
    · refine ⟨htended', ?_⟩
      rintro outcome ⟨⟩
      trivial

theorem launchSpec_residentKey {entry : ResidentModelConfig}
    (hspec : launchSpec key entry registry = .ok spec) : spec.residentKey = key := by
  rw [launchSpec] at hspec
  split at hspec
  · cases hspec
  · split at hspec
    · cases hspec
    · split at hspec
      · cases hspec
      · cases hspec
        rfl

theorem tended_touch (htended : Tended M h) (hlookup : M.residents.lookup key = some resident) :
    Tended (ResidencyProgram.touch key resident M) h ∧
      (ResidencyProgram.touch key resident M).Serves resident.serverIdentity := by
  let touched : Resident := { resident with lastUsed := M.uses + 1 }
  let M' := ResidencyProgram.touch key resident M
  have hnamed := (htended.models key).named resident hlookup
  have hlookup' : M'.residents.lookup key = some touched := AList.lookup_insert _
  have hsame : SameApart key M M' :=
    ⟨fun _ hother ↦ AList.lookup_insert_ne hother, fun _ _ ↦ rfl, fun _ _ ↦ rfl⟩
  have hworking := (htended.working key).congr hsame
  have hbudget := (htended.models key).budget resident hlookup
  rw [ResidencyManager.log, hlookup, htended.failed_eq_none hlookup, hbudget] at hworking
  replace hworking : Working M' h key
      ⟨[touched.serverIdentity], some touched.serverIdentity, M'.failureAttempts key, false⟩ :=
    hworking
  refine ⟨hworking.tended_of_lookup_eq_some hlookup' (htended.failed_eq_none hlookup) hnamed, ?_⟩
  refine ⟨touched, ?_, rfl⟩
  rw [hnamed.2]
  exact hlookup'

theorem after_ensureResident (htended : Tended M h) :
    After env (ResidencyProgram.ensureResident registry key M) h RoutedStep nofun := by
  have hrefuse : ∀ refusal, RoutedStep (.ok (.notResident refusal), M) h := by
    refine fun refusal ↦ ⟨htended, ?_⟩
    rintro outcome ⟨⟩
    trivial
  rw [ResidencyProgram.ensureResident]
  split_ifs
  · exact hrefuse _
  · split
    · exact hrefuse _
    · split_ifs
      · exact hrefuse _
      · split
        · exact hrefuse _
        · next resident hfailed hlookup =>
          obtain ⟨htended', hserves⟩ := tended_touch htended hlookup
          refine ⟨htended', ?_⟩
          rintro outcome ⟨⟩
          exact hserves
        · next hfailed hlookup =>
          split
          · exact hrefuse _
          · next spec hspec =>
            exact after_loadResident htended hlookup hfailed (launchSpec_residentKey hspec)

/-! ### Restarting -/

theorem tended_recordHealthFailed (caller : ResidencyCaller) (row : ResidencyEventRow)
    (answer : Except String Unit) (htended : Tended M h) (hspec : row.spec.residentKey = key)
    (hevent : row.event = .healthFailed)
    (hlookup : M.residents.lookup key = some resident) :
    Tended M (⟨.record caller row, answer⟩ :: h) := by
  have hrecord := (htended.working key).next (e := ⟨.record caller row, answer⟩)
    (congrArg some hspec) trivial
  have hlog : (M.log key (modelLog key h).restarts).next ⟨.record caller row, answer⟩ =
      M.log key (modelLog key h).restarts := by
    rcases answer with error | ⟨⟩
    · rfl
    · show ModelLog.replay _ row = _
      rw [ModelLog.replay, hevent]
  rw [hlog, (htended.models key).budget resident hlookup, ResidencyManager.log, hlookup,
    htended.failed_eq_none hlookup] at hrecord
  exact hrecord.tended_of_lookup_eq_some hlookup (htended.failed_eq_none hlookup)
    ((htended.models key).named resident hlookup)

theorem after_restartFailed {attempt : ℕ}
    (hworking : Working M h key ⟨[], some resident.serverIdentity, M.failureAttempts key, false⟩)
    (hlookup : M.residents.lookup key = some resident) (hfailed : M.failed key = none)
    (hnamed : resident.spec.residentKey = key ∧ resident.serverIdentity.residentKey = key) :
    After env (ResidencyProgram.restartFailed key resident.spec server attempt reason M) h
      (fun step h' ↦ Tended step.2 h') nofun := by
  rw [ResidencyProgram.restartFailed]
  show After env (ResidencyProgram.record _ _ >>= _) h _ _
  rw [after_bind, ResidencyProgram.record, after_perform]
  have hrecord : ∀ answer, Working M (⟨.record (.restartOrFail attempt M.config.maxRestarts)
      ⟨resident.spec, server, .healthFailed, some reason, none⟩, answer⟩ :: h) key _ :=
    fun answer ↦ hworking.next (congrArg some hnamed.1) trivial
  generalize env h (.record _ _) = answer
  rcases answer with error | ⟨⟩
  · have hforget : Working M _ key
        ⟨[resident.serverIdentity], some resident.serverIdentity, M.failureAttempts key, false⟩ :=
      (hrecord (.error error)).forget (fun hcareful ↦ (residentsCareful_cons.1 hcareful).1) rfl rfl
    exact hforget.tended_of_lookup_eq_some hlookup hfailed hnamed
  · show After env (if _ then _ else _) _ _ _
    split_ifs with hexhausted
    · refine after_recordFailed ((hrecord (.ok ())).congr .remove) rfl ?_
        (AList.lookup_erase key M.residents) hnamed.1
      show false = (M.failed key).isSome
      rw [hfailed]
      rfl
    · have hgiveUp : ¬Restored (⟨.record (.restartOrFail attempt M.config.maxRestarts)
          ⟨resident.spec, server, .healthFailed, some reason, none⟩, .ok ()⟩ :: h) :=
        fun hrestored ↦ (restored_cons.1 hrestored).1 ⟨rfl, Nat.lt_of_not_le hexhausted⟩
      have hkeeps : Working M _ key
          ⟨[resident.serverIdentity], some resident.serverIdentity, M.failureAttempts key, false⟩ :=
        (hrecord (.ok ())).giveUp hgiveUp (List.nil_subset _) rfl rfl rfl
      exact hkeeps.tended_of_lookup_eq_some hlookup hfailed hnamed

theorem after_restartOrFail (htended : Tended M h)
    (hlookup : M.residents.lookup key = some resident) :
    After env (ResidencyProgram.restartOrFail key resident.spec resident.serverIdentity M) h
      (fun step h' ↦ Tended step.2 h') nofun := by
  have hnamed := (htended.models key).named resident hlookup
  have hfailed := htended.failed_eq_none hlookup
  have hworking := htended.working key
  have hbudget := (htended.models key).budget resident hlookup
  rw [ResidencyManager.log, hlookup, hfailed, hbudget] at hworking
  rw [ResidencyProgram.restartOrFail]
  show After env (ResidencyProgram.stopServer _ >>= _) h _ _
  rw [after_bind, ResidencyProgram.stopServer, after_perform]
  generalize env h (.stop resident.serverIdentity) = answer
  have hstop := hworking.stop hnamed.2 answer
  have hfilter : [resident.serverIdentity].filter (· ≠ resident.serverIdentity) = [] := by simp
  replace hstop : Working M _ key
      ⟨[], some resident.serverIdentity, M.failureAttempts key, false⟩ := hfilter ▸ hstop
  show After env (if _ then _ else _) _ _ _
  split_ifs with hexhausted
  · refine after_recordFailed (hstop.congr .remove) rfl ?_ (AList.lookup_erase key M.residents)
      hnamed.1
    show false = (M.failed key).isSome
    rw [hfailed]
    rfl
  · let server := (M.nextServerIdentity key).1
    let M' := ((M.setAttempts key (M.failureAttempts key + 1)).nextServerIdentity key).2
    have hattempts' : M'.failureAttempts key = M.failureAttempts key + 1 := Function.update_self ..
    have hworking' : Working M' _ key
        ⟨[], some resident.serverIdentity, M.failureAttempts key, false⟩ :=
      (hstop.congr .setAttempts).congr .nextServerIdentity
    let caller : ResidencyCaller :=
      .restartOrFail (M.failureAttempts key + 1) M.config.maxRestarts
    have hleft : caller.HasAttempts (M.failureAttempts key) := Nat.lt_of_not_le hexhausted
    show After env (ResidencyProgram.start caller resident.spec server >>= _) _ _ _
    rw [after_bind]
    refine (after_start hworking' rfl hnamed.1 rfl rfl hleft).imp fun answer h' hstarted ↦ ?_
    rcases answer with error | ⟨⟩
    · have hstarted' : Working M' h' key
          ⟨[], some resident.serverIdentity, M'.failureAttempts key, false⟩ := hattempts' ▸ hstarted
      exact after_restartFailed hstarted' hlookup hfailed hnamed
    · show After env (ResidencyProgram.record _ _ >>= _) h' _ _
      rw [after_bind, ResidencyProgram.record, after_perform]
      let M'' := M'.insertResident key resident.spec server
      have hlookup'' : M''.residents.lookup key = some ⟨resident.spec, server, M'.uses + 1⟩ :=
        AList.lookup_insert _
      have hstarted' : Working M'' h' key ⟨[server], some server, M''.failureAttempts key, false⟩ :=
        hattempts' ▸ hstarted.congr .insertResident
      generalize env h' (.record _ _) = answer
      have hrecord := hstarted'.next (e := ⟨.record caller
        ⟨resident.spec, server, .restarted, some "health-probe-failed",
          some (M.failureAttempts key + 1)⟩, answer⟩) (congrArg some hnamed.1) trivial
      have hrestarted : ModelLog.next ⟨[server], some server, M''.failureAttempts key, false⟩
          ⟨.record caller ⟨resident.spec, server, .restarted, some "health-probe-failed",
            some (M.failureAttempts key + 1)⟩, answer⟩ =
          ⟨[server], some server, M''.failureAttempts key, false⟩ := by
        rcases answer with error | ⟨⟩ <;> rfl
      rw [hrestarted] at hrecord
      exact hrecord.tended_of_lookup_eq_some hlookup'' hfailed ⟨hnamed.1, rfl⟩

theorem after_checkHealth (htended : Tended M h) :
    After env (ResidencyProgram.checkHealth key M) h (fun step h' ↦ Tended step.2 h') nofun := by
  rw [ResidencyProgram.checkHealth]
  rcases hlookup : M.residents.lookup key with _ | resident
  · exact htended
  show After env (ResidencyProgram.probe _ _ >>= _) h _ _
  rw [after_bind, ResidencyProgram.probe, after_perform]
  have hprobe := htended.skip (e := ⟨.probe resident.serverIdentity resident.spec.baseUrl,
    env h (.probe resident.serverIdentity resident.spec.baseUrl)⟩) rfl
  generalize env h (.probe _ _) = answer at hprobe ⊢
  rcases answer with error | ⟨⟩
  · show After env (ResidencyProgram.record _ _ >>= _) _ _ _
    rw [after_bind, ResidencyProgram.record, after_perform]
    generalize env _ (.record _ _) = answer
    have hrecord := tended_recordHealthFailed .healthTick ⟨resident.spec,
      resident.serverIdentity, .healthFailed, some ("health-probe-failed:" ++ error), none⟩
      answer hprobe ((htended.models key).named resident hlookup).1 rfl hlookup
    rcases answer with error | ⟨⟩
    · exact hrecord
    · exact after_restartOrFail hrecord hlookup
  · exact hprobe

/-- One model after the other, as long as nothing fails. -/
theorem after_checkEach (htended : Tended M h) :
    After env (ResidencyProgram.checkEach keys M) h (fun step h' ↦ Tended step.2 h') nofun := by
  induction keys generalizing M h with
  | nil => exact htended
  | cons key keys ih =>
    rw [ResidencyProgram.checkEach, after_bind]
    refine (after_checkHealth htended).imp fun step h' hstep ↦ ?_
    obtain ⟨answer, M'⟩ := step
    rcases answer with error | ⟨⟩
    · exact hstep
    · exact ih hstep

theorem after_stopEach (htended : Tended M h) :
    After env (ResidencyProgram.stopEach reason keys M) h
      (fun step h' ↦ Tended step.2 h') nofun := by
  induction keys generalizing M h with
  | nil => exact htended
  | cons key keys ih =>
    rw [ResidencyProgram.stopEach, ResidencyProgram.stop, after_bind]
    refine (after_dismiss htended (.inl rfl)).imp fun step h' hstep ↦ ?_
    obtain ⟨answer, M'⟩ := step
    rcases answer with error | stopped
    · exact hstep.1
    · exact ih hstep.1

theorem after_healthTick (htended : Tended M h) :
    After env (ResidencyProgram.healthTick M) h (fun step h' ↦ Tended step.2 h') nofun := by
  rw [ResidencyProgram.healthTick, ResidencyProgram.reconcile, after_bind]
  refine (after_stopEach htended).imp fun step h' hstep ↦ ?_
  obtain ⟨answer, M'⟩ := step
  rcases answer with error | ⟨⟩
  · exact hstep
  · exact after_checkEach hstep

theorem tended_clearFailure (htended : Tended M h) :
    Tended (M.clearFailure key) (⟨.called (.clearFailure key), ()⟩ :: h) := by
  have hcleared := ((htended.working key).next (e := ⟨.called (.clearFailure key), ()⟩) rfl
    trivial).congr .clearFailure
  have hfailed : (M.clearFailure key).failed key = none := Function.update_self ..
  have hattempts : (M.clearFailure key).failureAttempts key = 0 := Function.update_self ..
  refine hcleared.tended ?_ (htended.models key).named (fun hsome ↦ ?_) (fun _ _ ↦ hattempts.symm)
  · rw [ResidencyManager.log, hfailed]
    rfl
  · rw [hfailed] at hsome
    cases hsome

def TendedCall (step : Option ResidencyOutcome × ResidencyManager) (h : ResidencyHistory) : Prop :=
  Tended step.2 h ∧ ∀ outcome, step.1 = some outcome → outcome.Routed step.2

/-- **One call.** -/
theorem after_call {call : ResidencyCall} (htended : Tended M h) :
    After env (Program.perform (ResidencyOp.called call) >>= fun _ ↦ call.perform M) h
      TendedCall nofun := by
  rw [after_bind, after_perform]
  cases call with
  | ensureResident registry key =>
    rw [ResidencyCall.perform, after_bind]
    refine (after_ensureResident (htended.skip rfl)).imp fun step h' hstep ↦ ?_
    obtain ⟨answer, M'⟩ := step
    rcases answer with error | outcome
    · exact ⟨hstep.1, nofun⟩
    · refine ⟨hstep.1, ?_⟩
      rintro _ ⟨⟩
      exact hstep.2 outcome rfl
  | stop key reason =>
    rw [ResidencyCall.perform, ResidencyProgram.stop, after_bind]
    exact (after_dismiss (htended.skip rfl) (.inl rfl)).imp fun step h' hstep ↦ ⟨hstep.1, nofun⟩
  | stopAll reason =>
    rw [ResidencyCall.perform, ResidencyProgram.stopAll, after_bind]
    exact (after_stopEach (htended.skip rfl)).imp fun step h' hstep ↦ ⟨hstep, nofun⟩
  | reconcile =>
    rw [ResidencyCall.perform, ResidencyProgram.reconcile, after_bind]
    exact (after_stopEach (htended.skip rfl)).imp fun step h' hstep ↦ ⟨hstep, nofun⟩
  | healthTick =>
    rw [ResidencyCall.perform, after_bind]
    exact (after_healthTick (htended.skip rfl)).imp fun step h' hstep ↦ ⟨hstep, nofun⟩
  | clearFailure key => exact ⟨tended_clearFailure htended, nofun⟩
  | setConfig config => exact ⟨(htended.skip rfl).congr rfl rfl rfl, nofun⟩

theorem after_residencyRun (config : ModelResidencyConfig) (calls : List ResidencyCall) :
    After env (residencyRun config calls) [] TendedCall nofun := by
  let I : List ResidencyCall → Option ResidencyOutcome × ResidencyManager →
      ResidencyHistory → Prop := fun _ step h ↦ TendedCall step h
  have hstart : I [] (none, { config := config }) [] := ⟨.nil config, nofun⟩
  have hrun : After env (residencyRun config calls) [] (I ([] ++ calls)) nofun :=
    After.foldlM hstart fun _ step call h _ hstep ↦ after_call hstep.1
  exact hrun

end

end FamiliarAi
