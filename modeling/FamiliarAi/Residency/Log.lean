import FamiliarAi.Residency.Manager

/-!
# What the history says of a model

A history of the manager tells for each model which servers run, what the recorded events replay to,
how often it was restarted and whether it has failed (`modelLog`). `Tended M h` says that the
manager agrees with its history. As far as running servers and recorded events go it can only be
said of a history in which every event was recorded and every stop succeeded (`ResidentsCareful`),
and that a resident is alive only when besides no restart failed with attempts left (`Restored`).

A function of the manager works on one model at a time. While it does, the manager may disagree with
the history about that model, of which `Working` says what the history tells.
-/

namespace FamiliarAi

open Interaction

abbrev ResidencyHistoryEvent := Event ResidencyOp ResidencyOp.Answer

/-- The model that an event is about. -/
def ResidencyHistoryEvent.key : ResidencyHistoryEvent → Option String
  | ⟨.launch _ spec _, _⟩ => some spec.residentKey
  | ⟨.stop server, _⟩ => some server.residentKey
  | ⟨.record _ row, _⟩ => some row.spec.residentKey
  | ⟨.called (.clearFailure key), _⟩ => some key
  | _ => none

/-- The restarts of a model after a launch. One that is loaded begins anew. -/
def ResidencyCaller.restartsAfter (restarts : ℕ) : ResidencyCaller → ℕ
  | restartOrFail .. => restarts + 1
  | _ => 0

def ResidencyCaller.HasAttempts (restarts : ℕ) : ResidencyCaller → Prop
  | restartOrFail _ maxRestarts => restarts < maxRestarts
  | _ => True

/-- What a history says of one model. -/
structure ModelLog where
  /-- The servers that were launched and not stopped. -/
  running : List ServerIdentity := []
  loaded : Option ServerIdentity := none
  /-- The restarts since the model was loaded or its failure cleared. -/
  restarts : ℕ := 0
  /-- It was recorded as failed, and that was not cleared. -/
  failed : Bool := false

namespace ModelLog

variable (log : ModelLog)

def launched (server : ServerIdentity) : Except String Unit → List ServerIdentity
  | .ok () => server :: log.running
  | .error _ => log.running

def replay (row : ResidencyEventRow) : ModelLog :=
  match row.event with
  | .loaded | .restarted => { log with loaded := some row.serverIdentity }
  | .stopped | .evicted => { log with loaded := none }
  | .failed => { log with loaded := none, failed := true }
  | .healthFailed => log

def next : ResidencyHistoryEvent → ModelLog
  | ⟨.launch caller _ server, answer⟩ =>
    { log with
      running := log.launched server answer
      restarts := caller.restartsAfter log.restarts }
  | ⟨.stop server, .ok ()⟩ => { log with running := log.running.filter (· ≠ server) }
  | ⟨.record _ row, .ok ()⟩ => log.replay row
  | ⟨.called (.clearFailure _), _⟩ => { log with restarts := 0, failed := false }
  | _ => log

end ModelLog

def modelLog (key : String) : ResidencyHistory → ModelLog
  | [] => {}
  | e :: h =>
    if ResidencyHistoryEvent.key e = some key then (modelLog key h).next e else modelLog key h

def ResidencyHistoryEvent.Succeeds : ResidencyHistoryEvent → Prop
  | ⟨.stop _, .error _⟩ => False
  | ⟨.record .., .error _⟩ => False
  | _ => True

/-- Every event was recorded and every stop succeeded. -/
def ResidentsCareful (h : ResidencyHistory) : Prop :=
  ∀ e ∈ h, ResidencyHistoryEvent.Succeeds e

def ResidencyHistoryEvent.GivesUp : ResidencyHistoryEvent → Prop
  | ⟨.record (.restartOrFail attempt maxRestarts) row, _⟩ =>
    row.event = .healthFailed ∧ attempt < maxRestarts
  | _ => False

/-- No restart failed with attempts left. -/
def Restored (h : ResidencyHistory) : Prop :=
  ∀ e ∈ h, ¬ResidencyHistoryEvent.GivesUp e

def LaunchRule (before : ResidencyHistory) : ResidencyHistoryEvent → Prop
  | ⟨.launch caller spec _, _⟩ => (modelLog spec.residentKey before).failed = false ∧
      caller.HasAttempts (modelLog spec.residentKey before).restarts
  | _ => True

section

variable {key other : String} {h : ResidencyHistory} {e : ResidencyHistoryEvent}

theorem modelLog_cons_of_eq (he : e.key = some key) :
    modelLog key (e :: h) = (modelLog key h).next e :=
  if_pos he

theorem modelLog_cons_of_ne (he : e.key ≠ some key) : modelLog key (e :: h) = modelLog key h :=
  if_neg he

theorem residentsCareful_cons : ResidentsCareful (e :: h) ↔ e.Succeeds ∧ ResidentsCareful h :=
  List.forall_mem_cons

theorem restored_cons : Restored (e :: h) ↔ ¬e.GivesUp ∧ Restored h :=
  List.forall_mem_cons

theorem launchRule_of_key_eq_none (he : e.key = none) : LaunchRule h e := by
  rcases e with ⟨op, answer⟩
  cases op with
  | launch => cases he
  | artifactKnown | probesUntilDeadline | probe | stop | record | called => trivial

/-! ### The log of one model -/

/-- The history tells this of a model. -/
structure LogIs (h : ResidencyHistory) (key : String) (log : ModelLog) : Prop where
  restarts : (modelLog key h).restarts = log.restarts
  failed : (modelLog key h).failed = log.failed
  owned : ResidentsCareful h → (modelLog key h).running ⊆ log.running
  replays : ResidentsCareful h → (modelLog key h).loaded = log.loaded
  alive : ResidentsCareful h → Restored h → log.running ⊆ (modelLog key h).running

namespace LogIs

variable {log log' : ModelLog} {server : ServerIdentity} {answer : Except String Unit}

/-- An event about no model or another one. -/
theorem skip (hlog : LogIs h key log) (he : e.key ≠ some key) : LogIs (e :: h) key log := by
  have heq : modelLog key (e :: h) = modelLog key h := modelLog_cons_of_ne he
  exact
    { restarts := heq ▸ hlog.restarts
      failed := heq ▸ hlog.failed
      owned := fun hcareful ↦ heq ▸ hlog.owned (residentsCareful_cons.1 hcareful).2
      replays := fun hcareful ↦ heq ▸ hlog.replays (residentsCareful_cons.1 hcareful).2
      alive := fun hcareful hrestored ↦ heq ▸
        hlog.alive (residentsCareful_cons.1 hcareful).2 (restored_cons.1 hrestored).2 }

theorem forget (hlog : LogIs h key log) (hh : ¬ResidentsCareful h)
    (hrestarts : log.restarts = log'.restarts) (hfailed : log.failed = log'.failed) :
    LogIs h key log' :=
  { restarts := hlog.restarts.trans hrestarts
    failed := hlog.failed.trans hfailed
    owned := fun hcareful ↦ (hh hcareful).elim
    replays := fun hcareful ↦ (hh hcareful).elim
    alive := fun hcareful ↦ (hh hcareful).elim }

theorem next_running (hsubset : log.running ⊆ log'.running) :
    (log.next e).running ⊆ (log'.next e).running := by
  rcases e with ⟨op, answer⟩
  cases op with
  | launch caller spec server =>
    rcases answer with error | ⟨⟩
    · exact hsubset
    · exact List.cons_subset_cons server hsubset
  | stop server =>
    rcases answer with error | ⟨⟩
    · exact hsubset
    · exact List.filter_subset _ hsubset
  | record caller row =>
    rcases answer with error | ⟨⟩
    · exact hsubset
    · show (log.replay row).running ⊆ (log'.replay row).running
      rw [ModelLog.replay, ModelLog.replay]
      cases row.event <;> exact hsubset
  | called call => cases call <;> exact hsubset
  | artifactKnown | probesUntilDeadline | probe => exact hsubset

theorem next_loaded (hloaded : log.loaded = log'.loaded) :
    (log.next e).loaded = (log'.next e).loaded := by
  rcases e with ⟨op, answer⟩
  cases op with
  | launch caller spec server => exact hloaded
  | stop server => rcases answer with error | ⟨⟩ <;> exact hloaded
  | record caller row =>
    rcases answer with error | ⟨⟩
    · exact hloaded
    · show (log.replay row).loaded = (log'.replay row).loaded
      rw [ModelLog.replay, ModelLog.replay]
      cases row.event <;> first | rfl | exact hloaded
  | called call => cases call <;> exact hloaded
  | artifactKnown | probesUntilDeadline | probe => exact hloaded

theorem next_restarts (hrestarts : log.restarts = log'.restarts) :
    (log.next e).restarts = (log'.next e).restarts := by
  rcases e with ⟨op, answer⟩
  cases op with
  | launch caller spec server => exact congrArg (caller.restartsAfter ·) hrestarts
  | stop server => rcases answer with error | ⟨⟩ <;> exact hrestarts
  | record caller row =>
    rcases answer with error | ⟨⟩
    · exact hrestarts
    · show (log.replay row).restarts = (log'.replay row).restarts
      rw [ModelLog.replay, ModelLog.replay]
      cases row.event <;> exact hrestarts
  | called call => cases call <;> first | rfl | exact hrestarts
  | artifactKnown | probesUntilDeadline | probe => exact hrestarts

theorem next_failed (hfailed : log.failed = log'.failed) :
    (log.next e).failed = (log'.next e).failed := by
  rcases e with ⟨op, answer⟩
  cases op with
  | launch caller spec server => exact hfailed
  | stop server => rcases answer with error | ⟨⟩ <;> exact hfailed
  | record caller row =>
    rcases answer with error | ⟨⟩
    · exact hfailed
    · show (log.replay row).failed = (log'.replay row).failed
      rw [ModelLog.replay, ModelLog.replay]
      cases row.event <;> first | rfl | exact hfailed
  | called call => cases call <;> first | rfl | exact hfailed
  | artifactKnown | probesUntilDeadline | probe => exact hfailed

/-- An event about the model. -/
theorem next (hlog : LogIs h key log) (he : e.key = some key) :
    LogIs (e :: h) key (log.next e) := by
  have heq : modelLog key (e :: h) = (modelLog key h).next e := modelLog_cons_of_eq he
  exact
    { restarts := heq ▸ next_restarts hlog.restarts
      failed := heq ▸ next_failed hlog.failed
      owned := fun hcareful ↦ heq ▸ next_running (hlog.owned (residentsCareful_cons.1 hcareful).2)
      replays := fun hcareful ↦ heq ▸
        next_loaded (hlog.replays (residentsCareful_cons.1 hcareful).2)
      alive := fun hcareful hrestored ↦ heq ▸ next_running
        (hlog.alive (residentsCareful_cons.1 hcareful).2 (restored_cons.1 hrestored).2) }

theorem stop (hlog : LogIs h key log) (hkey : server.residentKey = key) :
    LogIs (⟨.stop server, answer⟩ :: h) key
      { log with running := log.running.filter (· ≠ server) } := by
  have hnext := hlog.next (e := ⟨.stop server, answer⟩) (congrArg some hkey)
  rcases answer with error | ⟨⟩
  · exact hnext.forget (fun hcareful ↦ (residentsCareful_cons.1 hcareful).1) rfl rfl
  · exact hnext

end LogIs

/-! ### The manager and its history -/

def ResidencyManager.log (M : ResidencyManager) (key : String) (restarts : ℕ) : ModelLog :=
  { running := ((M.residents.lookup key).map (·.serverIdentity)).toList
    loaded := (M.residents.lookup key).map (·.serverIdentity)
    restarts := restarts
    failed := (M.failed key).isSome }

/-- The manager agrees with its history about one model. Restarts are counted of a resident. -/
structure ModelTended (M : ResidencyManager) (h : ResidencyHistory) (key : String) : Prop where
  named : ∀ resident, M.residents.lookup key = some resident →
    resident.spec.residentKey = key ∧ resident.serverIdentity.residentKey = key
  refused : (M.failed key).isSome → M.residents.lookup key = none
  budget : ∀ resident, M.residents.lookup key = some resident →
    (modelLog key h).restarts = M.failureAttempts key
  log : LogIs h key (M.log key (modelLog key h).restarts)

/-- The manager agrees with its history. -/
structure Tended (M : ResidencyManager) (h : ResidencyHistory) : Prop where
  rule : Grows LaunchRule [] h
  models : ∀ key, ModelTended M h key

/-- The manager agrees with its history about all models but this one, of which the history tells
this. -/
structure Working (M : ResidencyManager) (h : ResidencyHistory) (key : String) (log : ModelLog) :
    Prop where
  rule : Grows LaunchRule [] h
  others : ∀ other, other ≠ key → ModelTended M h other
  log : LogIs h key log

/-- The managers are the same but for this model. -/
structure SameApart (key : String) (M M' : ResidencyManager) : Prop where
  residents : ∀ other, other ≠ key → M'.residents.lookup other = M.residents.lookup other
  failed : ∀ other, other ≠ key → M'.failed other = M.failed other
  attempts : ∀ other, other ≠ key → M'.failureAttempts other = M.failureAttempts other

variable {M M' : ResidencyManager} {log log' : ModelLog} {server : ServerIdentity}

theorem ModelTended.skip (hmodel : ModelTended M h key) (he : e.key ≠ some key) :
    ModelTended M (e :: h) key := by
  have heq : modelLog key (e :: h) = modelLog key h := modelLog_cons_of_ne he
  exact
    { named := hmodel.named
      refused := hmodel.refused
      budget := heq ▸ hmodel.budget
      log := heq ▸ hmodel.log.skip he }

theorem ModelTended.congr (hmodel : ModelTended M h key)
    (hresidents : M'.residents.lookup key = M.residents.lookup key)
    (hfailed : M'.failed key = M.failed key)
    (hattempts : M'.failureAttempts key = M.failureAttempts key) : ModelTended M' h key := by
  have hlog : M'.log key = M.log key := by
    unfold ResidencyManager.log
    rw [hresidents, hfailed]
  exact
    { named := hresidents ▸ hmodel.named
      refused := by
        rw [hresidents, hfailed]
        exact hmodel.refused
      budget := by
        rw [hresidents, hattempts]
        exact hmodel.budget
      log := hlog ▸ hmodel.log }

namespace Tended

theorem nil (config : ModelResidencyConfig) : Tended { config := config } [] := by
  refine ⟨.refl, fun key ↦ ⟨nofun, fun _ ↦ rfl, nofun, ?_⟩⟩
  exact ⟨rfl, rfl, fun _ ↦ List.Subset.refl _, fun _ ↦ rfl, fun _ _ ↦ List.Subset.refl _⟩

/-- An event about no model. -/
theorem skip (htended : Tended M h) (he : e.key = none) : Tended M (e :: h) :=
  ⟨htended.rule.cons (launchRule_of_key_eq_none he),
    fun key ↦ (htended.models key).skip (he ▸ nofun)⟩

theorem congr (htended : Tended M h) (hresidents : M'.residents = M.residents)
    (hfailed : M'.failed = M.failed) (hattempts : M'.failureAttempts = M.failureAttempts) :
    Tended M' h :=
  ⟨htended.rule, fun key ↦
    (htended.models key).congr (by rw [hresidents]) (by rw [hfailed]) (by rw [hattempts])⟩

theorem working (htended : Tended M h) (key : String) :
    Working M h key (M.log key (modelLog key h).restarts) :=
  ⟨htended.rule, fun other _ ↦ htended.models other, (htended.models key).log⟩

end Tended

namespace Working

/-- An event about the model. -/
theorem next (hworking : Working M h key log) (he : e.key = some key) (hrule : LaunchRule h e) :
    Working M (e :: h) key (log.next e) := by
  refine ⟨hworking.rule.cons hrule, fun other hother ↦ (hworking.others other hother).skip ?_,
    hworking.log.next he⟩
  rw [he]
  exact fun hkey ↦ hother (Option.some.inj hkey).symm

theorem skip (hworking : Working M h key log) (he : e.key = none) : Working M (e :: h) key log :=
  ⟨hworking.rule.cons (launchRule_of_key_eq_none he),
    fun other hother ↦ (hworking.others other hother).skip (he ▸ nofun),
    hworking.log.skip (he ▸ nofun)⟩

theorem stop (hworking : Working M h key log) (hkey : server.residentKey = key)
    (answer : Except String Unit) :
    Working M (⟨.stop server, answer⟩ :: h) key
      { log with running := log.running.filter (· ≠ server) } := by
  have hnext := hworking.next (e := ⟨.stop server, answer⟩) (congrArg some hkey) trivial
  exact ⟨hnext.rule, hnext.others, hworking.log.stop hkey⟩

theorem forget (hworking : Working M h key log) (hh : ¬ResidentsCareful h)
    (hrestarts : log.restarts = log'.restarts) (hfailed : log.failed = log'.failed) :
    Working M h key log' :=
  ⟨hworking.rule, hworking.others, hworking.log.forget hh hrestarts hfailed⟩

theorem congr (hworking : Working M h key log) (hsame : SameApart key M M') :
    Working M' h key log :=
  ⟨hworking.rule, fun other hother ↦ (hworking.others other hother).congr
    (hsame.residents other hother) (hsame.failed other hother) (hsame.attempts other hother),
    hworking.log⟩

theorem giveUp (hworking : Working M h key log) (hrestored : ¬Restored h)
    (hrunning : log.running ⊆ log'.running) (hloaded : log.loaded = log'.loaded)
    (hrestarts : log.restarts = log'.restarts) (hfailed : log.failed = log'.failed) :
    Working M h key log' :=
  ⟨hworking.rule, hworking.others,
    { restarts := hworking.log.restarts.trans hrestarts
      failed := hworking.log.failed.trans hfailed
      owned := fun hcareful ↦ List.Subset.trans (hworking.log.owned hcareful) hrunning
      replays := fun hcareful ↦ (hworking.log.replays hcareful).trans hloaded
      alive := fun _ hrestored' ↦ (hrestored hrestored').elim }⟩

/-- The manager agrees with its history about the model again. -/
theorem tended (hworking : Working M h key log) (hlog : M.log key log.restarts = log)
    (hnamed : ∀ resident, M.residents.lookup key = some resident →
      resident.spec.residentKey = key ∧ resident.serverIdentity.residentKey = key)
    (hrefused : (M.failed key).isSome → M.residents.lookup key = none)
    (hbudget : ∀ resident, M.residents.lookup key = some resident →
      log.restarts = M.failureAttempts key) : Tended M h := by
  have hmodel : ModelTended M h key :=
    { named := hnamed
      refused := hrefused
      budget := hworking.log.restarts ▸ hbudget
      log := by
        rw [hworking.log.restarts, hlog]
        exact hworking.log }
  refine ⟨hworking.rule, fun other ↦ ?_⟩
  by_cases hother : other = key
  · exact hother ▸ hmodel
  · exact hworking.others other hother

theorem tended_of_lookup_eq_none (hworking : Working M h key log)
    (hlookup : M.residents.lookup key = none) (hrunning : log.running = [])
    (hloaded : log.loaded = none) (hfailed : log.failed = (M.failed key).isSome) :
    Tended M h := by
  refine hworking.tended ?_ (hlookup ▸ nofun) (fun _ ↦ hlookup) (hlookup ▸ nofun)
  obtain ⟨running, loaded, restarts, failed⟩ := log
  subst hrunning hloaded hfailed
  rw [ResidencyManager.log, hlookup]
  rfl

theorem tended_of_lookup_eq_some {resident : Resident}
    (hworking : Working M h key
      ⟨[resident.serverIdentity], some resident.serverIdentity, M.failureAttempts key, false⟩)
    (hlookup : M.residents.lookup key = some resident) (hfailed : M.failed key = none)
    (hnamed : resident.spec.residentKey = key ∧ resident.serverIdentity.residentKey = key) :
    Tended M h := by
  refine hworking.tended ?_ (fun resident' hlookup' ↦ ?_) (fun hsome ↦ ?_) (fun _ _ ↦ rfl)
  · rw [ResidencyManager.log, hlookup, hfailed]
    rfl
  · rwa [← Option.some.inj (hlookup.symm.trans hlookup')]
  · rw [hfailed] at hsome
    cases hsome

end Working

theorem Tended.failed_eq_none {resident : Resident} (htended : Tended M h)
    (hlookup : M.residents.lookup key = some resident) : M.failed key = none := by
  rcases hfailed : M.failed key with _ | reason
  · rfl
  have hnone := (htended.models key).refused (hfailed ▸ rfl)
  rw [hlookup] at hnone
  cases hnone

namespace SameApart

theorem remove : SameApart key M (M.remove key) :=
  ⟨fun _ hother ↦ AList.lookup_erase_ne hother, fun _ _ ↦ rfl, fun _ _ ↦ rfl⟩

theorem insertResident {spec : ResidentLaunchSpec} :
    SameApart key M (M.insertResident key spec server) :=
  ⟨fun _ hother ↦ AList.lookup_insert_ne hother, fun _ _ ↦ rfl, fun _ _ ↦ rfl⟩

theorem setAttempts {attempts : ℕ} : SameApart key M (M.setAttempts key attempts) :=
  ⟨fun _ _ ↦ rfl, fun _ _ ↦ rfl, fun _ hother ↦ Function.update_of_ne hother _ _⟩

theorem fail {reason : String} : SameApart key M (M.fail key reason) :=
  ⟨fun _ _ ↦ rfl, fun _ hother ↦ Function.update_of_ne hother _ _, fun _ _ ↦ rfl⟩

end SameApart

end

end FamiliarAi
