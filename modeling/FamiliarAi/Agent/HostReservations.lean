import FamiliarAi.Agent.Execution
import Mathlib.Algebra.Order.Group.Multiset

/-!
# The reservations of a host

Every reservation that a host acquires is in one of its slots, or resolved, or lost. One is lost when a
step fails on which its handle depended after it had left its slot, or when a budget that is given back
cannot be released. `Kept h ids` says so of a history, where `ids` are the reservations at hand: what
one operation does to it is said by `Kept.skip`, `Kept.acquire`, `Kept.resolve` and `Kept.lose`, and
the calls of the host are followed with these.

A host settles a reservation when the loop has ended with an outcome, before it persists it.
-/

namespace FamiliarAi

open Interaction Program

/-! ### What an event does to the reservations -/

def HostEvent.granted : HostEvent → Option String
  | ⟨.acquire .., .ok (.granted id _ _)⟩ => some id
  | _ => none

/-- The reservation that an event resolves, or leaves held by policy. -/
def HostEvent.resolved : HostEvent → Option String
  | ⟨.release _ id _, .ok ()⟩ => some id
  | ⟨.settle _ id _ _, .ok _⟩ => some id
  | _ => none

/-- A step failed on which a handle depended that `finish` or the guard does not find in its slot. -/
def HostEvent.LosesHandle : HostEvent → Prop
  | ⟨.openDatabase .releaseLocalReservation, .error _⟩ => True
  | ⟨.openDatabase .abandonExecution, .error _⟩ => True
  | ⟨.release caller _ _, .error _⟩ => caller ≠ .finish
  | ⟨.settle caller _ _ _, .error _⟩ => caller ≠ .finish
  | _ => False

/-- The reservations that were acquired, each as often as it was. -/
def granted (h : HostHistory) : Multiset String :=
  (h.filterMap HostEvent.granted : List String)

/-- The reservations that were resolved or left held by policy. -/
def resolved (h : HostHistory) : Multiset String :=
  (h.filterMap HostEvent.resolved : List String)

/-- No handle was lost. -/
def Careful (h : HostHistory) : Prop :=
  ∀ e ∈ h, ¬HostEvent.LosesHandle e

/-- What is not known of the consumption after such a stop. -/
def StopReason.Uncertain : StopReason → Prop
  | timeout | providerFailure _ => True
  | _ => False

/-- The outcome of a loop, with the usage of its attempts, is persisted or should have been. -/
def HostEvent.Persists : HostEvent → Prop
  | ⟨.persistRunOutcome _ _, _⟩ => True
  | _ => False

def EndedWith (outcome : RunOutcome) (h : HostHistory) : Prop :=
  ∃ since stable task config scope before,
    h = since ++ ⟨.runLoop stable task config scope, Except.ok outcome⟩ :: before ∧
      ∀ e ∈ since, ¬HostEvent.Persists e

/-- A reservation is settled once the loop has ended, and held only when its consumption is not
known. -/
def SettleRule (before : HostHistory) : HostEvent → Prop
  | ⟨.settle _ _ observation _, _⟩ => ∃ outcome, EndedWith outcome before ∧
      (observation = .unknown .holdReservation ↔ outcome.stopReason.Uncertain)
  | _ => True

/-- Of the reservations that were acquired, these are at hand and the others are resolved or lost, and
there are lost ones exactly when a handle was lost. -/
structure Kept (h : HostHistory) (ids : Multiset String) : Prop where
  account : ∃ lost, granted h = resolved h + ids + lost ∧ (lost = 0 ↔ Careful h)
  rule : Grows SettleRule [] h

def HostSlots.localIds (slots : HostSlots) : Multiset String :=
  (slots.localReservation.map (·.reservationId)).toList

def HostSlots.ids (slots : HostSlots) : Multiset String :=
  slots.localIds + slots.reservationId.toList

section

variable {env : HostEnvironment} {h : HostHistory} {ids rest : Multiset String} {e : HostEvent}
  {id : String} {host : SqliteRawAgentHost} {slots : HostSlots} {outcome : RunOutcome}
  {request : ExecutionRequest} {effectiveModel : String} {spec : RawAgentSpec} {caller : HostCall}
  {stop : StopReason} {poolId : String} {actor : String} {attempt : ℕ}

theorem granted_cons : granted (e :: h) = (e.granted.toList : Multiset String) + granted h := by
  unfold granted
  rw [List.filterMap_cons]
  cases e.granted <;> rfl

theorem resolved_cons : resolved (e :: h) = (e.resolved.toList : Multiset String) + resolved h := by
  unfold resolved
  rw [List.filterMap_cons]
  cases e.resolved <;> rfl

theorem careful_cons : Careful (e :: h) ↔ ¬e.LosesHandle ∧ Careful h :=
  List.forall_mem_cons

namespace Kept

theorem nil : Kept [] 0 :=
  ⟨⟨0, rfl, iff_of_true rfl (List.forall_mem_nil _)⟩, .refl⟩

/-- An event about no reservation. -/
theorem skip (hkept : Kept h ids) (hgranted : e.granted = none) (hresolved : e.resolved = none)
    (hloses : ¬e.LosesHandle) (hrule : SettleRule h e) : Kept (e :: h) ids := by
  obtain ⟨⟨lost, haccount, hlost⟩, hgrows⟩ := hkept
  refine ⟨⟨lost, ?_, ?_⟩, hgrows.cons hrule⟩
  · rw [granted_cons, resolved_cons, hgranted, hresolved, haccount]
    abel
  · rw [careful_cons, hlost, and_iff_right hloses]

theorem acquire (hkept : Kept h ids) (hgranted : e.granted = some id) (hresolved : e.resolved = none)
    (hloses : ¬e.LosesHandle) (hrule : SettleRule h e) : Kept (e :: h) (id ::ₘ ids) := by
  obtain ⟨⟨lost, haccount, hlost⟩, hgrows⟩ := hkept
  refine ⟨⟨lost, ?_, ?_⟩, hgrows.cons hrule⟩
  · rw [granted_cons, resolved_cons, hgranted, hresolved, haccount]
    show {id} + (resolved h + ids + lost) = 0 + resolved h + (id ::ₘ ids) + lost
    rw [← Multiset.singleton_add]
    abel
  · rw [careful_cons, hlost, and_iff_right hloses]

theorem resolve (hkept : Kept h (id ::ₘ ids)) (hgranted : e.granted = none)
    (hresolved : e.resolved = some id) (hloses : ¬e.LosesHandle) (hrule : SettleRule h e) :
    Kept (e :: h) ids := by
  obtain ⟨⟨lost, haccount, hlost⟩, hgrows⟩ := hkept
  refine ⟨⟨lost, ?_, ?_⟩, hgrows.cons hrule⟩
  · rw [granted_cons, resolved_cons, hgranted, hresolved, haccount]
    show 0 + (resolved h + (id ::ₘ ids) + lost) = {id} + resolved h + ids + lost
    rw [← Multiset.singleton_add]
    abel
  · rw [careful_cons, hlost, and_iff_right hloses]

/-- What is let go when a handle was lost, is lost too. -/
theorem drop (hkept : Kept h (ids + rest)) (hcareful : ¬Careful h) : Kept h rest := by
  obtain ⟨⟨lost, haccount, hlost⟩, hgrows⟩ := hkept
  refine ⟨⟨ids + lost, ?_, ?_⟩, hgrows⟩
  · rw [haccount]
    abel
  · refine iff_of_false (fun hzero ↦ hcareful (hlost.1 (Multiset.le_zero.1 ?_))) hcareful
    exact hzero ▸ Multiset.le_add_left lost ids

theorem lose (hkept : Kept h (id ::ₘ ids)) (hgranted : e.granted = none)
    (hresolved : e.resolved = none) (hloses : e.LosesHandle) (hrule : SettleRule h e) :
    Kept (e :: h) ids := by
  obtain ⟨⟨lost, haccount, -⟩, hgrows⟩ := hkept
  refine ⟨⟨id ::ₘ lost, ?_, ?_⟩, hgrows.cons hrule⟩
  · rw [granted_cons, resolved_cons, hgranted, hresolved, haccount]
    show 0 + (resolved h + (id ::ₘ ids) + lost) = 0 + resolved h + ids + (id ::ₘ lost)
    rw [← Multiset.singleton_add, ← Multiset.singleton_add id lost]
    abel
  · exact iff_of_false (Multiset.cons_ne_zero) fun hcareful ↦ (careful_cons.1 hcareful).1 hloses

end Kept

theorem not_careful_cons (hloses : e.LosesHandle) : ¬Careful (e :: h) :=
  fun hcareful ↦ (careful_cons.1 hcareful).1 hloses

theorem after_releaseLocalReservation (hkept : Kept h (slots.localIds + rest)) :
    After env (HostProgram.releaseLocalReservation host slots) h
      (fun step h' ↦ Kept h' rest ∧ step.2 = { slots with localReservation := none } ∧
        ∀ detail, step.1 = .error detail → ¬Careful h') nofun := by
  rw [HostProgram.releaseLocalReservation]
  rw [HostSlots.localIds] at hkept
  rcases hlocal : slots.localReservation with _ | reservation
  · rw [hlocal] at hkept
    refine ⟨by simpa using hkept, ?_, nofun⟩
    rw [← hlocal]
  rw [hlocal] at hkept
  replace hkept : Kept h (reservation.reservationId ::ₘ rest) := by simpa using hkept
  show After env (HostProgram.openDatabase .releaseLocalReservation >>= _) h _ _
  rw [after_bind, HostProgram.openDatabase, after_perform]
  generalize env h (.openDatabase .releaseLocalReservation) = opened
  rcases opened with detail | ⟨⟩
  · exact ⟨hkept.lose rfl rfl trivial trivial, rfl, fun _ _ ↦ not_careful_cons trivial⟩
  · have hopen := hkept.skip (e := ⟨.openDatabase .releaseLocalReservation, .ok ()⟩) rfl rfl not_false trivial
    show After env (HostProgram.release .releaseLocalReservation _ _ >>= _) _ _ _
    rw [after_bind, HostProgram.release, after_perform]
    generalize env _ (.release .releaseLocalReservation _ _) = answer
    rcases answer with detail | ⟨⟩
    · exact ⟨hopen.lose rfl rfl nofun trivial, rfl, fun _ _ ↦ not_careful_cons nofun⟩
    · exact ⟨hopen.resolve rfl rfl not_false trivial, rfl, nofun⟩

theorem after_releaseBudget {budget : Option String} (hkept : Kept h budget.toList) :
    After env (HostProgram.releaseBudget host budget slots) h
      (fun step h' ↦ Kept h' 0 ∧ step.2 = slots) nofun := by
  rcases budget with _ | budget
  · exact ⟨hkept, rfl⟩
  show After env (HostProgram.openDatabase .abandonExecution >>= _) h _ _
  rw [after_bind, HostProgram.openDatabase, after_perform]
  generalize env h (.openDatabase .abandonExecution) = opened
  rcases opened with detail | ⟨⟩
  · exact ⟨hkept.lose rfl rfl trivial trivial, rfl⟩
  · have hopen := hkept.skip (e := ⟨.openDatabase .abandonExecution, .ok ()⟩) rfl rfl not_false trivial
    show After env (HostProgram.release .abandonExecution _ _ >>= _) _ _ _
    rw [after_bind, HostProgram.release, after_perform]
    generalize env _ (.release .abandonExecution _ _) = answer
    rcases answer with detail | ⟨⟩
    · exact ⟨hopen.lose rfl rfl nofun trivial, rfl⟩
    · exact ⟨hopen.resolve rfl rfl not_false trivial, rfl⟩

theorem after_abandonExecution (hkept : Kept h slots.ids) :
    After env (HostProgram.abandonExecution host slots) h
      (fun step h' ↦ Kept h' 0 ∧ step.2.localReservation = none) nofun := by
  rw [HostProgram.abandonExecution, after_bind]
  have hlocal : Kept h (HostSlots.localIds { slots with reservationId := none } +
    slots.reservationId.toList) := hkept
  refine (after_releaseLocalReservation hlocal).imp fun step h' hstep ↦ ?_
  obtain ⟨released, slots'⟩ := step
  obtain ⟨hkept', rfl, herror⟩ := hstep
  rcases released with detail | ⟨⟩
  · have hall : Kept h' (slots.reservationId.toList + 0) := by rwa [add_zero]
    exact ⟨hall.drop (herror detail rfl), rfl⟩
  · refine (after_releaseBudget hkept').imp fun step h'' hstep ↦ ?_
    exact ⟨hstep.1, by rw [hstep.2]⟩

theorem after_dropGuard {exit : ExecutionExit} (hkept : Kept h slots.ids) :
    After env (HostProgram.dropGuard host exit slots) h
      (fun step h' ↦ Kept h' 0 ∧ step.2.localReservation = none) nofun := by
  rw [HostProgram.dropGuard, after_bind]
  exact (after_abandonExecution hkept).imp fun step h' hstep ↦ hstep

/-! ### Finishing -/

theorem EndedWith.cons (hended : EndedWith outcome h) (hpersist : ¬e.Persists) :
    EndedWith outcome (e :: h) := by
  obtain ⟨since, stable, task, config, scope, before, rfl, hsince⟩ := hended
  exact ⟨e :: since, stable, task, config, scope, before, rfl, List.forall_mem_cons.2 ⟨hpersist, hsince⟩⟩

/-- What an answer to a resolution by `finish` leaves at hand. A budget that could not be resolved stays
in its slot. -/
def LeftAtHand (caller : HostCall) (id : String) (ids : Multiset String) (h : HostHistory) :
    Except String Unit → Prop
  | .ok () => Kept h ids
  | .error _ => if caller = .finish then Kept h (id ::ₘ ids) else Kept h ids

theorem after_release (hkept : Kept h (id ::ₘ ids)) (hended : EndedWith outcome h) :
    After env (HostProgram.release caller id actor) h
      (fun answer h' ↦ EndedWith outcome h' ∧ LeftAtHand caller id ids h' answer) nofun := by
  rw [HostProgram.release, after_perform]
  generalize env h (.release caller id actor) = answer
  refine ⟨hended.cons not_false, ?_⟩
  rcases answer with detail | ⟨⟩
  · unfold LeftAtHand
    split_ifs with hcaller
    · exact hkept.skip rfl rfl (fun hloses ↦ hloses hcaller) trivial
    · exact hkept.lose rfl rfl hcaller trivial
  · exact hkept.resolve rfl rfl nofun trivial

theorem after_settle {observation : SettlementObservation} (hkept : Kept h (id ::ₘ ids))
    (hended : EndedWith outcome h)
    (hobservation : observation = .unknown .holdReservation ↔ outcome.stopReason.Uncertain) :
    After env (do return (← HostProgram.settle caller id observation actor).map fun _ ↦ ()) h
      (fun answer h' ↦ EndedWith outcome h' ∧ LeftAtHand caller id ids h' answer) nofun := by
  rw [after_bind, HostProgram.settle, after_perform]
  generalize env h (.settle caller id observation actor) = answer
  refine ⟨hended.cons not_false, ?_⟩
  have hrule : ∃ outcome, EndedWith outcome h ∧
      (observation = .unknown .holdReservation ↔ outcome.stopReason.Uncertain) :=
    ⟨outcome, hended, hobservation⟩
  rcases answer with detail | result
  · show LeftAtHand caller id ids _ (.error detail)
    unfold LeftAtHand
    split_ifs with hcaller
    · exact hkept.skip rfl rfl (fun hloses ↦ hloses hcaller) hrule
    · exact hkept.lose rfl rfl hcaller hrule
  · exact hkept.resolve rfl rfl nofun hrule

theorem after_resolveBudget (hkept : Kept h (id ::ₘ ids)) (hended : EndedWith outcome h) :
    After env (HostProgram.resolveBudget host id outcome) h
      (fun answer h' ↦ EndedWith outcome h' ∧ LeftAtHand .finish id ids h' answer) nofun := by
  rw [HostProgram.resolveBudget]
  split
  · exact after_release hkept hended
  all_goals
    rename_i hstop
    exact after_settle hkept hended (by simp [hstop, StopReason.Uncertain])

theorem uncertain_of_holdUnknown (hhold : resolutionForStopReason stop = .holdUnknown) :
    stop.Uncertain := by
  cases stop with
  | timeout | providerFailure => trivial
  | completed | iterationCeiling | tokenOrContextCeiling | budgetStop | cancelled | fatalToolRefusal
  | invalidStructuredOutput => cases hhold

theorem not_uncertain_of_commitObserved (hcommit : resolutionForStopReason stop = .commitObserved) :
    ¬stop.Uncertain := by
  cases stop with
  | timeout => cases hcommit
  | providerFailure taxonomy => cases taxonomy <;> cases hcommit
  | completed | iterationCeiling | tokenOrContextCeiling | budgetStop | cancelled | fatalToolRefusal
  | invalidStructuredOutput => exact id

theorem after_resolveReservation {reservation : LocalReservation}
    (hkept : Kept h (reservation.reservationId ::ₘ ids)) (hended : EndedWith outcome h) :
    After env (HostProgram.resolveReservation host reservation outcome) h
      (fun _ h' ↦ Kept h' ids) nofun := by
  have hanswer : ∀ answer h', EndedWith outcome h' ∧
      LeftAtHand .resolveReservation reservation.reservationId ids h' answer → Kept h' ids := by
    rintro (detail | ⟨⟩) h' ⟨-, hleft⟩
    · exact hleft
    · exact hleft
  rw [HostProgram.resolveReservation]
  split
  · rename_i hresolution
    have hknown : SettlementObservation.known reservation.requests ≠ .unknown .holdReservation := nofun
    refine (after_settle hkept hended (iff_of_false hknown ?_)).imp hanswer
    exact not_uncertain_of_commitObserved hresolution
  · rename_i hresolution
    refine (after_settle hkept hended (iff_of_true rfl ?_)).imp hanswer
    exact uncertain_of_holdUnknown hresolution
  · exact (after_release hkept hended).imp hanswer

theorem after_persist (hkept : Kept h ids) :
    After env (HostProgram.persist host outcome effectiveModel) h (fun _ h' ↦ Kept h' ids) nofun := by
  rw [HostProgram.persist, after_bind, HostProgram.persistRunOutcome, after_perform]
  have hpersist : Kept (⟨.persistRunOutcome effectiveModel outcome,
      env h (.persistRunOutcome effectiveModel outcome)⟩ :: h) ids :=
    hkept.skip rfl rfl not_false trivial
  generalize env h (.persistRunOutcome effectiveModel outcome) = answer at hpersist ⊢
  rcases answer with detail | ⟨⟩
  · exact hpersist
  · show After env (ite _ _ _) _ _ _
    split_ifs
    · exact hpersist.skip rfl rfl not_false trivial
    · exact hpersist

def HostSlots.Empty (slots : HostSlots) : Prop :=
  slots.reservationId = none ∧ slots.localReservation = none

theorem HostSlots.Empty.ids_eq (hempty : slots.Empty) : slots.ids = 0 := by
  rw [HostSlots.ids, HostSlots.localIds, hempty.1, hempty.2]
  rfl

theorem after_finishLocal (hkept : Kept h slots.ids) (hbudget : slots.reservationId = none)
    (hended : EndedWith outcome h) :
    After env (HostProgram.finishLocal host outcome effectiveModel slots) h
      (fun step h' ↦ Kept h' 0 ∧ step.2.Empty) nofun := by
  rw [HostProgram.finishLocal]
  rcases hlocal : slots.localReservation with _ | reservation
  · have hempty : slots.Empty := ⟨hbudget, hlocal⟩
    rw [hempty.ids_eq] at hkept
    show After env (HostProgram.persist host outcome effectiveModel >>= _) h _ _
    rw [after_bind]
    exact (after_persist hkept).imp fun _ _ hkept' ↦ ⟨hkept', hempty⟩
  have hkept' : Kept h (reservation.reservationId ::ₘ 0) := by
    rwa [HostSlots.ids, HostSlots.localIds, hbudget, hlocal] at hkept
  show After env (HostProgram.resolveReservation host reservation outcome >>= _) h _ _
  rw [after_bind]
  refine (after_resolveReservation hkept' hended).imp fun answer h' hkept' ↦ ?_
  have hempty : HostSlots.Empty { slots with localReservation := none } := ⟨hbudget, rfl⟩
  rcases answer with detail | ⟨⟩
  · exact ⟨hkept', hempty⟩
  · show After env (HostProgram.persist host outcome effectiveModel >>= _) h' _ _
    rw [after_bind]
    exact (after_persist hkept').imp fun _ _ hkept'' ↦ ⟨hkept'', hempty⟩

/-- When `finish` fails, what is still at hand is in the slots, where the guard finds it. -/
theorem after_finish (hkept : Kept h slots.ids) (hended : EndedWith outcome h) :
    After env (HostProgram.finish host outcome effectiveModel slots) h
      (fun step h' ↦ Kept h' step.2.ids ∧ (step.1 = .ok () → step.2.Empty)) nofun := by
  rw [HostProgram.finish, after_bind, HostProgram.openDatabase, after_perform]
  have hopen : Kept (⟨.openDatabase .finish, env h (.openDatabase .finish)⟩ :: h) slots.ids :=
    hkept.skip rfl rfl not_false trivial
  have hended' : EndedWith outcome (⟨.openDatabase .finish, env h (.openDatabase .finish)⟩ :: h) :=
    hended.cons not_false
  generalize env h (.openDatabase .finish) = opened at hopen hended' ⊢
  rcases opened with detail | ⟨⟩
  · exact ⟨hopen, nofun⟩
  · rcases hbudget : slots.reservationId with _ | budget
    · refine (after_finishLocal hopen hbudget hended').imp fun step h' hstep ↦ ?_
      exact ⟨hstep.2.ids_eq ▸ hstep.1, fun _ ↦ hstep.2⟩
    have hbudgeted : Kept (⟨.openDatabase .finish, .ok ()⟩ :: h) (budget ::ₘ slots.localIds) := by
      rw [HostSlots.ids, hbudget, add_comm] at hopen
      exact hopen
    show After env (HostProgram.resolveBudget host budget outcome >>= _) _ _ _
    rw [after_bind]
    refine (after_resolveBudget hbudgeted hended').imp fun answer h' hanswer ↦ ?_
    obtain ⟨hended'', hleft⟩ := hanswer
    rcases answer with detail | ⟨⟩
    · refine ⟨?_, nofun⟩
      show Kept h' slots.ids
      rw [HostSlots.ids, hbudget, add_comm]
      exact hleft
    · have hlocal : Kept h' (HostSlots.ids { slots with reservationId := none }) := by
        rw [HostSlots.ids, add_comm]
        exact (zero_add slots.localIds).symm ▸ hleft
      refine (after_finishLocal hlocal rfl hended'').imp fun step h'' hstep ↦ ?_
      exact ⟨hstep.2.ids_eq ▸ hstep.1, fun _ ↦ hstep.2⟩

/-! ### Reserving -/

theorem after_definePoolFor {resourceType : ResourceType} {capacity : Option ℕ} (hkept : Kept h ids)
    :
    After env (definePoolFor poolId resourceType capacity) h (fun _ h' ↦ Kept h' ids) nofun := by
  cases capacity with
  | none => exact hkept
  | some capacity => exact hkept.skip rfl rfl not_false trivial

theorem after_definePools {poolPrefix : String} {profile : LocalResourceProfile}
    (hkept : Kept h ids) :
    After env (definePoolsFromResourceProfile poolPrefix profile) h (fun _ h' ↦ Kept h' ids)
      nofun := by
  rw [definePoolsFromResourceProfile, after_bind]
  refine (after_definePoolFor hkept).imp fun answer h' hkept' ↦ ?_
  rcases answer with detail | ⟨⟩
  · exact hkept'
  · exact after_definePoolFor hkept'

theorem after_acquireLocalReservation (hkept : Kept h ids) (hlocal : slots.localReservation = none)
    :
    After env (HostProgram.acquireLocalReservation host attempt slots) h
      (fun step h' ↦ match step.1 with
        | .ok () => Kept h' (step.2.localIds + ids) ∧ step.2.reservationId = slots.reservationId
        | .error _ => Kept h' ids ∧ step.2 = slots) nofun := by
  rw [HostProgram.acquireLocalReservation]
  split
  · refine ⟨?_, rfl⟩
    show Kept h (slots.localIds + ids)
    rw [HostSlots.localIds, hlocal]
    exact (zero_add ids).symm ▸ hkept
  · rw [after_bind, HostProgram.openDatabase, after_perform]
    have hopen : Kept (⟨.openDatabase .acquireLocalReservation,
        env h (.openDatabase .acquireLocalReservation)⟩ :: h) ids :=
      hkept.skip rfl rfl not_false trivial
    generalize env h (.openDatabase .acquireLocalReservation) = opened at hopen ⊢
    rcases opened with detail | ⟨⟩
    · exact ⟨hopen, rfl⟩
    · show After env (definePoolsFromResourceProfile _ _ >>= _) _ _ _
      rw [after_bind]
      refine (after_definePools hopen).imp fun defined h' hdefined ↦ ?_
      rcases defined with detail | ⟨⟩
      · exact ⟨hdefined, rfl⟩
      · show After env (HostProgram.acquire _ _ >>= _) h' _ _
        rw [after_bind, HostProgram.acquire, after_perform]
        generalize env h' (.acquire _ _) = answer
        rcases answer with detail | ⟨granted, sequence, items⟩ | unavailable
        · exact ⟨hdefined.skip rfl rfl not_false trivial, rfl⟩
        · exact ⟨hdefined.acquire rfl rfl not_false trivial, rfl⟩
        · exact ⟨hdefined.skip rfl rfl not_false trivial, rfl⟩

theorem after_defineBudgetPool {capacity : ℕ} (hkept : Kept h ids) :
    After env (HostProgram.defineBudgetPool poolId capacity) h (fun _ h' ↦ Kept h' ids) nofun := by
  rw [HostProgram.defineBudgetPool, after_bind, HostProgram.poolIsDefined, after_perform]
  have hask : Kept (⟨.poolIsDefined poolId .nanousdBudget,
      env h (.poolIsDefined poolId .nanousdBudget)⟩ :: h) ids := hkept.skip rfl rfl not_false trivial
  generalize env h (.poolIsDefined poolId .nanousdBudget) = answer at hask ⊢
  rcases answer with detail | _ | _
  · exact hask
  · exact hask.skip rfl rfl not_false trivial
  · exact hask

/-- What a reservation that was asked for leaves. A budget that could not be given back is lost: its
handle stays in the slot, but nothing looks there any more. -/
def Reserved (step : Except String Unit × HostSlots) (h : HostHistory) : Prop :=
  match step.1 with
  | .ok () => Kept h step.2.ids
  | .error _ => Kept h 0 ∧ step.2.localReservation = none

theorem after_completeReservation (hkept : Kept h (id ::ₘ 0))
    (hlocal : slots.localReservation = none) :
    After env (HostProgram.completeReservation host attempt id slots) h Reserved nofun := by
  rw [HostProgram.completeReservation, after_bind]
  have hlocal' : HostSlots.localReservation { slots with reservationId := some id } = none := hlocal
  refine (after_acquireLocalReservation hkept hlocal').imp fun step h' hstep ↦ ?_
  obtain ⟨acquired, slots'⟩ := step
  rcases acquired with detail | ⟨⟩
  · obtain ⟨hkept', rfl⟩ := hstep
    show After env (HostProgram.release _ _ _ >>= _) h' _ _
    rw [after_bind, HostProgram.release, after_perform]
    generalize env h' (.release _ _ _) = answer
    rcases answer with released | ⟨⟩
    · exact ⟨hkept'.lose rfl rfl nofun trivial, hlocal⟩
    · exact ⟨hkept'.resolve rfl rfl not_false trivial, hlocal⟩
  · obtain ⟨hkept', hbudget⟩ := hstep
    show Kept h' slots'.ids
    rw [HostSlots.ids, hbudget]
    exact hkept'

theorem after_reserveExecutionBudget {maxCostMicrousd : Option ℕ} (hkept : Kept h 0)
    (hlocal : slots.localReservation = none) :
    After env (HostProgram.reserveExecutionBudget host maxCostMicrousd slots) h Reserved nofun := by
  rw [HostProgram.reserveExecutionBudget]
  split
  · exact ⟨hkept, hlocal⟩
  · rw [after_bind, HostProgram.openDatabase, after_perform]
    have hopen : Kept (⟨.openDatabase .reserveExecutionBudget,
        env h (.openDatabase .reserveExecutionBudget)⟩ :: h) 0 :=
      hkept.skip rfl rfl not_false trivial
    generalize env h (.openDatabase .reserveExecutionBudget) = opened at hopen ⊢
    rcases opened with detail | ⟨⟩
    · exact ⟨hopen, hlocal⟩
    · show After env (HostProgram.defineBudgetPool _ _ >>= _) _ _ _
      rw [after_bind]
      refine (after_defineBudgetPool hopen).imp fun defined h' hdefined ↦ ?_
      rcases defined with detail | ⟨⟩
      · exact ⟨hdefined, hlocal⟩
      · show After env (HostProgram.acquire _ _ >>= _) h' _ _
        rw [after_bind, HostProgram.acquire, after_perform]
        generalize env h' (.acquire _ _) = answer
        rcases answer with detail | ⟨granted, sequence, items⟩ | unavailable
        · exact ⟨hdefined.skip rfl rfl not_false trivial, hlocal⟩
        · exact after_completeReservation (hdefined.acquire rfl rfl not_false trivial) hlocal
        · exact ⟨hdefined.skip rfl rfl not_false trivial, hlocal⟩

/-! ### Executions -/

theorem after_finishExecution (hkept : Kept h slots.ids) (hended : EndedWith outcome h) :
    After env (HostProgram.finishExecution host spec request outcome slots) h
      (fun step h' ↦ Kept h' 0 ∧ step.2.localReservation = none) nofun := by
  rw [HostProgram.finishExecution, after_bind]
  refine (after_finish hkept hended).imp fun step h' hstep ↦ ?_
  obtain ⟨finished, slots'⟩ := step
  obtain ⟨hkept', hempty⟩ := hstep
  rcases finished with detail | ⟨⟩
  · exact after_dropGuard hkept'
  · exact ⟨(hempty rfl).ids_eq ▸ hkept', (hempty rfl).2⟩

theorem after_guarded (hkept : Kept h slots.ids) :
    After env (HostProgram.guarded host spec request slots) h
      (fun step h' ↦ Kept h' 0 ∧ step.2.localReservation = none) nofun := by
  rw [HostProgram.guarded, after_bind, HostProgram.hooks, after_perform]
  have hhooks : Kept (⟨.hooks, env h .hooks⟩ :: h) slots.ids := hkept.skip rfl rfl not_false trivial
  generalize env h .hooks = answer at hhooks ⊢
  rcases answer with message | ⟨⟩
  · exact after_dropGuard hhooks
  · show After env (HostProgram.buildRuntime >>= _) _ _ _
    rw [after_bind, HostProgram.buildRuntime, after_perform]
    generalize env _ .buildRuntime = answer
    rcases answer with source | ⟨⟩
    · exact after_dropGuard (hhooks.skip rfl rfl not_false trivial)
    · have hbuild := hhooks.skip (e := ⟨.buildRuntime, .ok ()⟩) rfl rfl not_false trivial
      show After env (HostProgram.runLoop _ _ _ _ >>= _) _ _ _
      rw [after_bind, HostProgram.runLoop, after_perform]
      generalize env _ (.runLoop _ _ _ _) = answer
      rcases answer with message | outcome
      · exact after_dropGuard (hbuild.skip rfl rfl not_false trivial)
      · refine after_finishExecution (hbuild.skip rfl rfl not_false trivial) ?_
        exact ⟨[], _, _, _, _, _, rfl, List.forall_mem_nil _⟩

/-- **One execution.** It leaves nothing at hand: what it acquired is resolved or lost. -/
theorem after_execute (hkept : Kept h 0) (hlocal : slots.localReservation = none) :
    After env (HostProgram.execute host spec request slots) h
      (fun step h' ↦ Kept h' 0 ∧ step.2.localReservation = none) nofun := by
  rw [HostProgram.execute, after_bind]
  refine (after_reserveExecutionBudget hkept hlocal).imp fun step h' hstep ↦ ?_
  obtain ⟨reserved, slots'⟩ := step
  rcases reserved with detail | ⟨⟩
  · exact hstep
  · exact after_guarded hstep

theorem hostHistory_kept (host : SqliteRawAgentHost)
    (requests : List (RawAgentSpec × ExecutionRequest)) (env : HostEnvironment) :
    Kept (hostHistory host requests env) 0 := by
  let I : List (RawAgentSpec × ExecutionRequest) → HostSlots → HostHistory → Prop :=
    fun _ slots h ↦ Kept h 0 ∧ slots.localReservation = none
  have hstart : I [] {} [] := ⟨.nil, rfl⟩
  have hrun : After env (HostProgram.executions host requests) [] (I ([] ++ requests)) nofun := by
    refine After.foldlM hstart fun _ slots request h _ hkept ↦ ?_
    show After env (HostProgram.execute host request.1 request.2 slots >>= _) h _ _
    rw [after_bind]
    exact (after_execute hkept.1 hkept.2).imp fun _ _ hstep ↦ hstep
  rcases hrun.result with ⟨_, _, hkept, _⟩ | ⟨e, _⟩
  · exact hkept
  · exact e.elim

end

structure ReservationsKept (h : HostHistory) : Prop where
  /-- None is resolved more often than it was acquired. -/
  once : resolved h ≤ granted h
  all : Careful h → resolved h = granted h
  /-- It is settled after its loop ended and before the outcome is persisted, and held by policy exactly
  when its consumption is not known. -/
  settled : ∀ caller id observation actor answer before,
    ⟨.settle caller id observation actor, answer⟩ :: before <:+ h → ∃ outcome,
      EndedWith outcome before ∧
        (observation = .unknown .holdReservation ↔ outcome.stopReason.Uncertain)

def localHost : SqliteRawAgentHost where
  executionId := "execution"
  projectId := "project"
  workerId := "worker"
  stage := "implementation"
  runtimeId := "ollama"
  modelIdentity := some "model"
  localExecution := some ⟨none, none, some 1, none, false⟩
  debugStr := id
  debugRequests := fun _ ↦ "requests"

def plainSpec : RawAgentSpec :=
  ⟨"worker", "1", "model", "1", ⟨3, none, none⟩, []⟩

def plainRequest : ExecutionRequest :=
  ⟨"task", none, none, none, ⟨none, none, none⟩⟩

/-- A loop that completes without an attempt. -/
def completedOutcome : RunOutcome :=
  ⟨.completed false, [], ⟨"1", "worker", "1", [], [], .completed false, ⟨0, 0⟩, 1⟩, none⟩

def serving (ended : Except String RunOutcome) (refused : List HostCall) : HostEnvironment
  | _, .openDatabase caller =>
    if caller ∈ refused then .error "unable to open database file" else .ok ()
  | _, .poolIsDefined .. => .ok false
  | _, .definePool .. => .ok ()
  | h, .acquire .. => .ok (.granted (toString (h.filterMap HostEvent.granted).length) 0 [])
  | _, .release .. => .ok ()
  | _, .settle .. => .ok ⟨"committed", true, false⟩
  | _, .persistRunOutcome .. => .ok ()
  | _, .persistLocalTelemetry _ => .ok ()
  | _, .hooks => .ok ()
  | _, .buildRuntime => .ok ()
  | _, .runLoop .. => ended

/-- A reservation whose consumption is settled has the usage of a run recorded before. -/
def SettledAfterUsage (h : HostHistory) : Prop :=
  ∀ caller id observation actor result before,
    ⟨.settle caller id observation actor, Except.ok result⟩ :: before <:+ h →
      observation ≠ .unknown .holdReservation →
        ∃ model outcome, ⟨.persistRunOutcome model outcome, Except.ok ()⟩ ∈ before

end FamiliarAi
