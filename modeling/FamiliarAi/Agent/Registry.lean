import FamiliarAi.Delivery.Policy
import Mathlib.Data.List.MinMax
import Mathlib.Data.List.Nodup
import Mathlib.Data.Prod.Lex
import Mathlib.Data.String.Basic

/-!
# The worker registry

The workers that are registered, under their ids, and the rules by which the operator routes work to
them. A request for a worker states what it requires and may pin one, by its id or by the older alias of
provider and model.
-/

namespace FamiliarAi.Routing

open List

inductive WorkerStage
  | planning
  | implementation
  | review
  | remediation
  | narrowTask
  deriving DecidableEq

structure WorkerDescriptor where
  id : String
  specIdentity : String
  empiricalVersion : String
  runtimeId : String
  provider : String
  model : String
  executable : String
  capabilities : List WorkerStage
  freshProcessIsolation : Bool
  contextTokens : ℕ
  /-- Nothing if it was never measured. -/
  estimatedCostMicrousd : Option ℕ
  available : Bool

structure RouteRequest where
  stage : WorkerStage
  pinnedWorker : Option String
  maxCostMicrousd : ℕ
  requiredContextTokens : ℕ
  requireIsolation : Bool
  independentFrom : Option (String × String)
  riskClasses : List String
  expectedFileCount : ℕ

structure RouteRule where
  id : String
  worker : String
  riskClasses : List String
  maxExpectedFiles : Option ℕ

def RouteRule.Matches (rule : RouteRule) (request : RouteRequest) : Prop :=
  (rule.riskClasses = [] ∨ ∃ c ∈ request.riskClasses, c ∈ rule.riskClasses) ∧
    ∀ ceiling ∈ rule.maxExpectedFiles, request.expectedFileCount ≤ ceiling

instance RouteRule.Matches.decidable (rule : RouteRule) (request : RouteRequest) :
    Decidable (rule.Matches request) :=
  inferInstanceAs (Decidable (_ ∧ _))

inductive RejectionReason
  | unavailable
  | overBudget
  | incapable
  | insufficientContext
  | noIsolation
  | notIndependent
  | notPinned
  | notRouted
  deriving DecidableEq

structure CandidateEvaluation where
  workerId : String
  rejected : List RejectionReason

structure SelectionRecord where
  stage : WorkerStage
  rule : String
  selectedWorker : String
  selectedSpecIdentity : String
  selectedEmpiricalVersion : String
  candidates : List CandidateEvaluation

inductive RouteError
  | unknownPinnedWorker (id : String)
  | invalidPinnedWorker (remedy : String)
  | pinnedWorkerRefused (worker : String) (reasons : List RejectionReason)
  | noEligibleWorker (stage : WorkerStage)
  | noIndependentReviewer

/-- The workers are kept in the order of their ids. -/
structure WorkerRegistry where
  workers : List WorkerDescriptor := []
  rules : List RouteRule := []
  sorted : workers.Pairwise (·.id < ·.id)

namespace WorkerDescriptor

/-- Known costs come first, and then the ids decide. -/
def costKey (w : WorkerDescriptor) : Bool ×ₗ ℕ ×ₗ String :=
  toLex (w.estimatedCostMicrousd.isNone, toLex (w.estimatedCostMicrousd.getD 0, w.id))

def legacyAlias (w : WorkerDescriptor) : String :=
  s!"{w.provider}/{w.model}"

end WorkerDescriptor

namespace WorkerRegistry

variable (debugStr : String → String) (registry : WorkerRegistry)

def get (id : String) : Option WorkerDescriptor :=
  registry.workers.find? (·.id = id)

/-- What is registered under the id is replaced. -/
def insert (worker : WorkerDescriptor) : WorkerRegistry where
  workers := registry.workers.filter (·.id < worker.id) ++
    worker :: registry.workers.filter (worker.id < ·.id)
  rules := registry.rules
  sorted := by
    have hsorted := registry.sorted
    refine pairwise_append.2 ⟨hsorted.filter _, pairwise_cons.2
      ⟨fun w hw ↦ by simpa using (mem_filter.1 hw).2, hsorted.filter _⟩, fun a ha b hb ↦ ?_⟩
    have hlt : a.id < worker.id := by simpa using (mem_filter.1 ha).2
    rcases mem_cons.1 hb with rfl | hb
    · exact hlt
    · exact hlt.trans (by simpa using (mem_filter.1 hb).2)

/-- A worker with an id that is taken is refused after it has replaced the other one. -/
def register (worker : WorkerDescriptor) : Except String Unit × WorkerRegistry :=
  if [worker.id, worker.runtimeId, worker.specIdentity, worker.empiricalVersion, worker.provider,
      worker.model, worker.executable].any Delivery.blankText then
    (.error "worker identity, adapter, provider, model, and executable must be non-empty", registry)
  else
    let label (text : List Char) : String := Delivery.asciiLower (String.ofList (Text.trim text))
    let executableLabel := label ((Text.splitOn '/' worker.executable.toList).getLastD [])
    let model := label worker.model.toList
    if model = executableLabel ∨ model = label worker.provider.toList then
      (.error (s!"worker {debugStr worker.id} declares model {debugStr worker.model}, which is the " ++
        (if model = executableLabel then "executable's" else "provider's") ++
        " label, not a model identity; set an explicit model"), registry)
    else
      (if (registry.get worker.id).isSome then .error "duplicate worker id" else .ok (),
        registry.insert worker)

def addRule (rule : RouteRule) : Except String WorkerRegistry :=
  if Delivery.blankText rule.id ∨ Delivery.blankText rule.worker then
    .error "route rule id and worker must be non-empty"
  else if (registry.get rule.worker).isNone then
    .error s!"route rule {debugStr rule.id} names unknown worker {debugStr rule.worker}"
  else if rule.riskClasses = [] ∧ rule.maxExpectedFiles = none then
    .error s!"route rule {debugStr rule.id} must declare risk_classes or max_expected_files"
  else .ok { registry with rules := registry.rules ++ [rule] }

/-- A worker by its id, or by the alias of provider and model if only one has it. -/
def resolve (address : String) : Except String WorkerDescriptor :=
  match registry.get address with
  | some worker => .ok worker
  | none =>
    match registry.workers.filter (·.legacyAlias = address) with
    | [worker] => .ok worker
    | [] => .error s!"worker {debugStr address} is not registered"
    | candidates =>
      .error (s!"legacy worker alias {debugStr address} is ambiguous; pin a complete worker spec: " ++
        ", ".intercalate (candidates.map fun w ↦
          s!"{w.id} ({w.provider}/{w.runtimeId}/{w.model})"))

def rejections (pin : Option String) (request : RouteRequest) (w : WorkerDescriptor) :
    List RejectionReason :=
  (if pin.any (· ≠ w.id) then [.notPinned] else []) ++
    (if !w.available then [.unavailable] else []) ++
    (if request.stage ∉ w.capabilities then [.incapable] else []) ++
    (if 0 < request.maxCostMicrousd ∧ w.estimatedCostMicrousd.any (request.maxCostMicrousd < ·) then
      [.overBudget] else []) ++
    (if w.contextTokens < request.requiredContextTokens then [.insufficientContext] else []) ++
    (if request.requireIsolation ∧ !w.freshProcessIsolation then [.noIsolation] else []) ++
    if request.independentFrom = some (w.provider, w.model) then [.notIndependent] else []

def candidates (pin : Option String) (request : RouteRequest) : List CandidateEvaluation :=
  registry.workers.map fun w ↦ ⟨w.id, rejections pin request w⟩

def matchedRule (candidates : List CandidateEvaluation) (request : RouteRequest) :
    Option RouteRule :=
  if request.pinnedWorker = none then
    registry.rules.find? fun rule ↦
      rule.Matches request ∧ ∃ c ∈ candidates, c.workerId = rule.worker ∧ c.rejected = []
  else none

def selected (candidates : List CandidateEvaluation) :
    Option RouteRule → Option (Option WorkerDescriptor)
  | some rule => some (registry.get rule.worker)
  | none =>
    ((candidates.filter (·.rejected = [])).mapM fun c ↦ registry.get c.workerId).map
      (·.argmin WorkerDescriptor.costKey)

/-- A refused pin is looked up among the ids, whatever it was resolved as. -/
def refusal (candidates : List CandidateEvaluation) (request : RouteRequest) : Option RouteError :=
  match request.pinnedWorker with
  | some pin => (candidates.find? (·.workerId = pin)).map fun c ↦ .pinnedWorkerRefused pin c.rejected
  | none =>
    if request.stage = .review ∧ request.independentFrom.isSome then some .noIndependentReviewer
    else some (.noEligibleWorker request.stage)

def record (candidates : List CandidateEvaluation) (request : RouteRequest)
    (matchedRule : Option RouteRule) (worker : WorkerDescriptor) : SelectionRecord :=
  let candidates := match matchedRule with
    | some rule => candidates.map fun c ↦
      if c.workerId ≠ rule.worker ∧ c.rejected = [] then { c with rejected := [.notRouted] } else c
    | none => candidates
  let known := ((candidates.filter (·.rejected = [])).filterMap fun c ↦
    registry.get c.workerId).filter (·.estimatedCostMicrousd.isSome)
  { stage := request.stage
    rule := if request.pinnedWorker.isSome then "user-pin"
      else match matchedRule with
        | some rule => rule.id
        | none => if known.length = 0 then "unmeasured-cost-then-id" else "lowest-cost-then-id"
    selectedWorker := worker.id
    selectedSpecIdentity := worker.specIdentity
    selectedEmpiricalVersion := worker.empiricalVersion
    candidates }

/-- Select a worker. Without a result the call panics. -/
def select (request : RouteRequest) : Option (Except RouteError SelectionRecord) :=
  match request.pinnedWorker.mapM fun pin ↦ (registry.resolve debugStr pin).map (·.id) with
  | .error remedy => some (.error (.invalidPinnedWorker remedy))
  | .ok pin =>
    let candidates := registry.candidates pin request
    let matchedRule := registry.matchedRule candidates request
    (registry.selected candidates matchedRule).bind fun
      | some worker => some (.ok (registry.record candidates request matchedRule worker))
      | none => (refusal candidates request).map .error

end WorkerRegistry

/-! ### What is selected -/

/-- What the request requires of any worker. -/
structure RouteRequest.Admits (request : RouteRequest) (w : WorkerDescriptor) : Prop where
  available : w.available = true
  capable : request.stage ∈ w.capabilities
  /-- Only a known cost is over the ceiling, and without a ceiling none is. -/
  affordable : 0 < request.maxCostMicrousd →
    ∀ cost ∈ w.estimatedCostMicrousd, cost ≤ request.maxCostMicrousd
  context : request.requiredContextTokens ≤ w.contextTokens
  isolated : request.requireIsolation = true → w.freshProcessIsolation = true
  independent : request.independentFrom ≠ some (w.provider, w.model)

namespace WorkerRegistry

variable {debugStr : String → String} {registry : WorkerRegistry} {request : RouteRequest}
  {w : WorkerDescriptor} {pin : Option String}

def Addresses (registry : WorkerRegistry) (address : String) (w : WorkerDescriptor) : Prop :=
  w ∈ registry.workers ∧ (w.id = address ∨ (∀ w' ∈ registry.workers, w'.id ≠ address) ∧
    ∀ w' ∈ registry.workers, w'.legacyAlias = address ↔ w' = w)

structure Eligible (registry : WorkerRegistry) (request : RouteRequest) (w : WorkerDescriptor) :
    Prop where
  registered : w ∈ registry.workers
  admitted : request.Admits w
  pinned : ∀ pin ∈ request.pinnedWorker, registry.Addresses pin w

/-- The rule matches, and its target is eligible. -/
def Reaches (registry : WorkerRegistry) (request : RouteRequest) (rule : RouteRule) : Prop :=
  rule.Matches request ∧ ∃ w, registry.Eligible request w ∧ w.id = rule.worker

/-- The worker is the one that is to be selected. -/
structure Chosen (registry : WorkerRegistry) (request : RouteRequest) (w : WorkerDescriptor) :
    Prop where
  eligible : registry.Eligible request w
  decided : request.pinnedWorker = none →
    (∃ before rule after, registry.rules = before ++ rule :: after ∧ registry.Reaches request rule ∧
      rule.worker = w.id ∧ ∀ earlier ∈ before, ¬registry.Reaches request earlier) ∨
    (∀ rule ∈ registry.rules, ¬registry.Reaches request rule) ∧
      ∀ w', registry.Eligible request w' → w.costKey ≤ w'.costKey

/-- The call does not panic, selects the worker that is to be selected, and fails only if none is
eligible. -/
def SelectsRightly (debugStr : String → String) (registry : WorkerRegistry) (request : RouteRequest) :
    Prop :=
  ∃ result, registry.select debugStr request = some result ∧
    match result with
    | .ok record => ∃ w, registry.Chosen request w ∧ record.selectedWorker = w.id ∧
      record.selectedSpecIdentity = w.specIdentity ∧
        record.selectedEmpiricalVersion = w.empiricalVersion
    | .error _ => ∀ w, ¬registry.Eligible request w

theorem eq_of_id_eq {w' : WorkerDescriptor} (hw : w ∈ registry.workers) (hw' : w' ∈ registry.workers)
    (h : w.id = w'.id) : w = w' := by
  have hnodup : (registry.workers.map (·.id)).Nodup :=
    pairwise_map.2 (registry.sorted.imp fun hlt ↦ hlt.ne)
  exact inj_on_of_nodup_map hnodup hw hw' h

theorem get_eq_some {id : String} : registry.get id = some w ↔ w ∈ registry.workers ∧ w.id = id := by
  constructor
  · intro h
    exact ⟨mem_of_find?_eq_some h, by simpa using find?_some h⟩
  · rintro ⟨hw, rfl⟩
    cases hget : registry.get w.id with
    | none => exact absurd (find?_eq_none.1 hget w hw) (by simp)
    | some w' =>
      rw [eq_of_id_eq (mem_of_find?_eq_some hget) hw (by simpa using find?_some hget)]

theorem get_eq_none {id : String} : registry.get id = none ↔ ∀ w ∈ registry.workers, w.id ≠ id := by
  simp [get]

theorem resolve_eq_ok {address : String} :
    registry.resolve debugStr address = .ok w ↔ registry.Addresses address w := by
  unfold resolve Addresses
  cases hget : registry.get address with
  | some worker =>
    obtain ⟨hworker, rfl⟩ := get_eq_some.1 hget
    constructor
    · rintro ⟨⟩
      exact ⟨hworker, .inl rfl⟩
    · rintro ⟨hw, hid | ⟨hnone, -⟩⟩
      · rw [eq_of_id_eq hw hworker hid]
      · exact absurd rfl (hnone worker hworker)
  | none =>
    have hnone := get_eq_none.1 hget
    have hmem (w' : WorkerDescriptor) : w' ∈ registry.workers.filter (·.legacyAlias = address) ↔
        w' ∈ registry.workers ∧ w'.legacyAlias = address := by simp
    constructor
    · intro h
      dsimp only at h
      split at h
      case h_1 worker hfilter =>
        obtain rfl := Except.ok.inj h
        simp only [hfilter, mem_singleton] at hmem
        exact ⟨((hmem _).1 rfl).1, .inr ⟨hnone, fun w' hw' ↦
          ⟨fun halias ↦ (hmem w').2 ⟨hw', halias⟩, fun heq ↦ ((hmem w').1 heq).2⟩⟩⟩
      all_goals cases h
    · rintro ⟨hw, hid | ⟨-, halias⟩⟩
      · exact absurd hid (hnone w hw)
      · have hfilter : registry.workers.filter (·.legacyAlias = address) = [w] := by
          have hnodup : (registry.workers.filter (·.legacyAlias = address)).Nodup :=
            (registry.sorted.imp fun hlt heq ↦ (heq ▸ hlt).false).filter _
          refine perm_singleton.1 ((perm_ext_iff_of_nodup hnodup (nodup_singleton w)).2 fun w' ↦ ?_)
          rw [hmem, mem_singleton]
          exact ⟨fun h ↦ (halias w' h.1).1 h.2, fun heq ↦ heq ▸ ⟨hw, (halias w hw).2 rfl⟩⟩
        rw [hfilter]

theorem rejections_eq_nil : rejections pin request w = [] ↔
    request.Admits w ∧ ∀ id ∈ pin, id = w.id := by
  simp only [rejections, append_eq_nil_iff, ite_eq_right_iff, cons_ne_nil, imp_false]
  constructor
  · rintro ⟨⟨⟨⟨⟨⟨hpin, havailable⟩, hcapable⟩, hcost⟩, hcontext⟩, hisolated⟩, hindependent⟩
    refine ⟨⟨by simpa using havailable, by simpa using hcapable, fun hpos cost hknown ↦ ?_,
      by simpa using hcontext, by simpa using hisolated, hindependent⟩, fun id hid ↦ ?_⟩
    · rw [Option.mem_def] at hknown
      simpa [hpos, hknown] using hcost
    · rw [Option.mem_def] at hid
      simpa [hid] using hpin
  · rintro ⟨h, hpin⟩
    refine ⟨⟨⟨⟨⟨⟨?_, by simp [h.available]⟩, by simp [h.capable]⟩, ?_⟩, by simp [h.context]⟩,
      by simpa using h.isolated⟩, h.independent⟩
    · cases pin <;> simp_all
    · rintro ⟨hpos, hover⟩
      rcases hcost : w.estimatedCostMicrousd with _ | cost
      · rw [hcost] at hover
        cases hover
      rw [hcost, Option.any_some, decide_eq_true_eq] at hover
      exact absurd (h.affordable hpos cost hcost) (Nat.not_le.2 hover)

theorem mem_candidates {c : CandidateEvaluation} : c ∈ registry.candidates pin request ↔
    ∃ w ∈ registry.workers, ⟨w.id, rejections pin request w⟩ = c :=
  mem_map

theorem selected_none : registry.selected (registry.candidates pin request) none =
    some ((registry.workers.filter (rejections pin request · = [])).argmin
      WorkerDescriptor.costKey) := by
  have hget : ∀ l : List WorkerDescriptor, (∀ w ∈ l, w ∈ registry.workers) →
      (l.map fun w ↦ (⟨w.id, rejections pin request w⟩ : CandidateEvaluation)).mapM
        (fun c ↦ registry.get c.workerId) = some l := by
    intro l hl
    induction l with
    | nil => rfl
    | cons w l ih =>
      obtain ⟨hw, hl⟩ := forall_mem_cons.1 hl
      rw [map_cons, mapM_cons, get_eq_some.2 ⟨hw, rfl⟩, ih hl]
      rfl
  unfold selected candidates
  rw [filter_map, hget]
  · rfl
  · exact fun w hw ↦ (mem_filter.1 hw).1

theorem reaches_iff {rule : RouteRule} (hpin : request.pinnedWorker = none) :
    (rule.Matches request ∧ ∃ c ∈ registry.candidates none request,
      c.workerId = rule.worker ∧ c.rejected = []) ↔ registry.Reaches request rule := by
  refine and_congr_right fun _ ↦ ⟨?_, ?_⟩
  · rintro ⟨c, hc, hid, hrejected⟩
    obtain ⟨w, hw, rfl⟩ := mem_candidates.1 hc
    exact ⟨w, ⟨hw, (rejections_eq_nil.1 hrejected).1, by simp [hpin]⟩, hid⟩
  · rintro ⟨w, hw, hid⟩
    exact ⟨_, mem_candidates.2 ⟨w, hw.registered, rfl⟩, hid,
      rejections_eq_nil.2 ⟨hw.admitted, by simp⟩⟩

theorem selectsRightly_of_none (hpin : request.pinnedWorker = none) :
    registry.SelectsRightly debugStr request := by
  have hmem (w : WorkerDescriptor) :
      w ∈ registry.workers.filter (rejections none request · = []) ↔ registry.Eligible request w := by
    rw [mem_filter, decide_eq_true_eq, rejections_eq_nil]
    exact ⟨fun h ↦ ⟨h.1, h.2.1, by simp [hpin]⟩, fun h ↦ ⟨h.registered, h.admitted, by simp⟩⟩
  rw [SelectsRightly, select, hpin]
  change ∃ result, Option.bind (registry.selected (registry.candidates none request)
    (registry.matchedRule (registry.candidates none request) request)) _ = some result ∧ _
  cases hrule : registry.matchedRule (registry.candidates none request) request with
  | some rule =>
    rw [matchedRule, if_pos hpin] at hrule
    obtain ⟨hreaches, before, after, hrules, hbefore⟩ := find?_eq_some_iff_append.1 hrule
    rw [decide_eq_true_eq, reaches_iff hpin] at hreaches
    obtain ⟨w, hw, hid⟩ := hreaches.2
    refine ⟨.ok (registry.record (registry.candidates none request) request (some rule) w),
      by rw [selected, get_eq_some.2 ⟨hw.registered, hid⟩]; rfl, w, ⟨hw, fun _ ↦ .inl
        ⟨before, rule, after, hrules, hreaches, hid.symm, fun earlier hearlier ↦ ?_⟩⟩, rfl, rfl, rfl⟩
    simpa only [reaches_iff hpin, Bool.not_eq_true', decide_eq_false_iff_not] using
      hbefore earlier hearlier
  | none =>
    rw [matchedRule, if_pos hpin, find?_eq_none] at hrule
    have hrules : ∀ rule ∈ registry.rules, ¬registry.Reaches request rule := fun rule hmem ↦ by
      simpa only [decide_eq_true_eq, reaches_iff hpin] using hrule rule hmem
    rw [selected_none]
    cases hleast : (registry.workers.filter (rejections none request · = [])).argmin
        WorkerDescriptor.costKey with
    | some w =>
      have hw := (hmem w).1 (argmin_mem hleast)
      exact ⟨_, rfl, w, ⟨hw, fun _ ↦ .inr ⟨hrules, fun w' hw' ↦
        le_of_mem_argmin ((hmem w').2 hw') hleast⟩⟩, rfl, rfl, rfl⟩
    | none =>
      refine ⟨.error (if request.stage = .review ∧ request.independentFrom.isSome then
        .noIndependentReviewer else .noEligibleWorker request.stage), ?_, fun w hw ↦ ?_⟩
      · rw [Option.bind_some, refusal, hpin]
        dsimp only
        split <;> rfl
      · have hnil := argmin_eq_none.1 hleast
        exact absurd ((hmem w).2 hw) (hnil ▸ not_mem_nil)

theorem mapM_resolve (address : String) :
    (some address).mapM (fun pin ↦ (registry.resolve debugStr pin).map (·.id)) =
      (registry.resolve debugStr address).map fun w ↦ some w.id := by
  change some <$> (registry.resolve debugStr address).map (·.id) = _
  cases registry.resolve debugStr address <;> rfl

/-- **Worker selection.** The selection is right exactly if the pin, if there is one, is an id or the alias
of a worker that the request admits, or does not resolve. -/
theorem selectsRightly_iff (debugStr : String → String) (registry : WorkerRegistry)
    (request : RouteRequest) : registry.SelectsRightly debugStr request ↔
      ∀ pin ∈ request.pinnedWorker, (∃ w ∈ registry.workers, w.id = pin) ∨
        ∀ w, registry.Addresses pin w → request.Admits w := by
  rcases hpin : request.pinnedWorker with _ | address
  · exact iff_of_true (selectsRightly_of_none hpin) fun pin hmem ↦
      absurd hmem (Option.not_mem_none pin)
  simp only [Option.mem_some_iff, forall_eq']
  rw [SelectsRightly, select, hpin]
  rcases hresolve : registry.resolve debugStr address with remedy | w
  · have hnone (w : WorkerDescriptor) : ¬registry.Addresses address w := fun hw ↦ by
      cases hresolve.symm.trans (resolve_eq_ok.2 hw)
    refine iff_of_true ⟨.error (.invalidPinnedWorker remedy), ?_, fun w hw ↦
      hnone w (hw.pinned address hpin)⟩ (.inr fun w hw ↦ absurd hw (hnone w))
    rw [mapM_resolve, hresolve]
    rfl
  have hw := resolve_eq_ok.1 hresolve
  have hunique {w' : WorkerDescriptor} (hw' : registry.Addresses address w') : w' = w :=
    Except.ok.inj ((resolve_eq_ok.2 hw').symm.trans hresolve)
  have hmem (w' : WorkerDescriptor) : w' ∈ registry.workers.filter
      (rejections (some w.id) request · = []) ↔ w' = w ∧ request.Admits w := by
    rw [mem_filter, decide_eq_true_eq, rejections_eq_nil]
    constructor
    · rintro ⟨hw', hadmits, hid⟩
      obtain rfl := eq_of_id_eq hw.1 hw' (hid _ rfl)
      exact ⟨rfl, hadmits⟩
    · rintro ⟨rfl, hadmits⟩
      exact ⟨hw.1, hadmits, by simp⟩
  have hmap : (some address).mapM (fun pin ↦ (registry.resolve debugStr pin).map (·.id)) =
      .ok (some w.id) := by
    rw [mapM_resolve, hresolve]
    rfl
  have hrule : registry.matchedRule (registry.candidates (some w.id) request) request = none :=
    if_neg (by simp [hpin])
  rw [hmap]
  dsimp only
  rw [hrule, selected_none, Option.bind_some]
  cases hleast : (registry.workers.filter (rejections (some w.id) request · = [])).argmin
      WorkerDescriptor.costKey with
  | some w' =>
    obtain ⟨rfl, hadmits⟩ := (hmem w').1 (argmin_mem hleast)
    refine iff_of_true ⟨_, rfl, w', ⟨⟨hw.1, hadmits, ?_⟩, ?_⟩, rfl, rfl, rfl⟩
      (.inr fun w hw ↦ hunique hw ▸ hadmits)
    · simpa [hpin] using hw
    · exact fun hnone ↦ absurd (hpin.symm.trans hnone) (Option.some_ne_none _)
  | none =>
    have hrefused : ¬request.Admits w := fun hadmits ↦ by
      have hmem := (hmem w).2 ⟨rfl, hadmits⟩
      rw [argmin_eq_none.1 hleast] at hmem
      exact not_mem_nil hmem
    rw [refusal, hpin]
    dsimp only
    cases hfound : (registry.candidates (some w.id) request).find? (·.workerId = address) with
    | some c =>
      obtain ⟨w', hw', rfl⟩ := mem_candidates.1 (mem_of_find?_eq_some hfound)
      refine iff_of_true ⟨_, rfl, fun w' hw' ↦ hrefused ?_⟩
        (.inl ⟨w', hw', by simpa using find?_some hfound⟩)
      exact hunique (hw'.pinned address hpin) ▸ hw'.admitted
    | none =>
      refine iff_of_false ?_ ?_
      · rintro ⟨_, hnone, -⟩
        cases hnone
      rintro (⟨w', hw', hid⟩ | hadmits)
      · exact find?_eq_none.1 hfound _ (mem_candidates.2 ⟨w', hw', rfl⟩) (by simpa using hid)
      · exact hrefused (hadmits w hw)

/-- A worker that is not available is pinned by its alias. -/
theorem not_selectsRightly : ¬(register id ⟨[], [], .nil⟩ ⟨"worker-1", "spec", "v1", "codex",
    "openai", "gpt-5", "codex", [.review], true, 1000, none, false⟩).2.SelectsRightly id
      ⟨.review, some "openai/gpt-5", 0, 0, false, none, [], 0⟩ := by
  rintro ⟨result, hselect, -⟩
  have hpanic : ((register id ⟨[], [], .nil⟩ ⟨"worker-1", "spec", "v1", "codex", "openai",
      "gpt-5", "codex", [.review], true, 1000, none, false⟩).2.select id
        ⟨.review, some "openai/gpt-5", 0, 0, false, none, [], 0⟩).isNone := by decide +kernel
  rw [hselect] at hpanic
  cases hpanic

end WorkerRegistry

end FamiliarAi.Routing
