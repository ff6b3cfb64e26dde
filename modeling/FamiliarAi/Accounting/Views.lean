import FamiliarAi.Accounting.Reconcile
import FamiliarAi.Accounting.Series

/-!
# The two views of the accounting

The history of usage and the reconciliation both count what the providers have charged, and each
asks the bindings for the project of a workspace: the history under the name `anthropic`, a run
under the name of the source that it reconciles. Each revision is counted once by both, since a
workspace has at most one binding under a name. To the same project it is attributed exactly where
both names have the workspace bound to it, or neither has it bound.
-/

namespace FamiliarAi

open Relational List Except

def SeriesFact.Counts (r : CostRevision) (fact : SeriesFact) : Prop :=
  fact.dimension "provider" = some "anthropic" ∧ fact.authoritativeCost.isSome ∧
    fact.id = r.revisionId

instance (r : CostRevision) : DecidablePred (SeriesFact.Counts r) :=
  fun _ ↦ inferInstanceAs (Decidable (_ ∧ _))

def seriesAttributions (groups : List (SeriesKey × List SeriesFact)) (r : CostRevision) :
    List (Option String) :=
  ((groups.flatMap (·.2)).filter (·.Counts r)).map (·.project)

def runAttributions (compared : List ReconciliationCandidate) (r : CostRevision) :
    List (Option String) :=
  ((compared.flatMap (·.counted)).filter fun counted ↦ counted.1 = r.revisionId).map (·.2)

/-- Both count the revision once, and attribute it to the same project, or both to none. -/
def ViewsAgree (groups : List (SeriesKey × List SeriesFact))
    (compared : List ReconciliationCandidate) (r : CostRevision) : Prop :=
  ∃ project, seriesAttributions groups r = [project] ∧ runAttributions compared r = [project]

section Revisions

variable {store : AccountingStore} {r : CostRevision}

theorem nodup_revisionIds : (store.currentProviderCosts.map (·.revisionId)).Nodup := by
  refine (store.costs.nodup.filter _).map_on fun r hr r' hr' hid ↦ ?_
  refine Table.eq_of_clash (mem_filter.1 hr).1 (mem_filter.1 hr').1 ?_
  exact Bool.or_eq_true_iff.2 (.inl (decide_eq_true hid))

theorem filter_revisionId (store : AccountingStore) {revisions : List CostRevision}
    (h : revisions.Subperm store.currentProviderCosts) (hr : r ∈ revisions) :
    (revisions.filter fun r' ↦ r'.revisionId = r.revisionId) = [r] := by
  obtain ⟨l, hperm, hsublist⟩ := h
  exact filter_key_eq_singleton
    ((hperm.map _).nodup_iff.1 (nodup_revisionIds.sublist (hsublist.map _))) hr

end Revisions

section Series

variable {C : Calendar} {request : UsageSeriesRequest} {store : SeriesStore} {r : CostRevision}
  {facts : List SeriesFact}

theorem filter_localSeriesFacts (h : localSeriesFacts C request store = .ok facts) :
    facts.filter (·.Counts r) = [] := by
  refine filter_eq_nil_iff.2 fun fact hfact hcounts ↦ ?_
  obtain ⟨joined, -, hread⟩ := exists_of_mem_mapM h hfact
  obtain ⟨estimated, -, hread⟩ := Except.bind_eq_ok.1 hread
  obtain ⟨credits, -, hread⟩ := Except.bind_eq_ok.1 hread
  obtain ⟨assignment, -, hread⟩ := Except.bind_eq_ok.1 hread
  obtain rfl := ok.inj hread
  exact Bool.false_ne_true (of_decide_eq_true hcounts).2.1

theorem filter_openAiSeriesFacts : (openAiSeriesFacts request store).filter (·.Counts r) = [] := by
  refine filter_eq_nil_iff.2 fun fact hfact hcounts ↦ ?_
  obtain ⟨revision, -, rfl⟩ := mem_map.1 hfact
  have hprovider := (of_decide_eq_true hcounts).1
  rw [provider_providerFact] at hprovider
  exact absurd (Option.some.inj hprovider) (by decide)

theorem attributions_anthropicSeriesFacts (h : anthropicSeriesFacts C request store = .ok facts)
    (hr : r ∈ store.currentProviderCosts) (hrange : request.Covers C r.bucketStart) :
    (facts.filter (·.Counts r)).map (·.project) =
      [store.boundProject "anthropic" r.workspaceId] := by
  rw [anthropicSeriesFacts, AccountingStore.joinProjects_eq] at h
  rw [map_filter_of_forall₂ (p := fun joined ↦ joined.1.revisionId = r.revisionId) (f := Prod.snd)
    (forall₂_of_mapM h)]
  · rw [filter_map, map_map]
    show List.map _ (List.filter (fun r' : CostRevision ↦ r'.revisionId = r.revisionId) _) = _
    rw [filter_revisionId store.toAccountingStore]
    · rfl
    · exact (perm_insertionSort _ _).subperm.trans filter_sublist.subperm
    · rw [mem_insertionSort, mem_filter]
      exact ⟨hr, decide_eq_true hrange⟩
  · intro joined fact hread
    obtain ⟨assignment, -, hread⟩ := Except.bind_eq_ok.1 hread
    obtain rfl := ok.inj hread
    rw [decide_eq_decide, SeriesFact.Counts, provider_providerFact]
    exact ⟨fun hcounts ↦ hcounts.2.2, fun hid ↦ ⟨rfl, rfl, hid⟩⟩
  · intro joined fact hread
    obtain ⟨assignment, -, hread⟩ := Except.bind_eq_ok.1 hread
    obtain rfl := ok.inj hread
    exact project_providerFact

theorem seriesAttributions_seriesGroups : (seriesAttributions (seriesGroups C request facts) r).Perm
    ((facts.filter (·.Counts r)).map (·.project)) :=
  ((flatMap_seriesGroups facts).filter _).map _

theorem seriesAttributions_eq (h : seriesFacts C request store = .ok facts)
    (hall : request.filters = []) (hr : r ∈ store.currentProviderCosts)
    (hrange : request.Covers C r.bucketStart) :
    seriesAttributions (seriesGroups C request facts) r =
      [store.boundProject "anthropic" r.workspaceId] := by
  obtain ⟨localFacts, hlocal, h⟩ := Except.bind_eq_ok.1 h
  obtain ⟨charged, hcharged, h⟩ := Except.bind_eq_ok.1 h
  obtain rfl := ok.inj h
  refine perm_singleton.1 (seriesAttributions_seriesGroups.trans (.of_eq ?_))
  rw [hall]
  simp only [all_nil, filter_true]
  rw [filter_append, filter_append, filter_localSeriesFacts hlocal,
    filter_openAiSeriesFacts, nil_append, nil_append,
    attributions_anthropicSeriesFacts hcharged hr hrange]

end Series

/-! ### The runs -/

section Runs

variable {C : Calendar} {store : AccountingStore} {r : CostRevision} {d : ℤ}
  {compared : List ReconciliationCandidate}

theorem filter_chargedOn (hr : r ∈ store.currentProviderCosts) {d' : ℤ} (hd : C.Writable d)
    (hd' : C.Writable d') (hday : C.InDay d r.bucketStart) :
    ((chargedOn C store r.sourceName d').filter fun e ↦ e.1.revisionId = r.revisionId) =
      if d' = d then [(r, store.boundProject r.sourceName r.workspaceId)] else [] := by
  rw [chargedOn, AccountingStore.joinProjects_eq, filter_map]
  show List.map _ (List.filter (fun r' : CostRevision ↦ r'.revisionId = r.revisionId) _) = _
  split_ifs with hsame
  · subst hsame
    rw [filter_revisionId store filter_sublist.subperm (mem_filter.2
      ⟨hr, decide_eq_true ⟨rfl, hday⟩⟩)]
    rfl
  · rw [map_eq_nil_iff, filter_eq_nil_iff]
    intro r' hr' hid
    obtain ⟨hcurrent, hfound⟩ := mem_filter.1 hr'
    obtain rfl := inj_on_of_nodup_map nodup_revisionIds hcurrent hr (of_decide_eq_true hid)
    exact hsame (Calendar.InDay.unique hd' hd (of_decide_eq_true hfound).2 hday)

theorem runAttributions_append {compared' : List ReconciliationCandidate} :
    runAttributions (compared ++ compared') r = runAttributions compared r ++
      runAttributions compared' r := by
  rw [runAttributions, flatMap_append, filter_append, map_append]
  rfl

theorem runAttributions_candidates (h : candidates C store r.sourceName d = .ok compared) :
    (runAttributions compared r).Perm (((chargedOn C store r.sourceName d).filter fun e ↦
      e.1.revisionId = r.revisionId).map (·.2)) := by
  have hcounted :=
    ((candidates_counted h).filter fun counted ↦ counted.1 = r.revisionId).map Prod.snd
  rw [filter_map, map_map] at hcounted
  exact hcounted

theorem runAttributions_days {days : List ℤ} {compared : List (List ReconciliationCandidate)}
    (hr : r ∈ store.currentProviderCosts) (hd : C.Writable d) (hday : C.InDay d r.bucketStart)
    (hdays : ∀ d' ∈ days, C.Writable d')
    (h : Forall₂ (fun d' c ↦ candidates C store r.sourceName d' = .ok c) days compared) :
    runAttributions compared.flatten r =
      List.replicate (days.count d) (store.boundProject r.sourceName r.workspaceId) := by
  -- by induction on the days
  induction h with
  | nil => rfl
  | @cons d' c days compared hc _ ih =>
    rw [flatten_cons, runAttributions_append, ih fun d'' hd'' ↦ hdays d'' (mem_cons_of_mem _ hd'')]
    have hfirst := runAttributions_candidates hc
    rw [filter_chargedOn hr hd (hdays d' mem_cons_self) hday] at hfirst
    by_cases hsame : d' = d
    · rw [if_pos hsame, map_singleton, perm_singleton] at hfirst
      rw [hfirst, hsame, count_cons_self, replicate_succ]
      rfl
    · rw [if_neg hsame, map_nil, perm_nil] at hfirst
      rw [hfirst, nil_append, count_cons_of_ne hsame]

theorem runAttributions_eq {w : Window C} (hr : r ∈ store.currentProviderCosts)
    (hday : C.InDay d r.bucketStart) (hd : d ∈ coveredDays w.start w.stop)
    (h : windowCandidates C store r.sourceName w.start w.stop = .ok compared) :
    runAttributions compared r = [store.boundProject r.sourceName r.workspaceId] := by
  obtain ⟨days, hdays, h⟩ := Except.bind_eq_ok.1 h
  obtain rfl := ok.inj h
  rw [runAttributions_days hr (Calendar.writable_of_mem hd) hday
    (fun d' hd' ↦ Calendar.writable_of_mem hd') (forall₂_of_mapM hdays),
    count_eq_one_of_mem nodup_coveredDays hd]
  rfl

end Runs

/-- **What both views say of a revision.** They attribute it alike exactly where its workspace is
bound alike under the name of the provider and under the name of the source. -/
theorem views_agree {C : Calendar} {request : UsageSeriesRequest} {store : SeriesStore}
    {w : Window C} {r : CostRevision} {d : ℤ} {facts : List SeriesFact}
    {compared : List ReconciliationCandidate} (hr : r ∈ store.currentProviderCosts)
    (hday : C.InDay d r.bucketStart) (hrange : request.Covers C r.bucketStart)
    (hall : request.filters = []) (hd : d ∈ coveredDays w.start w.stop)
    (hfacts : seriesFacts C request store = .ok facts)
    (hcompared : windowCandidates C store.toAccountingStore r.sourceName w.start w.stop =
      .ok compared) :
    ViewsAgree (seriesGroups C request facts) compared r ↔
      store.boundProject "anthropic" r.workspaceId =
        store.boundProject r.sourceName r.workspaceId := by
  rw [ViewsAgree, seriesAttributions_eq hfacts hall hr hrange,
    runAttributions_eq hr hday hd hcompared]
  constructor
  · rintro ⟨project, hseries, hrun⟩
    exact (cons.inj (hseries.trans hrun.symm)).1
  · intro hbound
    exact ⟨_, rfl, congrArg (fun project ↦ [project]) hbound.symm⟩

namespace ViewEvaluation

/-- The first days of August 2026. -/
def calendar : Calendar where
  text t :=
    if t ≤ midnight 20666 then "2026-08-01T00:00:00+00:00"
    else if t ≤ midnight 20667 then "2026-08-02T00:00:00+00:00"
    else "2026-08-03T00:00:00+00:00"
  parse text :=
    if text = "2026-08-01T00:00:00Z" then .ok (midnight 20666)
    else .error "input contains invalid characters"
  monthStart _ := midnight 20666
  nextMonth _ := midnight 20697
  firstDay := 20666
  lastDay := 20668
  text_lt {d d'} hfirst hlt hlast := by
    obtain rfl | rfl : d = 20666 ∨ d = 20667 := by omega
    · obtain rfl | rfl : d' = 20667 ∨ d' = 20668 := by omega
      · decide
      · decide
    · obtain rfl : d' = 20668 := by omega
      decide

/-- A binding of the workspace `wrk_a`. -/
def binding (provider : String) : AttributionBinding where
  bindingId := "pab_" ++ provider
  projectId := "prj_a00000000000001"
  provider := provider
  scopeKind := "workspace"
  scopeValue := "wrk_a"
  confidence := "exact"
  actor := "test"
  boundAt := "2026-08-01T00:00:00+00:00"

def revision : CostRevision where
  revisionId := "bcr_a"
  attemptId := "bat_a"
  sourceName := "org-main"
  logicalIdentityHash := "identity"
  payloadHash := "payload"
  predecessorRevisionId := none
  bucketStart := "2026-08-01T00:00:00Z"
  bucketEnd := "2026-08-02T00:00:00Z"
  workspaceId := "wrk_a"
  description := "tokens"
  chargeClass := "tokens"
  currency := "USD"
  amountLexical := "1.00"
  amountNanousd := 1000000000
  providerPayload := "payload"
  observedAt := "2026-08-02T00:00:00+00:00"

def store (bindings : Table attributionBindingSchema) : SeriesStore where
  sources := .empty
  attempts := .empty
  costs := ⟨[revision], by decide⟩
  openAiSources := []
  openAiCosts := .empty
  projects := ["prj_a00000000000001"]
  bindings := bindings
  registry := []
  observations := .empty
  estimates := .empty
  corrections := .empty
  executions := []
  credits := []

def boundToSource : Table attributionBindingSchema :=
  ⟨[binding "org-main"], by decide⟩

/-- It is bound under the name of the provider too. -/
def boundToBoth : Table attributionBindingSchema :=
  ⟨[binding "org-main", binding "anthropic"], by decide⟩

def request : UsageSeriesRequest where
  start := midnight 20666
  stop := midnight 20667
  bucket := .day
  groupBy := ["project"]
  filters := []
  dense := false

def window : Window calendar where
  start := midnight 20666
  stop := midnight 20667
  first_le := by decide
  le_last := by decide

def fact (project : Option String) : SeriesFact :=
  providerFact "bcr_a" "org-main" "anthropic" project (some 1000000000) (midnight 20666)

/-- What a run compares of the revision. -/
def compared : List ReconciliationCandidate :=
  [projectCandidate "prj_a00000000000001" [revision] []]

theorem seriesFacts_boundToSource :
    seriesFacts calendar request (store boundToSource) = .ok [fact none] := by
  decide

theorem windowCandidates_boundToSource :
    windowCandidates calendar (store boundToSource).toAccountingStore "org-main" window.start
      window.stop = .ok compared := by
  decide

end ViewEvaluation

open ViewEvaluation in
theorem views_agree_boundToBoth :
    ViewsAgree (seriesGroups calendar request [fact (some "prj_a00000000000001")]) compared
      revision :=
  (@views_agree calendar request (store boundToBoth) window revision 20666 _ _ (by decide +kernel)
    (by decide +kernel) (by decide +kernel) rfl (by decide +kernel) (by decide +kernel)
    (by decide +kernel)).2 (by decide +kernel)

open ViewEvaluation in
/-- Bound under the name of the source alone, the revision belongs to no project in the history, and
to the project of the binding in the run. -/
theorem views_disagree : ¬∀ (C : Calendar) (request : UsageSeriesRequest) (store : SeriesStore)
    (w : Window C) (r : CostRevision) (d : ℤ) (facts : List SeriesFact)
    (compared : List ReconciliationCandidate), r ∈ store.currentProviderCosts →
      C.InDay d r.bucketStart → request.Covers C r.bucketStart → request.filters = [] →
      d ∈ coveredDays w.start w.stop → seriesFacts C request store = .ok facts →
      windowCandidates C store.toAccountingStore r.sourceName w.start w.stop = .ok compared →
      ViewsAgree (seriesGroups C request facts) compared r := by
  intro h
  obtain ⟨project, hseries, hrun⟩ := h calendar request (store boundToSource) window revision 20666
    [fact none] compared (by decide +kernel) (by decide +kernel) (by decide +kernel) rfl
    (by decide +kernel) seriesFacts_boundToSource windowCandidates_boundToSource
  have hseries' :
      seriesAttributions (seriesGroups calendar request [fact none]) revision = [none] := by
    decide +kernel
  have hrun' : runAttributions compared revision = [some "prj_a00000000000001"] := by
    decide +kernel
  rw [hseries'] at hseries
  rw [hrun', ← (cons.inj hseries).1] at hrun
  cases (cons.inj hrun).1

end FamiliarAi
