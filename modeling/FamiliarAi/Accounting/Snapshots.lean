import FamiliarAi.Accounting.Billing

/-!
# What a snapshot leaves in effect

A snapshot is reflected when, for everything it is about, the current revisions add up to what it says.
Three things have to be right for that. No two rows of the snapshot are about the same. A row that is
kept names the revision that is in effect, which is the newest one by time as long as the times of the
revisions are in the order in which they came. And a row whose payload the store has seen before, which
is not kept again, says what is in effect anyway. These are conditions on the store and the snapshot;
where they hold at every snapshot of a run, every snapshot is reflected.
-/

namespace FamiliarAi

open Relational

/-! ### Anthropic -/

section Anthropic

variable (sha256 : Sha256) (source : String)

def ProviderCostRow.amount (row : ProviderCostRow) : ℤ :=
  (billingNanousd row.amountLexical).getD 0

/-- **The snapshot is in effect**, for each identity and in total. -/
def Reflected (store : AccountingStore) (rows : List ProviderCostRow) : Prop :=
  costLog.Reflects (·.amountNanousd) store.costs.rows rows
    (fun row ↦ (source, row.logicalIdentity sha256 source)) (·.amount)

def Seen (costs : List CostRevision) (row : ProviderCostRow) : Prop :=
  ∃ r ∈ costs, r.revisionId = row.revisionId sha256 source ∨
    (r.sourceName = source ∧ r.payloadHash = row.payloadHash sha256)

def PayloadsApart (row row' : ProviderCostRow) : Prop :=
  row.revisionId sha256 source ≠ row'.revisionId sha256 source ∧
    row.payloadHash sha256 ≠ row'.payloadHash sha256

instance (costs : List CostRevision) : DecidablePred (Seen sha256 source costs) :=
  fun _ ↦ inferInstanceAs (Decidable (∃ r ∈ costs, _))

/-- **When a snapshot comes into effect.** -/
structure Ready (costs : List CostRevision) (rows : List ProviderCostRow) : Prop where
  identities : (rows.map (·.logicalIdentity sha256 source)).Nodup
  payloads : rows.Pairwise fun row row' ↦ ¬Seen sha256 source costs row →
    ¬Seen sha256 source costs row' → PayloadsApart sha256 source row row'
  seen : ∀ row ∈ rows, Seen sha256 source costs row →
    ∃ r ∈ costLog.effective costs (source, row.logicalIdentity sha256 source),
      billingNanousd row.amountLexical = some r.amountNanousd
  unseen : ∀ row ∈ rows, ¬Seen sha256 source costs row →
    newestRevision source costs (row.logicalIdentity sha256 source) =
      costLog.effective costs (source, row.logicalIdentity sha256 source)

end Anthropic

section Commit

variable {sha256 : Sha256} {source attempt now : String} {n n' : ℕ}
  {T T' : Table costRevisionSchema} {row : ProviderCostRow} {rows : List ProviderCostRow}
  {store store' : AccountingStore} {start stop : String} {costs : List CostRevision}
  {prior : Option String} {amount : ℤ}

/-- **What keeping a row does.** -/
theorem commitRow_eq_ok (h : commitRow sha256 source attempt now (n, T) row = .ok (n', T')) :
    ∃ amount, billingNanousd row.amountLexical = some amount ∧
      (Seen sha256 source T.rows row ∧ T' = T ∨
        ¬Seen sha256 source T.rows row ∧ T'.rows = T.rows ++ [row.revision sha256 source attempt now
          ((newestRevision source T.rows (row.logicalIdentity sha256 source)).map (·.revisionId))
          amount]) := by
  rw [commitRow] at h
  split at h
  · cases h
  rename_i amount hamount
  refine ⟨amount, hamount, ?_⟩
  dsimp only at h
  split at h
  · rename_i costs hinsert
    obtain ⟨-, rfl⟩ := Prod.mk.inj (Except.ok.inj h)
    refine .inr ⟨?_, Table.rows_insert hinsert⟩
    rintro ⟨r, hr, hsame⟩
    have hclash := Table.not_clash_of_insert hinsert hr
    simp only [costRevisionSchema, ProviderCostRow.revision, Bool.or_eq_false_iff,
      decide_eq_false_iff_not] at hclash
    rcases hsame with hsame | hsame
    · exact hclash.1 hsame
    · exact hclash.2 hsame
  · rename_i hinsert
    obtain ⟨-, rfl⟩ := Prod.mk.inj (Except.ok.inj h)
    refine .inl ⟨?_, rfl⟩
    by_contra hunseen
    obtain ⟨T', hT'⟩ := Table.exists_insert (T := T) (r := row.revision sha256 source attempt now
      ((newestRevision source T.rows (row.logicalIdentity sha256 source)).map (·.revisionId)) amount)
      rfl fun r hr ↦ by
        simp only [costRevisionSchema, ProviderCostRow.revision, Bool.or_eq_false_iff,
          decide_eq_false_iff_not]
        exact ⟨fun hsame ↦ hunseen ⟨r, hr, .inl hsame⟩, fun hsame ↦ hunseen ⟨r, hr, .inr hsame⟩⟩
    rw [hinsert] at hT'
    cases hT'

theorem Ready.tail (h : Ready sha256 source costs (row :: rows)) :
    Ready sha256 source costs rows where
  identities := (List.nodup_cons.1 h.identities).2
  payloads := (List.pairwise_cons.1 h.payloads).2
  seen row hrow := h.seen row (List.mem_cons_of_mem _ hrow)
  unseen row hrow := h.unseen row (List.mem_cons_of_mem _ hrow)

theorem seen_append {row' : ProviderCostRow} :
    Seen sha256 source (costs ++ [row.revision sha256 source attempt now prior amount]) row' ↔
      Seen sha256 source costs row' ∨ ¬PayloadsApart sha256 source row row' := by
  rw [PayloadsApart, not_and_or, not_ne_iff, not_ne_iff, Seen, Seen]
  constructor
  · rintro ⟨r, hr, hsame⟩
    rcases List.mem_append.1 hr with hr | hr
    · exact .inl ⟨r, hr, hsame⟩
    · rw [List.mem_singleton.1 hr] at hsame
      exact .inr (hsame.imp_right And.right)
  · rintro (⟨r, hr, hsame⟩ | hsame)
    · exact ⟨r, List.mem_append_left _ hr, hsame⟩
    · exact ⟨_, List.mem_append_right _ (List.mem_singleton_self _), hsame.imp_right fun h ↦ ⟨rfl, h⟩⟩

theorem Ready.kept (h : Ready sha256 source T.rows (row :: rows))
    (hunseen : ¬Seen sha256 source T.rows row)
    (hother : ∀ row' ∈ rows, costLog.effective (T.rows ++ [row.revision sha256 source attempt now prior amount]) (source, row'.logicalIdentity sha256 source) = costLog.effective T.rows (source, row'.logicalIdentity sha256 source))
    :
    Ready sha256 source (T.rows ++ [row.revision sha256 source attempt now prior amount]) rows := by
  obtain ⟨hnew, hidentities⟩ := List.nodup_cons.1 h.identities
  obtain ⟨hapart, hpayloads⟩ := List.pairwise_cons.1 h.payloads
  -- the rest has been seen if it had been seen before
  have hseen : ∀ row' ∈ rows, Seen sha256 source
      (T.rows ++ [row.revision sha256 source attempt now prior amount]) row' →
        Seen sha256 source T.rows row' := by
    intro row' hrow' hseen
    rcases seen_append.1 hseen with hseen | hsame
    · exact hseen
    · by_contra hunseen'
      exact hsame (hapart row' hrow' hunseen hunseen')
  refine ⟨hidentities, ?_, fun row' hrow' hrow'' ↦ ?_, fun row' hrow' hrow'' ↦ ?_⟩
  · refine hpayloads.imp fun hp ha hb ↦ hp (fun hs ↦ ha ?_) fun hs ↦ hb ?_
    · exact seen_append.2 (.inl hs)
    · exact seen_append.2 (.inl hs)
  · rw [hother row' hrow']
    exact h.seen row' (List.mem_cons_of_mem _ hrow') (hseen row' hrow' hrow'')
  · have hne : row.logicalIdentity sha256 source ≠ row'.logicalIdentity sha256 source := fun hsame ↦
      hnew (List.mem_map.2 ⟨row', hrow', hsame.symm⟩)
    rw [hother row' hrow', ← h.unseen row' (List.mem_cons_of_mem _ hrow') fun hs ↦
      hrow'' (seen_append.2 (.inl hs))]
    rw [newestRevision, newestRevision, List.filter_append, List.filter_singleton,
      decide_eq_false fun hsame ↦ hne hsame.2, cond_false, List.append_nil]

/-- **What the rows of a snapshot do.** Each comes into effect, and nothing else changes. -/
theorem commitRows_eq_ok
    (h : rows.foldlM (commitRow sha256 source attempt now) (n, T) = .ok (n', T'))
    (hlinked : costLog.Linked T.rows) (hready : Ready sha256 source T.rows rows) :
    costLog.Linked T'.rows ∧
      (∀ row ∈ rows, ∃ r ∈ costLog.effective T'.rows (source, row.logicalIdentity sha256 source),
        billingNanousd row.amountLexical = some r.amountNanousd) ∧
      ∀ key, (∀ row ∈ rows, key ≠ (source, row.logicalIdentity sha256 source)) →
        costLog.effective T'.rows key = costLog.effective T.rows key := by
  induction rows generalizing n T with
  | nil =>
    obtain ⟨-, rfl⟩ := Prod.mk.inj (Except.ok.inj h)
    exact ⟨hlinked, fun _ hrow ↦ absurd hrow List.not_mem_nil, fun _ _ ↦ rfl⟩
  | cons row rows ih =>
    rw [List.foldlM_cons] at h
    obtain ⟨⟨n₁, T₁⟩, hfirst, hrest⟩ := Except.bind_eq_ok.1 h
    have hnew : ∀ row' ∈ rows, (source, row.logicalIdentity sha256 source) ≠
        (source, row'.logicalIdentity sha256 source) := fun row' hrow' hsame ↦
      (List.nodup_cons.1 hready.identities).1
        (List.mem_map.2 ⟨row', hrow', (Prod.mk.inj hsame).2.symm⟩)
    obtain ⟨amount, hamount, ⟨hseen, rfl⟩ | ⟨hunseen, hrows⟩⟩ := commitRow_eq_ok hfirst
    · -- what was seen is in effect, and it stays so
      obtain ⟨hlinked', heach, hothers⟩ := ih hrest hlinked hready.tail
      refine ⟨hlinked', fun row' hrow' ↦ ?_, fun key hkey ↦ ?_⟩
      · rcases List.mem_cons.1 hrow' with rfl | hrow'
        · rw [hothers _ hnew]
          exact hready.seen _ List.mem_cons_self hseen
        · exact heach row' hrow'
      · exact hothers key fun row' hrow' ↦ hkey row' (List.mem_cons_of_mem _ hrow')
    · -- the new revision takes the place of what is in effect
      rw [hready.unseen row List.mem_cons_self hunseen] at hrows
      let revision := row.revision sha256 source attempt now ((costLog.effective T.rows
        (source, row.logicalIdentity sha256 source)).map (·.revisionId)) amount
      have hfresh : ∀ r ∈ T.rows, costLog.id r ≠ costLog.id revision := fun r hr hsame ↦
        hunseen ⟨r, hr, .inl hsame⟩
      have hprior : costLog.prior revision =
        (costLog.effective T.rows (costLog.key revision)).map costLog.id := rfl
      have heffective := RevisionLog.effective_append hlinked hfresh hprior
      have hother : ∀ row' ∈ rows, _ := fun row' hrow' ↦
        (heffective (source, row'.logicalIdentity sha256 source)).trans
          (if_neg (hnew row' hrow').symm)
      have hlinked₁ := hlinked.append hfresh hprior
      have hready₁ := hready.kept hunseen hother
      rw [← hrows] at hlinked₁ hready₁
      obtain ⟨hlinked', heach, hothers⟩ := ih hrest hlinked₁ hready₁
      refine ⟨hlinked', fun row' hrow' ↦ ?_, fun key hkey ↦ ?_⟩
      · rcases List.mem_cons.1 hrow' with rfl | hrow'
        · rw [hothers _ hnew, hrows, heffective]
          exact ⟨_, if_pos rfl, hamount⟩
        · exact heach row' hrow'
      · rw [hothers key fun row' hrow' ↦ hkey row' (List.mem_cons_of_mem _ hrow'), hrows, heffective]
        exact if_neg (hkey row List.mem_cons_self)

theorem ready_singleton : Ready sha256 source [] [row] where
  identities := List.nodup_singleton _
  payloads := List.pairwise_singleton _ _
  seen := fun _ _ ⟨_, hr, _⟩ ↦ absurd hr List.not_mem_nil
  unseen _ _ _ := rfl

theorem commitComplete_eq_ok
    (h : commitComplete sha256 source now start stop rows store = .ok (n, store')) :
    ∃ attempts kept, rows.foldlM (commitRow sha256 source
        (collectionAttempt sha256 source now start stop).attemptId now) (0, store.costs) = .ok kept ∧
      store' = { store with attempts, costs := kept.2 } := by
  rw [commitComplete] at h
  split at h
  · cases h
  · rename_i attempts _
    obtain ⟨kept, hkept, hstore⟩ := Except.bind_eq_ok.1 h
    obtain ⟨-, rfl⟩ := Prod.mk.inj (Except.ok.inj hstore)
    exact ⟨attempts, kept, hkept, rfl⟩

theorem effective_of_ready
    (h : commitComplete sha256 source now start stop rows store = .ok (n, store'))
    (hlinked : costLog.Linked store.costs.rows) (hready : Ready sha256 source store.costs.rows rows)
    :
    costLog.Linked store'.costs.rows ∧ ∀ row ∈ rows,
      ∃ r ∈ costLog.effective store'.costs.rows (source, row.logicalIdentity sha256 source),
        r.amountNanousd = row.amount := by
  obtain ⟨attempts, ⟨n', T'⟩, hrows, rfl⟩ := commitComplete_eq_ok h
  obtain ⟨hlinked', heach, -⟩ := commitRows_eq_ok hrows hlinked hready
  refine ⟨hlinked', fun row hrow ↦ ?_⟩
  obtain ⟨r, hr, hamount⟩ := heach row hrow
  refine ⟨r, hr, ?_⟩
  rw [ProviderCostRow.amount, hamount, Option.getD_some]

/-- **A snapshot that is ready comes into effect.** -/
theorem reflected_of_ready
    (h : commitComplete sha256 source now start stop rows store = .ok (n, store'))
    (hlinked : costLog.Linked store.costs.rows) (hready : Ready sha256 source store.costs.rows rows)
    :
    costLog.Linked store'.costs.rows ∧ Reflected sha256 source store' rows := by
  obtain ⟨hlinked', heach⟩ := effective_of_ready h hlinked hready
  refine ⟨hlinked', RevisionLog.reflects_of_effective hlinked' ?_ heach⟩
  have hkeys := hready.identities.map (Prod.mk_right_injective source)
  rwa [List.map_map] at hkeys

end Commit

/-! ### OpenAI -/

section OpenAi

/-- The amount of the fact in dollars. -/
def OpenAiCostFact.nanousd (fact : OpenAiCostFact) : ℤ :=
  match fact.amount with
  | .ok amount => amount.getD 0
  | .error _ => 0

/-- The snapshot is in effect, for each identity and in total. -/
def ReflectedOpenAi (store : AccountingStore) (facts : List OpenAiCostFact) : Prop :=
  openAiLog.Reflects (fun r ↦ r.amountNanousd.getD 0) store.openAiCosts.rows facts (·.identity)
    (·.nanousd)

def SeenOpenAi (costs : List OpenAiRevision) (fact : OpenAiCostFact) : Prop :=
  ∃ r ∈ costs, r.identity = fact.identity ∧ r.payloadHash = fact.payloadHash

instance (costs : List OpenAiRevision) : DecidablePred (SeenOpenAi costs) :=
  fun _ ↦ inferInstanceAs (Decidable (∃ r ∈ costs, _))

/-- When a snapshot of OpenAI comes into effect. -/
structure ReadyOpenAi (costs : List OpenAiRevision) (facts : List OpenAiCostFact) : Prop where
  /-- No two facts are about the same. -/
  identities : (facts.map (·.identity)).Nodup
  seen : ∀ fact ∈ facts, SeenOpenAi costs fact →
    ∃ r ∈ openAiLog.effective costs fact.identity, fact.amount = .ok r.amountNanousd
  unseen : ∀ fact ∈ facts, ¬SeenOpenAi costs fact →
    newestOpenAiRevision costs fact.identity = openAiLog.effective costs fact.identity

variable {revisionId : String} {fact : OpenAiCostFact} {facts : List (String × OpenAiCostFact)}
  {store store' : AccountingStore} {b : Bool} {costs : List OpenAiRevision}

/-- **What appending a fact does.** -/
theorem appendOpenAiCostRevision_eq_ok
    (h : appendOpenAiCostRevision revisionId fact store = .ok (b, store')) :
    SeenOpenAi store.openAiCosts.rows fact ∧ store' = store ∨
      ¬SeenOpenAi store.openAiCosts.rows fact ∧ ∃ amount openAiCosts, fact.amount = .ok amount ∧
        store.openAiCosts.insert (fact.revision revisionId
          ((newestOpenAiRevision store.openAiCosts.rows fact.identity).map (·.revisionId)) amount) =
            some openAiCosts ∧ store' = { store with openAiCosts } := by
  rw [appendOpenAiCostRevision] at h
  dsimp only at h
  split at h
  · rename_i hseen
    obtain ⟨-, rfl⟩ := Prod.mk.inj (Except.ok.inj h)
    exact .inl ⟨hseen, rfl⟩
  rename_i hunseen
  split at h
  · cases h
  rename_i amount hamount
  split at h
  · rename_i openAiCosts hinsert
    obtain ⟨-, rfl⟩ := Prod.mk.inj (Except.ok.inj h)
    split_ifs at hinsert
    exact .inr ⟨hunseen, amount, openAiCosts, hamount, hinsert, rfl⟩
  · cases h

theorem ReadyOpenAi.tail {facts : List OpenAiCostFact} (h : ReadyOpenAi costs (fact :: facts)) :
    ReadyOpenAi costs facts where
  identities := (List.nodup_cons.1 h.identities).2
  seen fact hfact := h.seen fact (List.mem_cons_of_mem _ hfact)
  unseen fact hfact := h.unseen fact (List.mem_cons_of_mem _ hfact)

theorem ReadyOpenAi.appended {facts : List OpenAiCostFact} {r : OpenAiRevision}
    (h : ReadyOpenAi costs (fact :: facts)) (hr : r.identity = fact.identity)
    (hother : ∀ fact' ∈ facts, openAiLog.effective (costs ++ [r]) fact'.identity = openAiLog.effective costs fact'.identity) :
    ReadyOpenAi (costs ++ [r]) facts := by
  obtain ⟨hnew, hidentities⟩ := List.nodup_cons.1 h.identities
  have hne : ∀ fact' ∈ facts, r.identity ≠ fact'.identity := fun fact' hfact' hsame ↦
    hnew (List.mem_map.2 ⟨fact', hfact', hsame.symm.trans hr⟩)
  have hseen : ∀ fact' ∈ facts, SeenOpenAi (costs ++ [r]) fact' ↔ SeenOpenAi costs fact' := by
    intro fact' hfact'
    constructor
    · rintro ⟨r', hr', hsame⟩
      rcases List.mem_append.1 hr' with hr' | hr'
      · exact ⟨r', hr', hsame⟩
      · rw [List.mem_singleton.1 hr'] at hsame
        exact absurd hsame.1 (hne fact' hfact')
    · rintro ⟨r', hr', hsame⟩
      exact ⟨r', List.mem_append_left _ hr', hsame⟩
  refine ⟨hidentities, fun fact' hfact' hfact'' ↦ ?_, fun fact' hfact' hfact'' ↦ ?_⟩
  · rw [hother fact' hfact']
    exact h.seen fact' (List.mem_cons_of_mem _ hfact') ((hseen fact' hfact').1 hfact'')
  · rw [hother fact' hfact', ← h.unseen fact' (List.mem_cons_of_mem _ hfact') fun hs ↦
      hfact'' ((hseen fact' hfact').2 hs)]
    rw [newestOpenAiRevision, newestOpenAiRevision, List.filter_append, List.filter_singleton,
      decide_eq_false (hne fact' hfact'), cond_false, List.append_nil]

/-- **What a snapshot of OpenAI does**, as far as it comes. The facts that were appended come into
effect, and if it is complete these are all of them. -/
theorem appendOpenAiSnapshot_spec (hlinked : openAiLog.Linked store.openAiCosts.rows)
    (hready : ReadyOpenAi store.openAiCosts.rows (facts.map (·.2))) :
    openAiLog.Linked (appendOpenAiSnapshot facts store).2.openAiCosts.rows ∧
      (∀ identity, (∀ fact ∈ facts, identity ≠ fact.2.identity) →
        openAiLog.effective (appendOpenAiSnapshot facts store).2.openAiCosts.rows identity =
          openAiLog.effective store.openAiCosts.rows identity) ∧
      ((appendOpenAiSnapshot facts store).1 = .ok () → ∀ fact ∈ facts,
        ∃ r ∈ openAiLog.effective (appendOpenAiSnapshot facts store).2.openAiCosts.rows
            fact.2.identity, fact.2.amount = .ok r.amountNanousd) := by
  induction facts generalizing store with
  | nil => exact ⟨hlinked, fun _ _ ↦ rfl, fun _ _ hfact ↦ absurd hfact List.not_mem_nil⟩
  | cons entry facts ih =>
    obtain ⟨revisionId, fact⟩ := entry
    rw [appendOpenAiSnapshot]
    rcases happend : appendOpenAiCostRevision revisionId fact store with e | ⟨b, store₁⟩
    · exact ⟨hlinked, fun _ _ ↦ rfl, fun h ↦ nomatch h⟩
    have hnew : ∀ entry ∈ facts, fact.identity ≠ entry.2.identity := fun entry hentry hsame ↦
      (List.nodup_cons.1 hready.identities).1
        (List.mem_map.2 ⟨entry.2, List.mem_map_of_mem hentry, hsame.symm⟩)
    rcases appendOpenAiCostRevision_eq_ok happend with ⟨hseen, rfl⟩ |
      ⟨hunseen, amount, openAiCosts, hamount, hinsert, rfl⟩
    · obtain ⟨hlinked', hothers, heach⟩ := ih hlinked hready.tail
      refine ⟨hlinked', fun identity hidentity ↦ ?_, fun hok entry hentry ↦ ?_⟩
      · exact hothers identity fun entry hentry ↦ hidentity entry (List.mem_cons_of_mem _ hentry)
      · rcases List.mem_cons.1 hentry with rfl | hentry
        · rw [hothers _ hnew]
          exact hready.seen fact List.mem_cons_self hseen
        · exact heach hok entry hentry
    · -- the new revision takes the place of what is in effect
      have hrows := Table.rows_insert hinsert
      rw [hready.unseen fact List.mem_cons_self hunseen] at hrows hinsert
      let revision := fact.revision revisionId ((openAiLog.effective store.openAiCosts.rows
        fact.identity).map (·.revisionId)) amount
      have hfresh : ∀ r ∈ store.openAiCosts.rows, openAiLog.id r ≠ openAiLog.id revision := by
        intro r hr hsame
        have hclash := Table.not_clash_of_insert hinsert hr
        exact of_decide_eq_false (Bool.or_eq_false_iff.1 hclash).1 hsame
      have hprior : openAiLog.prior revision =
        (openAiLog.effective store.openAiCosts.rows (openAiLog.key revision)).map openAiLog.id := rfl
      have heffective := RevisionLog.effective_append hlinked hfresh hprior
      have hother : ∀ fact' ∈ facts.map (·.2), openAiLog.effective
          (store.openAiCosts.rows ++ [revision]) fact'.identity =
            openAiLog.effective store.openAiCosts.rows fact'.identity := by
        intro fact' hfact'
        obtain ⟨entry, hentry, rfl⟩ := List.mem_map.1 hfact'
        exact (heffective entry.2.identity).trans (if_neg (hnew entry hentry).symm)
      have hlinked₁ := hlinked.append hfresh hprior
      have hready₁ := ReadyOpenAi.appended hready (r := revision) rfl hother
      rw [← hrows] at hlinked₁ hready₁
      obtain ⟨hlinked', hothers, heach⟩ := @ih { store with openAiCosts } hlinked₁ hready₁
      refine ⟨hlinked', fun identity hidentity ↦ ?_, fun hok entry hentry ↦ ?_⟩
      · rw [hothers identity fun entry hentry ↦ hidentity entry (List.mem_cons_of_mem _ hentry)]
        show openAiLog.effective openAiCosts.rows identity = _
        rw [hrows, heffective]
        exact if_neg (hidentity _ List.mem_cons_self)
      · rcases List.mem_cons.1 hentry with rfl | hentry
        · rw [hothers _ hnew]
          show ∃ r ∈ openAiLog.effective openAiCosts.rows _, _
          rw [hrows, heffective]
          exact ⟨revision, if_pos rfl, hamount⟩
        · exact heach hok entry hentry

/-- Anthropic's revisions stay as they are. -/
theorem appendOpenAiSnapshot_costs : (appendOpenAiSnapshot facts store).2.costs = store.costs := by
  induction facts generalizing store with
  | nil => rfl
  | cons entry facts ih =>
    obtain ⟨revisionId, fact⟩ := entry
    rw [appendOpenAiSnapshot]
    rcases happend : appendOpenAiCostRevision revisionId fact store with e | ⟨b, store₁⟩
    · rfl
    · refine ih.trans ?_
      rcases appendOpenAiCostRevision_eq_ok happend with ⟨-, rfl⟩ | ⟨-, _, _, -, -, rfl⟩
      · rfl
      · rfl

theorem reflectedOpenAi_of_ready (hlinked : openAiLog.Linked store.openAiCosts.rows)
    (hready : ReadyOpenAi store.openAiCosts.rows (facts.map (·.2)))
    (hok : (appendOpenAiSnapshot facts store).1 = .ok ()) :
    ReflectedOpenAi (appendOpenAiSnapshot facts store).2 (facts.map (·.2)) := by
  obtain ⟨hlinked', -, heach⟩ := appendOpenAiSnapshot_spec hlinked hready
  refine RevisionLog.reflects_of_effective hlinked' hready.identities fun fact hfact ↦ ?_
  obtain ⟨entry, hentry, rfl⟩ := List.mem_map.1 hfact
  obtain ⟨r, hr, hamount⟩ := heach hok entry hentry
  refine ⟨r, hr, ?_⟩
  rw [OpenAiCostFact.nanousd, hamount]

end OpenAi

inductive ProviderSnapshot
  | anthropic (source now start stop : String) (rows : List ProviderCostRow)
  | openAi (facts : List (String × OpenAiCostFact))

section Run

variable (sha256 : Sha256)

def ProviderSnapshot.commit (store : AccountingStore) : ProviderSnapshot → Bool × AccountingStore
  | anthropic source now start stop rows =>
    match commitComplete sha256 source now start stop rows store with
    | .ok (_, store') => (true, store')
    | .error _ => (false, store)
  | openAi facts =>
    match appendOpenAiSnapshot facts store with
    | (.ok _, store') => (true, store')
    | (.error _, store') => (false, store')

def ProviderSnapshot.IsReflected (store : AccountingStore) : ProviderSnapshot → Prop
  | anthropic source _ _ _ rows => Reflected sha256 source store rows
  | openAi facts => ReflectedOpenAi store (facts.map (·.2))

def ProviderSnapshot.IsReady (store : AccountingStore) : ProviderSnapshot → Prop
  | anthropic source _ _ _ rows => Ready sha256 source store.costs.rows rows
  | openAi facts => ReadyOpenAi store.openAiCosts.rows (facts.map (·.2))

def SnapshotsReflected (store : AccountingStore) : List ProviderSnapshot → Prop
  | [] => True
  | snapshot :: snapshots =>
    ((snapshot.commit sha256 store).1 = true →
      snapshot.IsReflected sha256 (snapshot.commit sha256 store).2) ∧
      SnapshotsReflected (snapshot.commit sha256 store).2 snapshots

def SnapshotsReady (store : AccountingStore) : List ProviderSnapshot → Prop
  | [] => True
  | snapshot :: snapshots => snapshot.IsReady sha256 store ∧
      SnapshotsReady (snapshot.commit sha256 store).2 snapshots

/-- The revisions of both providers are linked. -/
def AccountingStore.CostsLinked (store : AccountingStore) : Prop :=
  costLog.Linked store.costs.rows ∧ openAiLog.Linked store.openAiCosts.rows

variable {sha256} {store : AccountingStore}

/-- **One snapshot.** If it is ready it comes into effect, and the revisions stay linked. -/
theorem commit_of_ready {snapshot : ProviderSnapshot} (hlinked : store.CostsLinked)
    (hready : snapshot.IsReady sha256 store) :
    (snapshot.commit sha256 store).2.CostsLinked ∧ ((snapshot.commit sha256 store).1 = true →
      snapshot.IsReflected sha256 (snapshot.commit sha256 store).2) := by
  cases snapshot with
  | anthropic source now start stop rows =>
    rw [ProviderSnapshot.commit]
    split
    · rename_i n store' hcommit
      obtain ⟨hlinked', hreflected⟩ := reflected_of_ready hcommit hlinked.1 hready
      obtain ⟨_, _, -, rfl⟩ := commitComplete_eq_ok hcommit
      exact ⟨⟨hlinked', hlinked.2⟩, fun _ ↦ hreflected⟩
    · exact ⟨hlinked, nofun⟩
  | openAi facts =>
    obtain ⟨hlinked', -, -⟩ := appendOpenAiSnapshot_spec hlinked.2 hready
    have hreflected := reflectedOpenAi_of_ready hlinked.2 hready
    have hkept : (appendOpenAiSnapshot facts store).2.costs = store.costs := appendOpenAiSnapshot_costs
    rw [ProviderSnapshot.commit]
    rcases hrun : appendOpenAiSnapshot facts store with ⟨_ | _, store'⟩
    · rw [hrun] at hlinked' hkept
      exact ⟨⟨hkept ▸ hlinked.1, hlinked'⟩, nofun⟩
    · rw [hrun] at hlinked' hkept hreflected
      exact ⟨⟨hkept ▸ hlinked.1, hlinked'⟩, fun _ ↦ hreflected rfl⟩

theorem snapshotsReflected_of_linked {snapshots : List ProviderSnapshot} (hlinked : store.CostsLinked)
    (h : SnapshotsReady sha256 store snapshots) : SnapshotsReflected sha256 store snapshots := by
  induction snapshots generalizing store with
  | nil => trivial
  | cons snapshot snapshots ih =>
    obtain ⟨hlinked', hreflected⟩ := commit_of_ready hlinked h.1
    exact ⟨hreflected, ih hlinked' h.2⟩

/-- **Snapshots come into effect**, in every run from a store without revisions in which each of them is
ready when it is committed. -/
theorem snapshots_reflected (snapshots : List ProviderSnapshot) (hcosts : store.costs.rows = [])
    (hopenAi : store.openAiCosts.rows = []) (h : SnapshotsReady sha256 store snapshots) :
    SnapshotsReflected sha256 store snapshots := by
  refine snapshotsReflected_of_linked ⟨?_, ?_⟩ h
  · rw [hcosts]
    exact RevisionLog.linked_nil
  · rw [hopenAi]
    exact RevisionLog.linked_nil

end Run

namespace ReturnedAmount

def hexValue (c : Char) : ℕ :=
  if c.isDigit then c.toNat - '0'.toNat else c.toNat - 'a'.toNat + 10

/-- The digest that is written with the hexadecimal digits. -/
def digest (hex : String) : Vector UInt8 32 :=
  Vector.ofFn fun (i : Fin 32) ↦ UInt8.ofNat
    (16 * hexValue (hex.toList.getD (2 * i) '0') + hexValue (hex.toList.getD (2 * i + 1) '0'))

/-- The digests of the texts that are hashed here: three attempts, the identity of the row, and two
payloads with their revisions. A text is told by its length and the character at one place. -/
def digests : List (ℕ × ℕ × Char × String) :=
  [(71, 58, '1', "918d92603dfdbb7bb0b14d66bb97a8277032821edb46ce71cff096fef63662d9"),
    (71, 58, '2', "126b11c71dd9db7e12f3e67c7dd9d44fbe20e1c0cc49ccd2b54aa4f31653f2e0"),
    (71, 58, '3', "4eede266e95d8b78d1591c57b48387f2a3eac11fbc233e40b72e59bc00581f38"),
    (71, 58, '0', "7df344cca4b565b958a7c4a594634e0cb0bd831c992ea3c6025abcab34b31f5d"),
    (17, 11, '1', "ecd4beb07d489cdc999ba7c40e5d86d2e433e3c5248ab08cf368a85c93fb8040"),
    (68, 4, 'e', "26224a63a9850a2d14353757d35f5b4f680e4048c06216aba5d8f1fe309232be"),
    (17, 11, '2', "d8263d9c8977d06db6b7e4fe514c8339b739ea7c2d310a6bf96f639c661c8fe4"),
    (68, 4, 'd', "dfea6e67e91f35114aaeb84e00759c904d555c56e43f467d5aaf2e8b31c38450")]

def sha256 : Sha256 := fun text ↦
  match digests.find? fun entry ↦ entry.1 = text.length ∧ entry.2.2.1 = text.getD entry.2.1 ' ' with
  | some entry => digest entry.2.2.2
  | none => Vector.replicate 32 0

/-- What the provider charges for the one workspace and day. -/
def row (amount : String) : ProviderCostRow where
  bucketStart := "2026-08-01T00:00:00Z"
  bucketEnd := "2026-08-02T00:00:00Z"
  workspaceId := "wrk"
  description := "usage"
  chargeClass := "token-spend"
  currency := "USD"
  amountLexical := amount
  providerPayload := "\x7b\"amount\":\"" ++ amount ++ "\"\x7d"

def snapshot (now amount : String) : ProviderSnapshot :=
  .anthropic "org" now "2026-08-01T00:00:00Z" "2026-08-02T00:00:00Z" [row amount]

/-- The source is bound, and nothing has been collected. -/
def store : AccountingStore where
  sources := ⟨[⟨"org", "anthropic-organization", "org_1", "Org", "env: KEY", "2026-08-01"⟩],
    by simp [billingSourceSchema], List.pairwise_singleton _ _⟩
  attempts := .empty
  costs := .empty
  openAiSources := ["src"]
  openAiCosts := .empty
  projects := []
  bindings := .empty
  registry := []
  observations := .empty
  estimates := .empty
  corrections := .empty

def first : ProviderSnapshot :=
  snapshot "2026-08-02T01:00:00+00:00" "1.00"

/-- The provider corrects itself. -/
def second : ProviderSnapshot :=
  snapshot "2026-08-02T02:00:00+00:00" "2.00"

/-- And takes the correction back. -/
def third : ProviderSnapshot :=
  snapshot "2026-08-02T03:00:00+00:00" "1.00"

/-- The store when all three have been committed. -/
def returned : Bool × AccountingStore :=
  third.commit sha256 (second.commit sha256 (first.commit sha256 store).2).2

def fact (amount payloadHash collectedAt : String) : OpenAiCostFact :=
  ⟨"src", "org_1", none, 1, 2, "completions", "usage", amount, "usd", payloadHash, collectedAt⟩

end ReturnedAmount

theorem snapshots_reflected_correction :
    SnapshotsReflected ReturnedAmount.sha256 ReturnedAmount.store
      [ReturnedAmount.first, .openAi [("ocr_1", ReturnedAmount.fact "1.00" "h1" "t1")],
        .openAi [("ocr_2", ReturnedAmount.fact "2.00" "h2" "t2")]] := by
  refine snapshots_reflected _ rfl rfl ⟨?_, ?_, ?_, trivial⟩
  · exact ready_singleton
  · exact ⟨by decide +kernel, by decide +kernel, by decide +kernel⟩
  · exact ⟨by decide +kernel, by decide +kernel, by decide +kernel⟩

/-- **What comes back does not come into effect.** The provider corrects an amount and takes the
correction back. -/
theorem snapshots_not_reflected : ¬∀ (sha256 : Sha256) (store : AccountingStore)
    (snapshots : List ProviderSnapshot), store.costs.rows = [] → store.openAiCosts.rows = [] →
      SnapshotsReflected sha256 store snapshots := by
  intro h
  obtain ⟨-, -, hthird, -⟩ := h ReturnedAmount.sha256 ReturnedAmount.store
    [ReturnedAmount.first, ReturnedAmount.second, ReturnedAmount.third] rfl rfl
  have hreflected : ReturnedAmount.returned.1 = true →
      Reflected ReturnedAmount.sha256 "org" ReturnedAmount.returned.2 [ReturnedAmount.row "1.00"] :=
    hthird
  -- the third snapshot is complete, and what the second one said is still in effect
  have hcommitted : ReturnedAmount.returned.1 = true ∧
      costLog.projected (·.amountNanousd) ReturnedAmount.returned.2.costs.rows
        ("org", (ReturnedAmount.row "1.00").logicalIdentity ReturnedAmount.sha256 "org") ≠
          (ReturnedAmount.row "1.00").amount := by
    decide +kernel
  exact hcommitted.2 ((hreflected hcommitted.1).each (ReturnedAmount.row "1.00")
    (List.mem_singleton_self _))

end FamiliarAi
