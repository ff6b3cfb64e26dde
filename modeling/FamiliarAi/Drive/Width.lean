import FamiliarAi.Drive.Isolation
import FamiliarAi.Relational.Join
import Mathlib.Order.Bounds.Basic

/-!
# The width of a backlog

How many PRDs could run together is found by trying every one of them with and without, and giving
up where what is left cannot beat the best that was found. A claimed width is refused when it
exceeds that number.

We show that **the search finds the largest number of PRDs that are free of conflicts with each
other**, and that no batch that the drive selects among them is larger, since it asks the same
question about every pair.
-/

namespace FamiliarAi

open List

/-! ### The search -/

namespace AchievableWidth

variable {α : Type} (edge : α → α → Bool)

/-- `search`: the best number of all that can be picked beside what is picked, and of the best so
far. -/
def search : List α → List α → ℕ → ℕ
  | [], picked, best => max best picked.length
  | index :: rest, picked, best =>
    if picked.length + (rest.length + 1) ≤ best then best
    else
      let best :=
        if picked.all fun p ↦ !edge p index then search rest (picked ++ [index]) best else best
      search rest picked best

/-- No two are joined by an edge. -/
def Independent (l : List α) : Prop :=
  l.Pairwise fun a b ↦ edge a b = false

variable {edge}

theorem le_search (rest picked : List α) (best : ℕ) : best ≤ search edge rest picked best := by
  induction rest generalizing picked best with
  | nil => exact le_max_left _ _
  | cons index rest ih =>
    rw [search]
    split
    · exact le_rfl
    · refine le_trans ?_ (ih picked _)
      split
      · exact ih _ best
      · exact le_rfl

theorem search_eq {rest picked : List α} (best : ℕ) (hpicked : Independent edge picked) :
    search edge rest picked best = best ∨ ∃ found, found.Sublist rest ∧
      Independent edge (picked ++ found) ∧
      search edge rest picked best = picked.length + found.length := by
  induction rest generalizing picked best with
  | nil =>
    rw [search]
    rcases le_total picked.length best with h | h
    · exact .inl (max_eq_left h)
    · refine .inr ⟨[], List.Sublist.refl _, ?_, max_eq_right h⟩
      rwa [append_nil]
  | cons index rest ih =>
    rw [search]
    split
    · exact .inl rfl
    rcases ih _ hpicked with hbest | ⟨found, hsub, hfound, hlength⟩
    · rw [hbest]
      split
      · rename_i hfree
        have hpicked' : Independent edge (picked ++ [index]) := by
          refine pairwise_append.2 ⟨hpicked, pairwise_singleton _ _, ?_⟩
          intro p hp last hlast
          rw [mem_singleton.1 hlast]
          simpa using all_eq_true.1 hfree p hp
        rcases ih best hpicked' with hbest | ⟨found, hsub, hfound, hlength⟩
        · exact .inl hbest
        · rw [append_assoc] at hfound
          refine .inr ⟨index :: found, hsub.cons_cons index, hfound, hlength.trans ?_⟩
          rw [length_append, length_singleton, length_cons]
          omega
      · exact .inl rfl
    · exact .inr ⟨found, hsub.cons index, hfound, hlength⟩

theorem length_le_search {rest picked found : List α} (best : ℕ) (hsub : found.Sublist rest)
    (hfound : Independent edge (picked ++ found)) :
    picked.length + found.length ≤ search edge rest picked best := by
  induction rest generalizing picked found best with
  | nil =>
    rw [sublist_nil.1 hsub, length_nil, search]
    exact le_max_right _ _
  | cons index rest ih =>
    have hlength := hsub.length_le
    rw [length_cons] at hlength
    rw [search]
    split
    · omega
    · cases hsub with
      | cons _ hsub => exact ih _ hsub hfound
      | cons_cons _ hsub =>
        rename_i found
        have hfree : (picked.all fun p ↦ !edge p index) = true := by
          refine all_eq_true.2 fun p hp ↦ ?_
          rw [(pairwise_append.1 hfound).2.2 p hp index mem_cons_self]
          rfl
        rw [if_pos hfree]
        refine le_trans ?_ (le_search rest picked _)
        have hrest : Independent edge ((picked ++ [index]) ++ found) := by
          rwa [append_assoc]
        have hle := ih best hsub hrest
        rw [length_append, length_singleton] at hle
        rw [length_cons]
        omega

variable (edge) in
/-- **The search finds the size of a largest independent list.** -/
theorem isGreatest_search (l : List α) :
    IsGreatest {n | ∃ found, found.Sublist l ∧ Independent edge found ∧ found.length = n}
      (search edge l [] 0) := by
  constructor
  · have hnil : Independent edge [] := List.Pairwise.nil
    rcases search_eq 0 hnil with hzero | ⟨found, hsub, hfound, hlength⟩
    · exact ⟨[], nil_sublist l, hnil, hzero.symm⟩
    · exact ⟨found, hsub, hfound, by rw [hlength, length_nil, Nat.zero_add]⟩
  · rintro _ ⟨found, hsub, hfound, rfl⟩
    have hpicked : Independent edge ([] ++ found) := hfound
    have hle := length_le_search 0 hsub hpicked
    rwa [length_nil, Nat.zero_add] at hle

end AchievableWidth

/-! ### Conflicts -/

abbrev ScopedPrd := DiscoveredPrd × List ScopeEntry

/-- Why two PRDs cannot run together: an overlap of their scopes, or else a resource of both. -/
def conflictReason (prd prd' : ScopedPrd) : Option String :=
  ((scopeOverlap prd.2 prd'.2).map fun pair ↦
      "scope '" ++ pair.1 ++ "' overlaps '" ++ pair.2 ++ "'").or
    ((prd.1.metadata.resources.find? prd'.1.metadata.resources.contains).map fun resource ↦
      "resource '" ++ resource ++ "'")

def conflictPairs : List ScopedPrd → List (PrdId × PrdId × String)
  | [] => []
  | prd :: prds =>
    (prds.filterMap fun prd' ↦
      (conflictReason prd prd').map fun reason ↦ (prd.1.id, prd'.1.id, reason)) ++
        conflictPairs prds

structure WidthReport where
  graphWidth : ℕ
  achievableWidth : ℕ
  conflicts : List (PrdId × PrdId × String)

section Width

variable (readFile : RepositoryPath → Except String String) {ctx : SelectionContext}

/-- `achievable_width`. The search asks for the edge from an earlier PRD to a later one only, which
is the pair that the conflicts are about. -/
def achievableWidth (prds : List DiscoveredPrd) : Except String WidthReport := do
  let items ← prds.mapM fun prd ↦ match prdScope readFile prd with
    | .ok scope => .ok (prd, scope)
    | .error error => .error (prd.id.display ++ " (" ++ prd.path.text ++ "): " ++ error)
  pure ⟨prds.length,
    AchievableWidth.search (fun prd prd' ↦ (conflictReason prd prd').isSome) items [] 0,
    conflictPairs items⟩

def validateClaimedWidth (prds : List DiscoveredPrd) (claimed : ℕ) :
    Except String WidthReport := do
  let report ← achievableWidth readFile prds
  if report.achievableWidth < claimed then
    .error ("claimed width " ++ toString claimed ++ " exceeds achievable width " ++
      toString report.achievableWidth ++ ": " ++
      ", ".intercalate (report.conflicts.map fun (a, b, reason) ↦
        a.display ++ "<->" ++ b.display ++ ": " ++ reason))
  else pure report

def ScopesFree (left right : List ScopeEntry) : Prop :=
  ∀ a ∈ left, ∀ b ∈ right, a.1 ≠ migrationsDirectory → b.1 ≠ migrationsDirectory →
    ¬ScopeEntriesOverlap a b

/-- Two PRDs are free of conflicts: their scopes do not overlap, and they share no resource. -/
def ConflictFree (prd prd' : DiscoveredPrd) : Prop :=
  (∀ scope scope', prdScope readFile prd = .ok scope → prdScope readFile prd' = .ok scope' →
    ScopesFree scope scope') ∧
  ∀ resource ∈ prd.metadata.resources, resource ∉ prd'.metadata.resources

variable {readFile}

theorem scopeEntriesOverlap_comm {a b : ScopeEntry} :
    ScopeEntriesOverlap a b ↔ ScopeEntriesOverlap b a := by
  obtain ⟨left, _ | _⟩ := a <;> obtain ⟨right, _ | _⟩ := b
  · exact eq_comm
  · exact Iff.rfl
  · exact Iff.rfl
  · exact or_comm

theorem ConflictFree.symm {prd prd' : DiscoveredPrd} (h : ConflictFree readFile prd prd') :
    ConflictFree readFile prd' prd :=
  ⟨fun scope' scope hscope' hscope b hb a ha hb' ha' hoverlap ↦
    h.1 scope scope' hscope hscope' a ha b hb ha' hb' (scopeEntriesOverlap_comm.1 hoverlap),
    fun resource hresource' hresource ↦ h.2 resource hresource hresource'⟩

theorem scopeOverlap_eq_none_iff {left right : List ScopeEntry} :
    scopeOverlap left right = none ↔ ScopesFree left right := by
  rw [scopeOverlap, findSome?_eq_none_iff]
  refine forall₂_congr fun a ha ↦ ?_
  by_cases hexempt : a.1 = migrationsDirectory
  · rw [if_pos hexempt]
    exact iff_of_true rfl fun b _ ha' ↦ absurd hexempt ha'
  · rw [if_neg hexempt, Option.map_eq_none_iff, find?_eq_none]
    simp [hexempt]

theorem find?_resources_eq_none_iff {resources resources' : List String} :
    resources.find? resources'.contains = none ↔ ∀ resource ∈ resources, resource ∉ resources' := by
  rw [find?_eq_none]
  simp only [contains_iff_mem]

theorem isSome_conflictReason {prd prd' : ScopedPrd}
    (hscope : prdScope readFile prd.1 = .ok prd.2)
    (hscope' : prdScope readFile prd'.1 = .ok prd'.2) :
    (conflictReason prd prd').isSome = false ↔ ConflictFree readFile prd.1 prd'.1 := by
  rw [Option.isSome_eq_false_iff, Option.isNone_iff_eq_none, conflictReason, Option.or_eq_none_iff,
    Option.map_eq_none_iff, Option.map_eq_none_iff, scopeOverlap_eq_none_iff,
    find?_resources_eq_none_iff]
  refine and_congr_left' ⟨fun h scope scope' hs hs' ↦ ?_, fun h ↦ h _ _ hscope hscope'⟩
  rwa [Except.ok.inj (hs.symm.trans hscope), Except.ok.inj (hs'.symm.trans hscope')]

theorem exists_items {prds : List DiscoveredPrd}
    (h : ∀ prd ∈ prds, ∃ scope, prdScope readFile prd = .ok scope) :
    ∃ items : List ScopedPrd, items.map Prod.fst = prds ∧
      (∀ item ∈ items, prdScope readFile item.1 = .ok item.2) ∧
      achievableWidth readFile prds = .ok ⟨prds.length,
        AchievableWidth.search (fun prd prd' ↦ (conflictReason prd prd').isSome) items [] 0,
        conflictPairs items⟩ := by
  let resolve (prd : DiscoveredPrd) : Except String ScopedPrd := match prdScope readFile prd with
    | .ok scope => .ok (prd, scope)
    | .error error => .error (prd.id.display ++ " (" ++ prd.path.text ++ "): " ++ error)
  have hresolve {prd : DiscoveredPrd} {item : ScopedPrd} (hitem : resolve prd = .ok item) :
      item.1 = prd ∧ prdScope readFile item.1 = .ok item.2 := by
    unfold resolve at hitem
    split at hitem
    · rename_i scope hscope
      rw [← Except.ok.inj hitem]
      exact ⟨rfl, hscope⟩
    · cases hitem
  obtain ⟨items, hitems⟩ : ∃ items, prds.mapM resolve = .ok items := by
    refine Except.exists_mapM_eq_ok.2 fun prd hprd ↦ ?_
    obtain ⟨scope, hscope⟩ := h prd hprd
    exact ⟨(prd, scope), by simp only [resolve, hscope]⟩
  have hall := Relational.forall₂_of_mapM hitems
  refine ⟨items, ?_, fun item hitem ↦ ?_, ?_⟩
  · clear hitems h
    induction hall with
    | nil => rfl
    | cons hitem _ ih => rw [map_cons, (hresolve hitem).1, ih]
  · obtain ⟨prd, -, hread⟩ := Relational.exists_of_mem_mapM hitems hitem
    exact (hresolve hread).2
  · show (prds.mapM resolve >>= _) = _
    rw [hitems]
    rfl

/-! ### The batch -/

theorem Batch.Sound.conflictFree {entries rest : List BacklogEntry} {batch : Batch}
    (h : batch.Sound ctx entries) (hfree : batch.selected.Pairwise (ConflictFree ctx.readFile))
    (hrest : ∀ entry ∈ rest, entry ∈ entries) :
    (rest.foldl (Batch.consider ctx entries) batch).selected.Pairwise
        (ConflictFree ctx.readFile) ∧
      (rest.foldl (Batch.consider ctx entries) batch).selected.Sublist
        (batch.selected ++ rest.map (·.prd)) := by
  induction rest generalizing batch with
  | nil => exact ⟨hfree, by rw [map_nil, append_nil]; exact List.Sublist.refl _⟩
  | cons entry rest ih =>
    have hentry := hrest entry mem_cons_self
    have hlater : ∀ e ∈ rest, e ∈ entries := fun e he ↦ hrest e (mem_cons_of_mem _ he)
    have hsound := h.consider hentry
    rcases Batch.consider_cases ctx batch hentry with
      ⟨hselected, -, -⟩ | ⟨scope, -, hscope, hresource, hoverlap, -, heq⟩
    · obtain ⟨hpairwise, hsub⟩ := ih hsound (hselected ▸ hfree) hlater
      rw [hselected] at hsub
      exact ⟨hpairwise, hsub.trans ((List.Sublist.refl _).append (sublist_cons_self _ _))⟩
    · have hselected : (batch.consider ctx entries entry).selected =
          batch.selected ++ [entry.prd] := by
        rw [heq]
        rfl
      have hnew : (batch.selected ++ [entry.prd]).Pairwise (ConflictFree ctx.readFile) := by
        refine pairwise_append.2 ⟨hfree, pairwise_singleton _ _, ?_⟩
        intro prd hprd last hlast
        rw [mem_singleton.1 hlast]
        refine ConflictFree.symm ⟨fun s s' hs hs' ↦ ?_, ?_⟩
        · rw [Except.ok.inj (hs.symm.trans hscope), ← scopeOverlap_eq_none_iff]
          exact Option.map_eq_none_iff.1 (findSome?_eq_none_iff.1 hoverlap _
            (h.selectedScopes prd hprd s' hs'))
        · rw [← find?_resources_eq_none_iff]
          exact Option.map_eq_none_iff.1 (findSome?_eq_none_iff.1 hresource _
            (h.selectedResources prd hprd))
      obtain ⟨hpairwise, hsub⟩ := ih hsound (hselected ▸ hnew) hlater
      rw [hselected, append_assoc] at hsub
      exact ⟨hpairwise, hsub⟩

theorem conflictFree_of_selectBatch {discovered : List DiscoveredPrd} {entries : List BacklogEntry}
    {selection : Selection}
    (h : (selectBatchWithForeign ctx discovered (.ok entries)).1 = .ok selection) :
    selection.prds.Pairwise (ConflictFree ctx.readFile) ∧
      selection.prds.Subperm (entries.map (·.prd)) := by
  have hnil : ([] : List DiscoveredPrd).Pairwise (ConflictFree ctx.readFile) ∧
      ([] : List DiscoveredPrd).Subperm (entries.map (·.prd)) :=
    ⟨.nil, nil_subperm⟩
  unfold selectBatchWithForeign at h
  split at h
  · rw [← Except.ok.inj h]
    exact hnil
  · rw [← Except.ok.inj h]
    split
    · exact hnil
    · have hstart : (Batch.start ctx).Sound ctx (entries.insertionSort EntryBefore) :=
        Batch.sound_start
      obtain ⟨hfree, hsub⟩ := hstart.conflictFree .nil fun _ he ↦ he
      refine ⟨hfree, hsub.subperm.trans (List.Perm.subperm ?_)⟩
      exact (perm_insertionSort EntryBefore entries).map _

variable (readFile)

/-- The sizes of the lists of PRDs that could run together. -/
def achievable (prds : List DiscoveredPrd) : Set ℕ :=
  {n | ∃ picked : List DiscoveredPrd, picked.Sublist prds ∧
    picked.Pairwise (ConflictFree readFile) ∧ picked.length = n}

/-- **The width of a backlog.** Where every scope can be resolved, the width that is reported is the
largest number of PRDs that are free of conflicts with each other; a claim is accepted when it does
not exceed it; and no batch that is selected among the PRDs does. -/
theorem achievableWidth_isGreatest (prds : List DiscoveredPrd)
    (hscopes : ∀ prd ∈ prds, ∃ scope, prdScope readFile prd = .ok scope) :
    ∃ report, achievableWidth readFile prds = .ok report ∧
      IsGreatest (achievable readFile prds) report.achievableWidth ∧
      (∀ claimed, (∃ accepted, validateClaimedWidth readFile prds claimed = .ok accepted) ↔
        claimed ≤ report.achievableWidth) ∧
      ∀ (ctx : SelectionContext) (discovered : List DiscoveredPrd) (entries : List BacklogEntry)
        (selection : Selection), ctx.readFile = readFile →
        (entries.map (·.prd)).Subperm prds →
        (selectBatchWithForeign ctx discovered (.ok entries)).1 = .ok selection →
        selection.prds.length ≤ report.achievableWidth := by
  obtain ⟨items, hprds, hitems, hreport⟩ := exists_items hscopes
  let edge (prd prd' : ScopedPrd) : Bool := (conflictReason prd prd').isSome
  have hfree {found : List ScopedPrd} (hsub : found.Sublist items) :
      AchievableWidth.Independent edge found ↔
        (found.map Prod.fst).Pairwise (ConflictFree readFile) := by
    rw [pairwise_map]
    refine List.Pairwise.iff_of_mem fun ha hb ↦ ?_
    exact isSome_conflictReason (hitems _ (hsub.subset ha)) (hitems _ (hsub.subset hb))
  have hgreatest :
      IsGreatest (achievable readFile prds) (AchievableWidth.search edge items [] 0) := by
    obtain ⟨⟨found, hsub, hfound, hlength⟩, hbound⟩ := AchievableWidth.isGreatest_search edge items
    refine ⟨⟨found.map Prod.fst, hprds ▸ hsub.map _, (hfree hsub).1 hfound, ?_⟩, ?_⟩
    · rw [length_map, hlength]
    · rintro _ ⟨picked, hsub, hpicked, rfl⟩
      rw [← hprds] at hsub
      obtain ⟨found, hfound, rfl⟩ := sublist_map_iff.1 hsub
      exact hbound ⟨found, hfound, (hfree hfound).2 hpicked, (length_map _).symm⟩
  refine ⟨_, hreport, hgreatest, fun claimed ↦ ?_, ?_⟩
  · rw [validateClaimedWidth, hreport, Except.ok_bind]
    split
    · rename_i hlt
      exact iff_of_false nofun hlt.not_ge
    · rename_i hge
      exact iff_of_true ⟨_, rfl⟩ (not_lt.1 hge)
  · rintro ctx discovered entries selection rfl hentries hselection
    obtain ⟨hselected, hsubperm⟩ := conflictFree_of_selectBatch hselection
    obtain ⟨picked, hperm, hsub⟩ := hsubperm.trans hentries
    have hpicked := (hperm.pairwise_iff fun h ↦ h.symm).2 hselected
    exact hperm.length_eq ▸ hgreatest.2 ⟨picked, hsub, hpicked, rfl⟩

end Width

namespace SharedFile

def prd (number : ℕ) (file : String) : DiscoveredPrd where
  id := ⟨number, none, .canonical⟩
  number := number
  path := ⟨"prd.md", by decide⟩
  location := .active
  dependencies := []
  metadata := { contractVersion := some 1, expectedFiles := [file] }
  contentHash := ""

end SharedFile

theorem achievableWidth_isGreatest_sharedFile :
    ∃ report, achievableWidth (fun _ ↦ .error "") [SharedFile.prd 1 "a", SharedFile.prd 2 "a",
        SharedFile.prd 3 "b"] = .ok report ∧ report.achievableWidth = 2 := by
  have hscopes : ∀ prd ∈ [SharedFile.prd 1 "a", SharedFile.prd 2 "a", SharedFile.prd 3 "b"],
      ∃ scope, prdScope (fun _ ↦ .error "") prd = .ok scope := by
    refine forall_mem_cons.2 ⟨⟨[("a", .exactFile)], by decide⟩, ?_⟩
    refine forall_mem_cons.2 ⟨⟨[("a", .exactFile)], by decide⟩, ?_⟩
    exact forall_mem_singleton.2 ⟨[("b", .exactFile)], by decide⟩
  obtain ⟨report, hreport, -⟩ := achievableWidth_isGreatest _ _ hscopes
  have hwidth : (achievableWidth (fun _ ↦ .error "") [SharedFile.prd 1 "a", SharedFile.prd 2 "a",
      SharedFile.prd 3 "b"]).map (·.achievableWidth) = .ok 2 := by decide +kernel
  rw [hreport] at hwidth
  exact ⟨report, hreport, Except.ok.inj hwidth⟩

end FamiliarAi
