import FamiliarAi.Drive.Selection

/-!
# What a selected batch may rely on

Every selected PRD was ready, and no two writers of a batch, nor a writer and a worker in flight, can
be authorised to write the same path. The overlap test that isolates them coincides with the matcher
that authorises their writes later (`scopeEntriesOverlap_of_matches`); the one directory it exempts is
the one whose files are numbered at integration.
-/

namespace FamiliarAi

open Text List

variable {ctx : SelectionContext} {entries : List BacklogEntry} {batch : Batch}
  {entry : BacklogEntry} {prd : DiscoveredPrd} {scope scope' : List ScopeEntry} {path : String}
  {discovered : List DiscoveredPrd} {selection : Selection}

def Authorises (scope : List ScopeEntry) (path : String) : Prop :=
  ∃ entry : ExpectedFileEntry, (entry.normalized, entry.matchKind) ∈ scope ∧ entry.Matches path

theorem ExpectedFileEntry.Matches.startsWith {entry : ExpectedFileEntry}
    (h : entry.Matches path) : StartsWith path entry.normalized := by
  unfold ExpectedFileEntry.Matches at h
  split at h
  · rw [h]
    exact prefix_refl _
  · exact h.1

theorem scopeEntriesOverlap_of_matches {left right : ExpectedFileEntry} (h : left.Matches path)
    (h' : right.Matches path) :
    ScopeEntriesOverlap (left.normalized, left.matchKind) (right.normalized, right.matchKind) := by
  have hleft := h.startsWith
  have hright := h'.startsWith
  unfold ExpectedFileEntry.Matches at h h'
  cases hkind : left.matchKind with
  | exactFile =>
    rw [hkind] at h
    obtain rfl : path = left.normalized := h
    cases hkind' : right.matchKind with
    | exactFile =>
      rw [hkind'] at h'
      exact h'
    | directory => exact hright
  | directory =>
    cases hkind' : right.matchKind with
    | exactFile =>
      rw [hkind'] at h'
      obtain rfl : path = right.normalized := h'
      exact hleft
    | directory => exact startsWith_or_startsWith hleft hright

theorem startsWith_of_scopeOverlap_none (h : scopeOverlap scope scope' = none)
    (hpath : Authorises scope path) (hpath' : Authorises scope' path) :
    StartsWith path migrationsDirectory := by
  obtain ⟨left, hleft, hmatches⟩ := hpath
  obtain ⟨right, hright, hmatches'⟩ := hpath'
  by_cases hexempt : left.normalized = migrationsDirectory
  · exact hexempt ▸ hmatches.startsWith
  by_cases hexempt' : right.normalized = migrationsDirectory
  · exact hexempt' ▸ hmatches'.startsWith
  have hnone := findSome?_eq_none_iff.1 h _ hleft
  rw [if_neg hexempt, Option.map_eq_none_iff, find?_eq_none] at hnone
  have hoverlap := scopeEntriesOverlap_of_matches hmatches hmatches'
  exact absurd (by simp [hexempt', hoverlap]) (hnone _ hright)

/-- Two writers may run together: they share no resource, and no path outside the exempted directory
is authorised to both. -/
structure Apart (scope scope' : List ScopeEntry) (resources resources' : List String) : Prop where
  resources : ∀ resource ∈ resources, resource ∉ resources'
  paths : ∀ path, Authorises scope path → Authorises scope' path →
    StartsWith path migrationsDirectory

/-- Two PRDs may run together. -/
def PrdsApart (readFile : RepositoryPath → Except String String) (prd prd' : DiscoveredPrd) : Prop :=
  ∀ scope scope', prdScope readFile prd = .ok scope → prdScope readFile prd' = .ok scope' →
    Apart scope scope' prd.metadata.resources prd'.metadata.resources

/-- A PRD may run next to a worker in flight. -/
def ApartFromHold (readFile : RepositoryPath → Except String String) (prd : DiscoveredPrd)
    (hold : ActiveHold) : Prop :=
  ∀ scope, prdScope readFile prd = .ok scope →
    Apart scope hold.scope prd.metadata.resources hold.resources

/-- The PRD was ready in the snapshot, and nothing holds it back. -/
structure Admissible (ctx : SelectionContext) (entries : List BacklogEntry) (prd : DiscoveredPrd) :
    Prop where
  pending : ∃ entry ∈ entries, entry.prd = prd ∧ entry.status = .pending
  dependencies : ∀ id ∈ prd.dependencies, statusOf entries id = some .completed
  notAttempted : ctx.attempted.contains prd.id = false
  notHeld : frontMatterHold prd = none
  notClaimed : ctx.foreign.claimed.lookup prd.id.display = none
  notArchived : ctx.foreign.archivedFiles.contains prd.path.fileName = false
  allowed : ∀ allowlist ∈ ctx.allowlist, allowlist.contains prd.id = true
  scopeResolved : ∃ scope, prdScope ctx.readFile prd = .ok scope

/-- The PRD could be selected by itself: it is admissible, and overlaps no worker in flight. -/
structure Selectable (ctx : SelectionContext) (entries : List BacklogEntry) (prd : DiscoveredPrd) :
    Prop where
  admissible : Admissible ctx entries prd
  resources : (Batch.start ctx).heldResource prd = none
  scope : ∀ scope, prdScope ctx.readFile prd = .ok scope → (Batch.start ctx).heldScope scope = none

theorem Batch.consider_cases (ctx : SelectionContext) (batch : Batch) (hentry : entry ∈ entries) :
    ((batch.consider ctx entries entry).selected = batch.selected ∧
        (batch.consider ctx entries entry).scopes = batch.scopes ∧
        (batch.consider ctx entries entry).resources = batch.resources) ∨
      ∃ scope, Admissible ctx entries entry.prd ∧ prdScope ctx.readFile entry.prd = .ok scope ∧
        batch.heldResource entry.prd = none ∧ batch.heldScope scope = none ∧
        batch.selected.length < max ctx.limit 1 ∧
        batch.consider ctx entries entry = batch.select entry.prd scope := by
  fun_cases batch.consider ctx entries entry with
  | case12 _ hattempted hhold hclaimed harchived _ hready hallowed hwidth hresource scope hscope
      hoverlap =>
    obtain ⟨hpending, hunmet⟩ := not_or.1 hready
    refine .inr ⟨scope, ⟨?_, ?_, ?_, hhold, hclaimed, ?_, ?_, scope, hscope⟩, hscope, hresource,
      hoverlap, by omega, rfl⟩
    · exact ⟨entry, hentry, rfl, not_not.1 hpending⟩
    · intro id hid
      have hmet := filter_eq_nil_iff.1 (not_not.1 hunmet) id hid
      simpa using hmet
    · simpa using hattempted
    · simpa using harchived
    · intro allowlist hallowlist
      rw [Option.mem_def.1 hallowlist] at hallowed
      simpa using hallowed
  | _ => exact .inl ⟨rfl, rfl, rfl⟩

/-! ### The pass -/

/-- **The invariant of the pass.** What is selected is within the width, selectable by itself and
apart from all else that runs, and everything selected or in flight is recorded as held. -/
structure Batch.Sound (ctx : SelectionContext) (entries : List BacklogEntry) (batch : Batch) :
    Prop where
  width : batch.selected.length ≤ max ctx.limit 1
  selectable : ∀ prd ∈ batch.selected, Selectable ctx entries prd
  apart : batch.selected.Pairwise (PrdsApart ctx.readFile)
  apartFromHolds : ∀ prd ∈ batch.selected, ∀ hold ∈ ctx.activeHolds,
    ApartFromHold ctx.readFile prd hold
  selectedScopes : ∀ prd ∈ batch.selected, ∀ scope, prdScope ctx.readFile prd = .ok scope →
    (prd.id, scope) ∈ batch.scopes
  selectedResources : ∀ prd ∈ batch.selected, (prd.id, prd.metadata.resources) ∈ batch.resources
  holdScopes : ∀ hold ∈ ctx.activeHolds, (hold.id, hold.scope) ∈ batch.scopes
  holdResources : ∀ hold ∈ ctx.activeHolds, (hold.id, hold.resources) ∈ batch.resources

theorem Batch.apart_of_held {id id' : PrdId} {scope' : List ScopeEntry} {resources' : List String}
    (hresource : batch.heldResource prd = none) (hoverlap : batch.heldScope scope = none)
    (hscope' : (id, scope') ∈ batch.scopes) (hresources' : (id', resources') ∈ batch.resources) :
    Apart scope scope' prd.metadata.resources resources' := by
  refine ⟨fun resource hresource' hheld ↦ ?_, fun path ↦ ?_⟩
  · have hnone := findSome?_eq_none_iff.1 hresource _ hresources'
    rw [Option.map_eq_none_iff, find?_eq_none] at hnone
    exact hnone resource hresource' (by simpa using hheld)
  · have hnone := findSome?_eq_none_iff.1 hoverlap _ hscope'
    exact startsWith_of_scopeOverlap_none (Option.map_eq_none_iff.1 hnone)

theorem Batch.Sound.selectable_of_held (h : batch.Sound ctx entries)
    (hadmissible : Admissible ctx entries prd) (hscope : prdScope ctx.readFile prd = .ok scope)
    (hresource : batch.heldResource prd = none) (hoverlap : batch.heldScope scope = none) :
    Selectable ctx entries prd := by
  refine ⟨hadmissible, findSome?_eq_none_iff.2 fun held hheld ↦ ?_, fun s hs ↦ ?_⟩
  · obtain ⟨hold, hhold, rfl⟩ := List.mem_map.1 hheld
    exact findSome?_eq_none_iff.1 hresource _ (h.holdResources hold hhold)
  · obtain rfl : s = scope := Except.ok.inj (hs.symm.trans hscope)
    refine findSome?_eq_none_iff.2 fun held hheld ↦ ?_
    obtain ⟨hold, hhold, rfl⟩ := List.mem_map.1 hheld
    exact findSome?_eq_none_iff.1 hoverlap _ (h.holdScopes hold hhold)

theorem Apart.symm {resources resources' : List String}
    (h : Apart scope scope' resources resources') : Apart scope' scope resources' resources :=
  ⟨fun resource hresource hheld ↦ h.resources resource hheld hresource,
    fun path hpath hpath' ↦ h.paths path hpath' hpath⟩

theorem Batch.Sound.consider (h : batch.Sound ctx entries) (hentry : entry ∈ entries) :
    (batch.consider ctx entries entry).Sound ctx entries := by
  rcases Batch.consider_cases ctx batch hentry with
    ⟨hselected, hscopes, hresources⟩ | ⟨scope, hadmissible, hscope, hresource, hoverlap, hwidth, heq⟩
  · constructor
    · rw [hselected]
      exact h.width
    · rw [hselected]
      exact h.selectable
    · rw [hselected]
      exact h.apart
    · rw [hselected]
      exact h.apartFromHolds
    · rw [hselected, hscopes]
      exact h.selectedScopes
    · rw [hselected, hresources]
      exact h.selectedResources
    · rw [hscopes]
      exact h.holdScopes
    · rw [hresources]
      exact h.holdResources
  · rw [heq]
    have hsame : ∀ {s}, prdScope ctx.readFile entry.prd = .ok s → s = scope := by
      intro s hs
      exact Except.ok.inj (hs.symm.trans hscope)
    refine ⟨?_, fun prd hprd ↦ ?_, ?_, fun prd hprd hold hhold ↦ ?_, fun prd hprd s hs ↦ ?_,
      fun prd hprd ↦ ?_, fun hold hhold ↦ mem_append_left _ (h.holdScopes hold hhold),
      fun hold hhold ↦ mem_append_left _ (h.holdResources hold hhold)⟩
    · show (batch.selected ++ [entry.prd]).length ≤ max ctx.limit 1
      rw [length_append, length_singleton]
      omega
    · rcases mem_append.1 hprd with hprd | hprd
      · exact h.selectable prd hprd
      · rw [mem_singleton.1 hprd]
        exact h.selectable_of_held hadmissible hscope hresource hoverlap
    · refine pairwise_append.2 ⟨h.apart, pairwise_singleton _ _, fun prd hprd new hnew ↦ ?_⟩
      obtain rfl := mem_singleton.1 hnew
      intro s s' hs hs'
      rw [hsame hs']
      exact (Batch.apart_of_held hresource hoverlap (h.selectedScopes prd hprd s hs)
        (h.selectedResources prd hprd)).symm
    · rcases mem_append.1 hprd with hprd | hprd
      · exact h.apartFromHolds prd hprd hold hhold
      · obtain rfl := mem_singleton.1 hprd
        intro s hs
        rw [hsame hs]
        exact Batch.apart_of_held hresource hoverlap (h.holdScopes hold hhold)
          (h.holdResources hold hhold)
    · rcases mem_append.1 hprd with hprd | hprd
      · exact mem_append_left _ (h.selectedScopes prd hprd s hs)
      · obtain rfl := mem_singleton.1 hprd
        rw [hsame hs]
        exact mem_append_right _ (mem_singleton.2 rfl)
    · rcases mem_append.1 hprd with hprd | hprd
      · exact mem_append_left _ (h.selectedResources prd hprd)
      · obtain rfl := mem_singleton.1 hprd
        exact mem_append_right _ (mem_singleton.2 rfl)

theorem Batch.sound_start : (Batch.start ctx).Sound ctx entries where
  width := Nat.zero_le _
  selectable _ h := by cases h
  apart := List.Pairwise.nil
  apartFromHolds _ h := by cases h
  selectedScopes _ h := by cases h
  selectedResources _ h := by cases h
  holdScopes hold hhold := List.mem_map.2 ⟨hold, hhold, rfl⟩
  holdResources hold hhold := List.mem_map.2 ⟨hold, hhold, rfl⟩

theorem Batch.Sound.foldl (h : batch.Sound ctx entries) (rest : List BacklogEntry)
    (hrest : ∀ entry ∈ rest, entry ∈ entries) :
    (rest.foldl (Batch.consider ctx entries) batch).Sound ctx entries := by
  induction rest generalizing batch with
  | nil => exact h
  | cons entry rest ih =>
    exact ih (h.consider (hrest entry mem_cons_self)) fun e he ↦
      hrest e (mem_cons_of_mem _ he)

theorem selectBatch_sound
    (h : (selectBatchWithForeign ctx discovered (.ok entries)).1 = .ok selection) :
    selection.prds = [] ∨ ∃ batch : Batch,
      batch.Sound ctx (entries.insertionSort EntryBefore) ∧ selection.prds = batch.selected := by
  unfold selectBatchWithForeign at h
  split at h
  · rw [← Except.ok.inj h]
    exact .inl rfl
  · rw [← Except.ok.inj h]
    split
    · exact .inl rfl
    · exact .inr ⟨_, Batch.sound_start.foldl _ fun _ hentry ↦ hentry, rfl⟩

theorem selectBatch_selectable {snapshot : Except String (List BacklogEntry)}
    (h : (selectBatchWithForeign ctx discovered snapshot).1 = .ok selection) :
    selection.prds.length ≤ max ctx.limit 1 ∧ ∀ prd ∈ selection.prds, ∃ entries,
      snapshot = .ok entries ∧ Selectable ctx (entries.insertionSort EntryBefore) prd := by
  have hnone : selection.prds = [] → selection.prds.length ≤ max ctx.limit 1 ∧
      ∀ prd ∈ selection.prds, ∃ entries, snapshot = .ok entries ∧
        Selectable ctx (entries.insertionSort EntryBefore) prd := by
    intro hnil
    rw [hnil]
    exact ⟨Nat.zero_le _, fun _ hprd ↦ absurd hprd not_mem_nil⟩
  rcases snapshot with message | entries
  · unfold selectBatchWithForeign at h
    split at h
    · exact hnone (by rw [← Except.ok.inj h]; rfl)
    · cases h
  rcases selectBatch_sound h with hnil | ⟨batch, hsound, hselected⟩
  · exact hnone hnil
  · rw [hselected]
    exact ⟨hsound.width, fun prd hprd ↦ ⟨entries, rfl, hsound.selectable prd hprd⟩⟩

/-- **A selected batch is isolated.** Every selected PRD is pending in the snapshot with completed
dependencies, and attempted, held back, claimed, archived or excluded by nothing; and any two of them,
and any of them and any worker in flight, are apart. -/
theorem selectBatch_isolated (ctx : SelectionContext) (discovered : List DiscoveredPrd)
    (entries : List BacklogEntry) (selection : Selection)
    (h : (selectBatchWithForeign ctx discovered (.ok entries)).1 = .ok selection) :
    (∀ prd ∈ selection.prds,
        Admissible ctx (entries.insertionSort EntryBefore) prd ∧
          (∃ entry ∈ entries, entry.prd = prd ∧ entry.status = .pending) ∧
          ∀ id ∈ prd.dependencies, ∃ entry ∈ entries,
            (entry.prd.id == id) = true ∧ entry.status = .completed) ∧
      selection.prds.Pairwise (PrdsApart ctx.readFile) ∧
      ∀ prd ∈ selection.prds, ∀ hold ∈ ctx.activeHolds, ApartFromHold ctx.readFile prd hold := by
  have hmem : ∀ entry ∈ entries.insertionSort EntryBefore, entry ∈ entries :=
    fun entry hentry ↦ (mem_insertionSort _).1 hentry
  rcases selectBatch_sound h with hnil | ⟨batch, hsound, hselected⟩
  · rw [hnil]
    exact ⟨fun _ hprd ↦ absurd hprd not_mem_nil, List.Pairwise.nil,
      fun _ hprd ↦ absurd hprd not_mem_nil⟩
  · rw [hselected]
    refine ⟨fun prd hprd ↦ ?_, hsound.apart, hsound.apartFromHolds⟩
    have hadmissible := (hsound.selectable prd hprd).admissible
    obtain ⟨entry, hentry, hsame, hpending⟩ := hadmissible.pending
    refine ⟨hadmissible, ⟨entry, hmem entry hentry, hsame, hpending⟩, fun id hid ↦ ?_⟩
    obtain ⟨completed, hcompleted, hid', hstatus⟩ :=
      exists_of_statusOf (hadmissible.dependencies id hid)
    exact ⟨completed, hmem completed hcompleted, hid', hstatus⟩

def firstPath : RepositoryPath :=
  ⟨"docs/prds/PRD-001.md", by decide⟩

def secondPath : RepositoryPath :=
  ⟨"docs/prds/PRD-002.md", by decide⟩

def thirdPath : RepositoryPath :=
  ⟨"docs/prds/PRD-003.md", by decide⟩

/-- A PRD with a structured contract. -/
def smallPrd (number : ℕ) (path : RepositoryPath) (expectedFiles resources : List String) :
    DiscoveredPrd where
  id := ⟨number, none, .canonical⟩
  number := number
  path := path
  location := .active
  dependencies := []
  contentHash := ""
  metadata := { contractVersion := some 1, expectedFiles := expectedFiles, resources := resources }

/-- Three ready PRDs, of which the third overlaps the first, next to a worker in flight. -/
def smallBacklog : List BacklogEntry :=
  [⟨smallPrd 1 firstPath ["crates/a/**", "crates/familiar-ai-storage/migrations/"] [], .pending⟩,
    ⟨smallPrd 2 secondPath
      ["crates/b/lib.rs", "crates/familiar-ai-storage/migrations/"] ["gpu"], .pending⟩,
    ⟨smallPrd 3 thirdPath ["crates/a/lib.rs"] [], .pending⟩]

/-- A worker in flight holds a directory and a resource. -/
def smallContext : SelectionContext where
  readFile _ := .error "not read"
  attempted := [⟨9, none, .canonical⟩]
  allowlist := none
  activeHolds := [⟨⟨9, none, .canonical⟩, [("docs/", .directory)], ["network"]⟩]
  foreign := {}
  limit := 4

/-- The first two are selected. -/
def smallSelection : Selection :=
  .eligible (smallBacklog.map BacklogEntry.prd |>.take 2)

theorem selectBatch_isolated_smallBacklog :
    (∀ prd ∈ smallSelection.prds,
        Admissible smallContext (smallBacklog.insertionSort EntryBefore) prd ∧
          (∃ entry ∈ smallBacklog, entry.prd = prd ∧ entry.status = .pending) ∧
          ∀ id ∈ prd.dependencies, ∃ entry ∈ smallBacklog,
            (entry.prd.id == id) = true ∧ entry.status = .completed) ∧
      smallSelection.prds.Pairwise (PrdsApart smallContext.readFile) ∧
      ∀ prd ∈ smallSelection.prds, ∀ hold ∈ smallContext.activeHolds,
        ApartFromHold smallContext.readFile prd hold :=
  selectBatch_isolated smallContext (smallBacklog.map BacklogEntry.prd) smallBacklog smallSelection
    (by decide +kernel)

end FamiliarAi
