import FamiliarAi.Backlog.Discovery
import FamiliarAi.Core.BacklogGraph
import FamiliarAi.Storage.Transitions

/-!
# Selection of the next PRD

The manager of a backlog discovers its PRDs, validates their graph, reconciles them with the store
and goes through the entries in order, to the first that is eligible. A run is admitted by another
function. The two agree because the entries of a reconciled snapshot have different identities and
paths: what is looked up by either is the entry itself, in whatever order the entries are. So **the
manager selects the least of the PRDs that are admitted, and selects none exactly when none is
admitted** (`next_agrees`).
-/

namespace FamiliarAi

open Relational Text List Except

inductive IneligibilityReason
  | statusInProgress
  | statusCompleted
  | statusBlocked
  | dependenciesIncomplete (dependencies : List PrdId)
  | frontMatterStatus (status : String)

def reasonText : IneligibilityReason → String
  | .statusInProgress => "in_progress"
  | .statusCompleted => "completed"
  | .statusBlocked => "blocked"
  | .frontMatterStatus status => "front matter status " ++ status
  | .dependenciesIncomplete dependencies =>
    "dependencies incomplete [" ++ displayIds dependencies ++ "]"

structure NextPrd where
  id : PrdId
  path : RepositoryPath
  title : String
  status : BacklogStatus
  dependencies : List PrdId

/-- What is reported of the entry that is selected. -/
def BacklogEntry.next (entry : BacklogEntry) : NextPrd where
  id := entry.prd.id
  path := entry.prd.path
  title := entry.prd.title
  status := entry.status
  dependencies := entry.prd.dependencies

/-- The loop of `next` over the entries that are left. Statuses are looked up among all entries. -/
def selectNext (entries : List BacklogEntry) :
    List String → List BacklogEntry → Except BacklogError NextPrd
  | reasons, [] => .error (.noEligiblePrd (", ".intercalate reasons))
  | reasons, entry :: rest =>
    let because (reason : IneligibilityReason) : List String :=
      reasons ++ [entry.prd.id.display ++ "=" ++ reasonText reason]
    if entry.prd.location = .archived then selectNext entries reasons rest
    else
      match frontMatterHold entry.prd with
      | some status => selectNext entries (because (.frontMatterStatus status)) rest
      | none =>
        match entry.status with
        | .pending =>
          if unmet entries entry.prd = [] then .ok entry.next
          else
            selectNext entries (because (.dependenciesIncomplete (unmet entries entry.prd))) rest
        | .inProgress => selectNext entries (because .statusInProgress) rest
        | .completed => selectNext entries (because .statusCompleted) rest
        | .blocked => selectNext entries (because .statusBlocked) rest

/-- The entries in the order of their PRDs. -/
def BacklogEntry.LE (a b : BacklogEntry) : Prop :=
  a.prd.LE b.prd

instance BacklogEntry.decidableLE : DecidableRel BacklogEntry.LE :=
  fun a b ↦ inferInstanceAs (Decidable (a.prd.LE b.prd))

instance BacklogEntry.LE.total : Std.Total BacklogEntry.LE :=
  ⟨fun a b ↦ DiscoveredPrd.LE.total.total a.prd b.prd⟩

instance BacklogEntry.LE.trans : IsTrans BacklogEntry BacklogEntry.LE :=
  ⟨fun a b c ↦ DiscoveredPrd.LE.trans.trans a.prd b.prd c.prd⟩

structure BacklogDiscovery where
  resolve : String → Except BacklogError RepositoryIdentity
  discover : RepositoryIdentity → Except (Halt BacklogError) (List DiscoveredPrd)

/-- `BacklogStatusStore`, as far as the manager uses it. -/
structure BacklogStatusStore (σ : Type) where
  reconcileAndSnapshot : RepositoryIdentity → List DiscoveredPrd → σ →
    Except BacklogStoreError (List BacklogEntry) × σ

def requireGraph (discovered : List DiscoveredPrd) : Except (Halt BacklogError) Unit :=
  match validateGraph discovered.length discovered with
  | .valid => .ok ()
  | .invalid e => .error (.error e)
  | .panicked => .error .panic
  | .exhausted => .error .panic

structure BacklogManager (σ : Type) where
  discovery : BacklogDiscovery
  store : BacklogStatusStore σ

namespace BacklogManager

variable {σ : Type} (manager : BacklogManager σ)

/-- What the manager reconciles with the store. -/
def discovered (path : String) :
    Except (Halt BacklogError) (RepositoryIdentity × List DiscoveredPrd) := do
  let repository ← (manager.discovery.resolve path).orHalt
  let discovered ← manager.discovery.discover repository
  (if discovered = [] then .error (.error .emptyBacklog) else .ok () :
    Except (Halt BacklogError) Unit)
  requireGraph discovered
  .ok (repository, discovered)

def snapshot (path : String) (s : σ) : Except (Halt BacklogError) (List BacklogEntry) × σ :=
  match manager.discovered path with
  | .error halt => (.error halt, s)
  | .ok (repository, discovered) =>
    let (answer, s) := manager.store.reconcileAndSnapshot repository discovered s
    ((answer.mapError .store).orHalt, s)

/-- `BacklogManager::next`. -/
def next (path : String) (s : σ) : Except (Halt BacklogError) NextPrd × σ :=
  let (snapshot, s) := manager.snapshot path s
  (snapshot >>= fun entries ↦
    let entries := entries.insertionSort BacklogEntry.LE
    (selectNext entries [] entries).orHalt, s)

end BacklogManager

/-- `ProfiledFilesystemBacklogDiscovery`, on what the directories of the repositories hold. -/
def profiledDiscovery (resolve : String → Except BacklogError RepositoryIdentity)
    (tree : RepositoryIdentity → BacklogTree) (sha256 : Sha256) (layout : BacklogLayout) :
    BacklogDiscovery where
  resolve := resolve
  discover repository := discoverWithLayout sha256 layout (tree repository)

def sqliteStore : BacklogStatusStore (Connection Database BacklogStoreError) where
  reconcileAndSnapshot repository discovered :=
    (reconcileAndSnapshot repository discovered).run

def hostManager (resolve : String → Except BacklogError RepositoryIdentity)
    (tree : RepositoryIdentity → BacklogTree) (sha256 : Sha256) (layout : BacklogLayout) :
    BacklogManager (Connection Database BacklogStoreError) :=
  ⟨profiledDiscovery resolve tree sha256 layout, sqliteStore⟩

/-! ### Eligible entries -/

/-- What both functions ask of an entry. -/
structure Eligible (entries : List BacklogEntry) (entry : BacklogEntry) : Prop where
  location : entry.prd.location = .active
  hold : frontMatterHold entry.prd = none
  status : entry.status = .pending
  dependencies : unmet entries entry.prd = []

/-- The identities of the entries are different, and so are their paths. -/
structure Distinct (entries : List BacklogEntry) : Prop where
  ids : (entries.map (·.prd.id.key)).Nodup
  paths : (entries.map (·.prd.path)).Nodup

section Entries

variable {entries : List BacklogEntry} {entry : BacklogEntry}

/-- What is looked for and is there once is found. -/
theorem find?_eq_some_of_unique {α : Type} {l : List α} {p : α → Bool} {a : α} (ha : a ∈ l)
    (hp : p a = true) (hunique : ∀ b ∈ l, p b = true → b = a) : l.find? p = some a := by
  obtain ⟨b, hb⟩ := Option.isSome_iff_exists.1 (find?_isSome.2 ⟨a, ha, hp⟩)
  rw [hb, hunique b (mem_of_find?_eq_some hb) (find?_some hb)]

theorem Distinct.statusOf_eq_some_iff (h : Distinct entries) {id : PrdId}
    {status : BacklogStatus} :
    statusOf entries id = some status ↔
      ∃ entry ∈ entries, (entry.prd.id == id) = true ∧ entry.status = status := by
  refine ⟨exists_of_statusOf, ?_⟩
  rintro ⟨entry, hentry, hid, rfl⟩
  have hfind : entries.reverse.find? (·.prd.id == id) = some entry := by
    refine find?_eq_some_of_unique (mem_reverse.2 hentry) hid fun other hother hid' ↦ ?_
    refine inj_on_of_nodup_map h.ids (mem_reverse.1 hother) hentry ?_
    exact (PrdId.beq_iff.1 hid').trans (PrdId.beq_iff.1 hid).symm
  rw [statusOf, hfind, Option.map_some]

theorem Distinct.unmet_insertionSort (h : Distinct entries) (prd : DiscoveredPrd) :
    unmet (entries.insertionSort BacklogEntry.LE) prd = unmet entries prd := by
  have hperm := perm_insertionSort BacklogEntry.LE entries
  have hsorted : Distinct (entries.insertionSort BacklogEntry.LE) :=
    ⟨(hperm.map _).nodup_iff.2 h.ids, (hperm.map _).nodup_iff.2 h.paths⟩
  refine filter_congr fun id _ ↦ decide_eq_decide.2 (not_congr ?_)
  rw [hsorted.statusOf_eq_some_iff, h.statusOf_eq_some_iff]
  simp only [hperm.mem_iff]

theorem Distinct.admitRunPrd_iff (h : Distinct entries) (hentry : entry ∈ entries) :
    admitRunPrd entries entry.prd = .ok () ↔ Eligible entries entry := by
  have hfind : entries.find? (·.prd.path = entry.prd.path) = some entry := by
    refine find?_eq_some_of_unique hentry (decide_eq_true rfl) fun other hother hpath ↦ ?_
    exact inj_on_of_nodup_map h.paths hother hentry (of_decide_eq_true hpath)
  constructor
  · intro hadmit
    obtain ⟨hlocation, hhold, hunmet⟩ := admitRunPrd_eq_ok hadmit
    refine ⟨hlocation, hhold, ?_, hunmet⟩
    rw [admitRunPrd, if_neg (by rw [hlocation]; decide), hhold, hfind] at hadmit
    by_contra hstatus
    simp only [if_pos hstatus] at hadmit
    cases hadmit
  · intro heligible
    rw [admitRunPrd, if_neg (by rw [heligible.location]; decide), heligible.hold, hfind]
    simp only [heligible.status, heligible.dependencies]
    rfl

/-- One round of the loop. -/
theorem selectNext_cons (reasons : List String) (rest : List BacklogEntry) :
    selectNext entries reasons (entry :: rest) = .ok entry.next ∧ Eligible entries entry ∨
      ¬Eligible entries entry ∧ ∃ reasons',
        selectNext entries reasons (entry :: rest) = selectNext entries reasons' rest := by
  rw [selectNext]
  cases hlocation : entry.prd.location with
  | archived =>
    exact .inr ⟨fun h ↦ PrdLocation.noConfusion (hlocation.symm.trans h.location), reasons, rfl⟩
  | active =>
    cases hhold : frontMatterHold entry.prd with
    | some status =>
      exact .inr ⟨fun h ↦ Option.some_ne_none status (hhold.symm.trans h.hold), _, rfl⟩
    | none =>
      cases hstatus : entry.status with
      | pending =>
        by_cases hunmet : unmet entries entry.prd = []
        · exact .inl ⟨if_pos hunmet, hlocation, hhold, hstatus, hunmet⟩
        · exact .inr ⟨fun h ↦ hunmet h.dependencies, _, if_neg hunmet⟩
      | inProgress =>
        exact .inr ⟨fun h ↦ BacklogStatus.noConfusion (hstatus.symm.trans h.status), _, rfl⟩
      | completed =>
        exact .inr ⟨fun h ↦ BacklogStatus.noConfusion (hstatus.symm.trans h.status), _, rfl⟩
      | blocked =>
        exact .inr ⟨fun h ↦ BacklogStatus.noConfusion (hstatus.symm.trans h.status), _, rfl⟩

theorem selectNext_spec (reasons : List String) (rest : List BacklogEntry) :
    (∃ before first after, rest = before ++ first :: after ∧
        (∀ other ∈ before, ¬Eligible entries other) ∧ Eligible entries first ∧
        selectNext entries reasons rest = .ok first.next) ∨
      (∀ other ∈ rest, ¬Eligible entries other) ∧
        ∃ text, selectNext entries reasons rest = .error (.noEligiblePrd text) := by
  induction rest generalizing reasons with
  | nil => exact .inr ⟨forall_mem_nil _, _, rfl⟩
  | cons entry rest ih =>
    rcases selectNext_cons reasons rest with ⟨hselected, heligible⟩ | ⟨hskipped, reasons', hnext⟩
    · exact .inl ⟨[], entry, rest, rfl, forall_mem_nil _, heligible, hselected⟩
    · rw [hnext]
      rcases ih reasons' with ⟨before, first, after, rfl, hbefore, hfirst⟩ | ⟨hnone, htext⟩
      · refine .inl ⟨entry :: before, first, after, rfl, ?_, hfirst⟩
        exact forall_mem_cons.2 ⟨hskipped, hbefore⟩
      · exact .inr ⟨forall_mem_cons.2 ⟨hskipped, hnone⟩, htext⟩

theorem selectNext_least (h : Distinct entries) :
    (∃ entry ∈ entries, Eligible entries entry ∧
        (∀ other ∈ entries, Eligible entries other → entry.prd.LE other.prd) ∧
        selectNext (entries.insertionSort BacklogEntry.LE) []
          (entries.insertionSort BacklogEntry.LE) = .ok entry.next) ∨
      (∀ entry ∈ entries, ¬Eligible entries entry) ∧
        ∃ text, selectNext (entries.insertionSort BacklogEntry.LE) []
          (entries.insertionSort BacklogEntry.LE) = .error (.noEligiblePrd text) := by
  have heligible (entry : BacklogEntry) :
      Eligible (entries.insertionSort BacklogEntry.LE) entry ↔ Eligible entries entry := by
    constructor
    · exact fun he ↦ ⟨he.1, he.2, he.3, (h.unmet_insertionSort _).symm.trans he.4⟩
    · exact fun he ↦ ⟨he.1, he.2, he.3, (h.unmet_insertionSort _).trans he.4⟩
  have hmem (entry : BacklogEntry) :
      entry ∈ entries.insertionSort BacklogEntry.LE ↔ entry ∈ entries :=
    mem_insertionSort _
  have hsorted := pairwise_insertionSort BacklogEntry.LE entries
  rcases @selectNext_spec (entries.insertionSort BacklogEntry.LE) []
    (entries.insertionSort BacklogEntry.LE) with
    ⟨before, first, after, hsplit, hbefore, hfirst, hselected⟩ | ⟨hnone, htext⟩
  · refine .inl ⟨first, (hmem first).1 ?_, (heligible first).1 hfirst, fun other hother ho ↦ ?_,
      hselected⟩
    · rw [hsplit]
      exact mem_append_right _ mem_cons_self
    · rw [hsplit, pairwise_append, pairwise_cons] at hsorted
      rw [← hmem, hsplit, mem_append, mem_cons] at hother
      rcases hother with hother | rfl | hother
      · exact absurd ((heligible other).2 ho) (hbefore other hother)
      · exact (Std.Total.total _ _ : BacklogEntry.LE other other ∨ _).elim (fun h ↦ h) fun h ↦ h
      · exact hsorted.2.1.1 other hother
  · exact .inr ⟨fun entry hentry he ↦ hnone entry ((hmem entry).2 hentry) ((heligible entry).2 he),
      htext⟩

end Entries

/-! ### Reconciled snapshots -/

section Snapshot

variable {repository : RepositoryIdentity} {prds : List DiscoveredPrd}
  {entries : List BacklogEntry} {c c' : Connection Database BacklogStoreError}

theorem map_prd_of_readEntries (h : (readEntries repository prds).Runs c entries c') :
    entries.map (·.prd) = prds := by
  induction prds generalizing c c' entries with
  | nil =>
    obtain ⟨rfl, -⟩ := h.of_pure
    rfl
  | cons prd prds ih =>
    obtain ⟨entry, c₁, hentry, h⟩ := h.of_bind
    obtain ⟨rest, c₂, hrest, hpure⟩ := h.of_bind
    obtain ⟨rfl, -⟩ := hpure.of_pure
    obtain ⟨row, c₃, -, hpure⟩ := hentry.of_bind
    obtain ⟨rfl, -⟩ := hpure.of_pure
    rw [map_cons, ih hrest]

theorem map_prd_of_reconcileAndSnapshot
    (h : (reconcileAndSnapshot repository prds).Runs c entries c') :
    entries.map (·.prd) = prds := by
  obtain ⟨c₁, c₂, -, hbody, -⟩ := h.of_transaction
  obtain ⟨_, c₃, -, hread⟩ := hbody.of_bind
  exact map_prd_of_readEntries hread

end Snapshot

section Agreement

variable {resolve : String → Except BacklogError RepositoryIdentity}
  {tree : RepositoryIdentity → BacklogTree} {sha256 : Sha256} {layout : BacklogLayout}
  {path : String} {c : Connection Database BacklogStoreError} {entries : List BacklogEntry}

theorem distinct_of_snapshot
    (h : ((hostManager resolve tree sha256 layout).snapshot path c).1 = .ok entries) :
    Distinct entries := by
  unfold BacklogManager.snapshot at h
  rcases hbacklog : (hostManager resolve tree sha256 layout).discovered path with halt | found
  · rw [hbacklog] at h
    cases h
  obtain ⟨repository, discovered⟩ := found
  rw [hbacklog] at h
  have hruns : (reconcileAndSnapshot repository discovered).Runs c entries
      ((reconcileAndSnapshot repository discovered).run c).2 :=
    Prod.ext (Except.mapError_eq_ok.1 (Except.orHalt_eq_ok.1 h)) rfl
  have hprds := map_prd_of_reconcileAndSnapshot hruns
  obtain ⟨repository', -, hbacklog⟩ := Except.bind_eq_ok.1 hbacklog
  obtain ⟨discovered', hdiscover, hbacklog⟩ := Except.bind_eq_ok.1 hbacklog
  obtain ⟨_, -, hbacklog⟩ := Except.bind_eq_ok.1 hbacklog
  obtain ⟨_, -, hbacklog⟩ := Except.bind_eq_ok.1 hbacklog
  obtain ⟨rfl, rfl⟩ := Prod.mk.inj (ok.inj hbacklog)
  have hdiscover : discoverWithLayout sha256 layout (tree repository') = .ok discovered' :=
    hdiscover
  constructor
  · have hids := nodup_ids_of_discoverWithLayout hdiscover
    rwa [← hprds, map_map] at hids
  · have hpaths := nodup_paths_of_discoverWithLayout hdiscover
    rwa [← hprds, map_map] at hpaths

/-- **Selection and admission agree.** On a reconciled snapshot, what `next` selects is the entry
that comes first by identity and path among those that `admit_run_prd` admits, and it reports that
there is none exactly when `admit_run_prd` rejects every entry. -/
theorem next_agrees
    (h : ((hostManager resolve tree sha256 layout).snapshot path c).1 = .ok entries) :
    (∀ selected, ((hostManager resolve tree sha256 layout).next path c).1 = .ok selected →
      ∃ entry ∈ entries, selected = entry.next ∧ admitRunPrd entries entry.prd = .ok () ∧
        ∀ other ∈ entries, admitRunPrd entries other.prd = .ok () → entry.prd.LE other.prd) ∧
    ((∃ reasons, ((hostManager resolve tree sha256 layout).next path c).1 =
        .error (.error (.noEligiblePrd reasons))) ↔
      ∀ entry ∈ entries, admitRunPrd entries entry.prd ≠ .ok ()) := by
  have hdistinct := distinct_of_snapshot h
  have hnext : ((hostManager resolve tree sha256 layout).next path c).1 =
      (selectNext (entries.insertionSort BacklogEntry.LE) []
        (entries.insertionSort BacklogEntry.LE)).orHalt := by
    show ((hostManager resolve tree sha256 layout).snapshot path c).1 >>= _ = _
    rw [h]
    rfl
  rw [hnext]
  rcases selectNext_least hdistinct with
    ⟨entry, hentry, heligible, hleast, hselect⟩ | ⟨hnone, text, hselect⟩
  · rw [hselect]
    have hadmit := (hdistinct.admitRunPrd_iff hentry).2 heligible
    refine ⟨?_, iff_of_false (by rintro ⟨reasons, ⟨⟩⟩) fun hall ↦ hall entry hentry hadmit⟩
    rintro selected ⟨⟩
    refine ⟨entry, hentry, rfl, hadmit, fun other hother ho ↦ ?_⟩
    exact hleast other hother ((hdistinct.admitRunPrd_iff hother).1 ho)
  · rw [hselect]
    refine ⟨nofun, iff_of_true ⟨text, rfl⟩ fun entry hentry hadmit ↦ ?_⟩
    exact hnone entry hentry ((hdistinct.admitRunPrd_iff hentry).1 hadmit)

end Agreement

namespace SampleBacklog

def layout : BacklogLayout where
  profile := .canonical
  activeDir := ⟨"docs/prds", by decide⟩
  archivedDir := ⟨"docs/prds/done", by decide⟩
  metadataPolicy := .incremental
  riskVocabulary := []

/-- A document that depends on what is listed. -/
def item (name heading value : String) (plain : '/' ∉ name.toList) : DirectoryItem where
  name := some name
  plain := by
    rintro _ ⟨⟩
    exact plain
  file := .regular (.ok (encodeUtf8 (heading ++ "\n**Depends on:** " ++ value ++ "\n").toList))

/-- One PRD is archived, one may be run, and one depends on that. -/
def tree : BacklogTree where
  active := .items
    [.ok (item "PRD-3.md" "# PRD-3: Third" "PRD-2" (by decide)),
      .ok (item "PRD-2.md" "# PRD-2: Second" "PRD-1" (by decide))]
  archived := .items [.ok (item "PRD-1.md" "# PRD-1: First" "none" (by decide))]

def manager : BacklogManager (Connection Database BacklogStoreError) :=
  hostManager (fun path ↦ .ok ⟨path⟩) (fun _ ↦ tree) (fun _ ↦ Vector.replicate 32 0) layout

end SampleBacklog

/-- The second PRD is selected and admitted; the third one waits for it. -/
theorem next_agrees_sample :
    ∃ entries entry, (SampleBacklog.manager.snapshot "repo" ⟨.empty, []⟩).1 = .ok entries ∧
      entry ∈ entries ∧ entry.prd.id.number = 2 ∧
      (SampleBacklog.manager.next "repo" ⟨.empty, []⟩).1 = .ok entry.next ∧
      admitRunPrd entries entry.prd = .ok () := by
  have hnumber : (SampleBacklog.manager.next "repo" ⟨.empty, []⟩).1.toOption.map (·.id.number) =
      some 2 := by
    decide +kernel
  obtain ⟨selected, hselected, hid⟩ := Option.map_eq_some_iff.1 hnumber
  rw [Except.toOption_eq_some] at hselected
  have hsnapshot :
      (SampleBacklog.manager.snapshot "repo" ⟨.empty, []⟩).1.toOption.isSome = true := by
    decide +kernel
  obtain ⟨entries, hentries⟩ := Option.isSome_iff_exists.1 hsnapshot
  rw [Except.toOption_eq_some] at hentries
  obtain ⟨entry, hentry, rfl, hadmit, -⟩ := (next_agrees hentries).1 selected hselected
  exact ⟨entries, entry, hentries, hentry, hid, hselected, hadmit⟩

end FamiliarAi
