import FamiliarAi.Storage.LegacyPaths
import FamiliarAi.Storage.Reconciliation
import FamiliarAi.Transition.System

/-!
# The summary worker

The worker that summarizes the files of the pending work. It collects paths in memory, from requests
and from the store, and handles those that have been quiet for a while, one after the other.
Handling a path is a sequence of steps: the file is looked at, compared with its active summary,
read, looked at again, and then the summary is committed or the work fails. Files are edited, and
the watcher and the scans observe them, between any two of these steps.

Next to what the source keeps, each path has a version, which every edit counts up, and the version
that it had when it was last observed; and each summary has the version that it was generated from.
-/

namespace FamiliarAi

open Relational Transition

/-- What `fs::metadata` answers. -/
structure FileMetadata where
  isFile : Bool
  len : ℕ
  /-- The modification time, in nanoseconds, where there is one. -/
  modified : Option ℤ

/-- A path, as the filesystem answers for it. -/
structure SourceFile where
  /-- The root of the project is there, and the path does not lead out of it. -/
  contained : Bool
  metadata : Except String FileMetadata
  /-- `fs::read_to_string`. -/
  content : Except String String

def systemTimeToSecs (time : Option ℤ) : Option ℤ :=
  time.bind fun t ↦ if 0 ≤ t then some (t / 1000000000) else none

/-- `CanonicalFileIdentity::from_observed`, for the path of a key. -/
def SourceFile.Identified (file : SourceFile) (key : FileKey) : Prop :=
  validateStored key.path = .ok () ∧ file.contained = true

instance (file : SourceFile) (key : FileKey) : Decidable (file.Identified key) :=
  inferInstanceAs (Decidable (_ ∧ _))

structure SummaryConfig where
  stalenessThresholdSecs : ℕ
  maxFileSizeBytes : ℕ
  maxPendingFiles : ℕ
  perFileQuietMs : ℕ

structure GeneratedSummary where
  summaryText : String
  tags : List String
  extractedSymbols : List String

structure SummaryWorker where
  config : SummaryConfig
  generate : String → String → GeneratedSummary
  /-- The seconds from one instant to another. -/
  elapsed : String → String → ℤ

def asU64 (n : ℤ) : ℕ :=
  (n % 2 ^ 64).toNat

/-- `get_file_summary_by_path`: the summary under the path, or else under the absolute path. -/
def getFileSummaryByPath (key : FileKey) : LifecycleQuery (Option FileSummaryRow) := do
  .ofExcept (match validateStored key.path with
    | .ok () => .ok ()
    | .error e => .error (.database ("invalid canonical file identity: " ++ e.display)))
  let canonical ← .read (·.summary key)
  match ← .read (·.project key.projectId) with
  | some project => do
    let legacy ← .read (·.summary ⟨key.projectId, joinPath project.repoRoot key.path⟩)
    pure (canonical.or legacy)
  | none => pure canonical

/-- The summary is of the same modification time, and not old enough to be made again. -/
def SummaryWorker.isFresh (worker : SummaryWorker) (now : String) (mtime : Option ℤ)
    (existing : FileSummaryRow) : Bool :=
  existing.content.lastKnownMtime = mtime ∧
    asU64 (worker.elapsed existing.lastUpdatedAt now) < worker.config.stalenessThresholdSecs

structure SourceRead where
  content : String
  version : ℕ
  /-- Another version was observed since. -/
  overtaken : Bool

/-- The step that `process_one` comes to. -/
inductive HandlingPhase
  | identifying
  | inspecting
  | comparing (metadata : FileMetadata)
  | reading (metadata : FileMetadata)
  | rechecking (metadata : FileMetadata) (read : SourceRead)
  | committing (metadata : FileMetadata) (read : SourceRead)
  | failing (error : String)

structure Handling where
  key : FileKey
  /-- There was work to do for the path when it was taken up. -/
  opened : Bool
  phase : HandlingPhase

/-- How `process_one` has returned. -/
inductive HandlingOutcome
  | rejected
  | missing
  | irregular
  | oversized
  | fresh
  | failed
  | committed
  /-- The store has refused the commit. -/
  | refused
  deriving DecidableEq

/-- A path that was handled, with what there was of it then. -/
structure HandledWork where
  key : FileKey
  opened : Bool
  outcome : HandlingOutcome
  work : Option PendingSummaryWork
  summarized : Option ℕ
  /-- The version at the latest observation. -/
  observed : ℕ

def HandlingPhase.overtake (version : ℕ) : HandlingPhase → HandlingPhase
  | .rechecking metadata read =>
    .rechecking metadata { read with overtaken := read.overtaken || read.version != version }
  | .committing metadata read =>
    .committing metadata { read with overtaken := read.overtaken || read.version != version }
  | phase => phase

/-! ### The system -/

structure SummaryWorld where
  files : FileKey → SourceFile
  version : FileKey → ℕ := fun _ ↦ 0
  inventory : Inventory
  /-- The version of each path when it was last observed. -/
  observed : FileKey → ℕ := fun _ ↦ 0
  /-- The version that the summary of each path was last generated from. -/
  origins : FileKey → Option ℕ := fun _ ↦ none
  paused : Bool := false
  /-- The paths in memory, with the instant of the last request. -/
  pending : List (FileKey × ℕ) := []
  /-- The paths of a flush that are still to be handled. -/
  ready : List FileKey := []
  handling : Option Handling := none
  handled : List HandledWork := []

inductive SummaryEvent
  | edit (key : FileKey) (file : SourceFile)
  /-- The watcher or a scan works on the store. -/
  | lifecycle (step : LifecycleStep)
  | pause (paused : Bool)
  | request (key : FileKey) (now : ℕ)
  /-- `flush_quiet`, which finds the paths in some order. -/
  | flushQuiet (order : List FileKey) (now : ℕ)
  | flushAll (order : List FileKey)
  /-- `refill_from_durable`, with the projects whose work could be listed. -/
  | refill (projects : List ℤ) (now : ℕ)
  /-- The next path of the flush is taken up. -/
  | take
  /-- `process_one` takes its next step. -/
  | advance (now : String) (faults : List (Option FamiliarError))
  | restart

namespace SummaryWorld

variable (w : SummaryWorld)

/-- The worker is not at a path, and has none to take up. -/
def Idle : Prop :=
  w.ready = [] ∧ w.handling = none

instance : Decidable w.Idle :=
  decidable_of_iff (w.ready = [] ∧ w.handling.isNone = true) (by
    rw [Option.isNone_iff_eq_none]
    rfl)

/-- `pending.insert`. -/
def insert (key : FileKey) (now : ℕ) : List (FileKey × ℕ) :=
  w.pending.filter (·.1 ≠ key) ++ [(key, now)]

/-- The paths of a project whose work is listed are collected, unless they are there already. -/
def refillProject (max now : ℕ) (pending : List (FileKey × ℕ)) (projectId : ℤ) :
    List (FileKey × ℕ) :=
  (w.inventory.listPendingSummaryWork projectId (max - pending.length)).foldl
    (fun pending work ↦
      if work.key ∈ pending.map (·.1) then pending else pending ++ [(work.key, now)]) pending

/-- The store was worked on, and some paths may have been observed. -/
def observe (inventory : Inventory) : SummaryWorld :=
  let isObserved (key : FileKey) : Bool :=
    ofKey key inventory.observations.rows ≠ ofKey key w.inventory.observations.rows
  { w with
    inventory
    observed := fun key ↦ if isObserved key then w.version key else w.observed key
    handling := w.handling.map fun handling ↦
      if isObserved handling.key then
        { handling with phase := handling.phase.overtake (w.version handling.key) }
      else handling }

/-- `process_one` goes on. -/
def goOn (handling : Handling) (phase : HandlingPhase) : SummaryWorld :=
  { w with handling := some { handling with phase } }

/-- `process_one` returns. -/
def finish (handling : Handling) (outcome : HandlingOutcome) : SummaryWorld :=
  { w with
    handling := none
    handled := {
      key := handling.key
      opened := handling.opened
      outcome
      work := w.inventory.work handling.key
      summarized := (w.inventory.summary handling.key).bind fun _ ↦ w.origins handling.key
      observed := w.observed handling.key } :: w.handled }

end SummaryWorld

namespace SummaryWorker

variable (worker : SummaryWorker) (w : SummaryWorld)

def newSummary (key : FileKey) (metadata : FileMetadata) (read : SourceRead) : NewFileSummary :=
  let generated := worker.generate key.path read.content
  { key
    summary := generated.summaryText
    tags := generated.tags
    extractedSymbols := generated.extractedSymbols
    lastKnownMtime := systemTimeToSecs metadata.modified
    lastKnownSize := some metadata.len }

/-- The active summary of the path is fresh. -/
def passesOver (now : String) (faults : List (Option FamiliarError)) (key : FileKey)
    (metadata : FileMetadata) : Bool :=
  match ((getFileSummaryByPath key).run ⟨w.inventory, faults⟩).1 with
  | .ok (some existing) => worker.isFresh now (systemTimeToSecs metadata.modified) existing
  | .ok none | .error _ => false

/-- The next step of `process_one`. -/
def processOne (handling : Handling) (now : String) (faults : List (Option FamiliarError)) :
    SummaryWorld :=
  let key := handling.key
  let file := w.files key
  match handling.phase with
  | .identifying =>
    if file.Identified key then w.goOn handling .inspecting else w.finish handling .rejected
  | .inspecting =>
    match file.metadata with
    | .error _ => w.finish handling .missing
    | .ok metadata =>
      if metadata.isFile = false then w.finish handling .irregular
      else if worker.config.maxFileSizeBytes < metadata.len then w.finish handling .oversized
      else w.goOn handling (.comparing metadata)
  | .comparing metadata =>
    if worker.passesOver w now faults key metadata then w.finish handling .fresh
    else w.goOn handling (.reading metadata)
  | .reading metadata =>
    match file.content with
    | .error e => w.goOn handling (.failing e)
    | .ok content => w.goOn handling (.rechecking metadata ⟨content, w.version key, false⟩)
  | .rechecking metadata read =>
    match file.metadata with
    | .error e => w.goOn handling (.failing e)
    | .ok after =>
      if after.len ≠ metadata.len ∨
          systemTimeToSecs after.modified ≠ systemTimeToSecs metadata.modified then
        w.goOn handling (.failing "source changed during summarization")
      else w.goOn handling (.committing metadata read)
  | .committing metadata read =>
    match (commitSummaryWork (worker.newSummary key metadata read) now).run
        ⟨w.inventory, faults⟩ with
    | (.ok _, c) =>
      SummaryWorld.finish { w with
        inventory := c.store
        origins := Function.update w.origins key (some read.version) } handling .committed
    | (.error _, c) => SummaryWorld.finish { w with inventory := c.store } handling .refused
  | .failing _ =>
    SummaryWorld.finish { w with
      inventory := ((failSummaryWork key).run ⟨w.inventory, faults⟩).2.store }
      handling .failed

/-- A path is quiet when its last request is long enough ago. -/
def quietPaths (now : ℕ) : List FileKey :=
  (w.pending.filter fun entry ↦ worker.config.perFileQuietMs ≤ now - entry.2).map (·.1)

/-- `refill_from_durable`. -/
def refill (projects : List ℤ) (now : ℕ) : List (FileKey × ℕ) :=
  if worker.config.maxPendingFiles ≤ w.pending.length then w.pending
  else projects.foldl (w.refillProject worker.config.maxPendingFiles now) w.pending

def step : SummaryEvent → Option SummaryWorld
  | .edit key file =>
    some { w with
      files := Function.update w.files key file
      version := Function.update w.version key (w.version key + 1) }
  | .lifecycle step => some (w.observe (w.inventory.lifecycleStep step))
  | .pause paused => some { w with paused }
  | .request key now =>
    if w.Idle then
      if ¬(w.files key).Identified key then some w
      else if worker.config.maxPendingFiles ≤ w.pending.length ∧ key ∉ w.pending.map (·.1) then
        some w
      else some { w with pending := w.insert key now }
    else none
  | .flushQuiet order now =>
    if w.Idle then
      if w.paused then some w
      else if order.Perm (worker.quietPaths w now) then some { w with ready := order }
      else none
    else none
  | .flushAll order =>
    if w.Idle then
      if w.paused then some w
      else if order.Perm (w.pending.map (·.1)) then some { w with ready := order }
      else none
    else none
  | .refill projects now =>
    if w.Idle ∧ projects.Sublist ((w.inventory.projects.filter (·.active)).map (·.id)) then
      some { w with pending := worker.refill w projects now }
    else none
  | .take =>
    match w.ready, w.handling with
    | key :: ready, none =>
      some { w with
        ready
        pending := w.pending.filter (·.1 ≠ key)
        handling := some ⟨key, (w.inventory.work key).any fun work ↦ work.status.IsOpen,
          .identifying⟩ }
    | _, _ => none
  | .advance now faults => w.handling.map fun handling ↦ worker.processOne w handling now faults
  -- what is in memory is lost
  | .restart => some { w with pending := [], ready := [], handling := none }

/-- A worker over a store and files as they may be when it starts. -/
def system : System SummaryWorld SummaryEvent where
  start w := w.inventory.Fresh ∧ (∀ key, w.observed key ≤ w.version key) ∧ w.ready = [] ∧
    w.handling = none ∧ w.handled = []
  step := worker.step

end SummaryWorker

/-- Nothing is left to do. -/
def PendingStatus.IsSettled (status : PendingStatus) : Prop :=
  status ∈ [.completed, .failed, .superseded]

instance : DecidablePred PendingStatus.IsSettled :=
  fun status ↦ inferInstanceAs (Decidable (status ∈ _))

/-- The work of a path that was handled is completed, failed or retired. Where it was completed, or
passed over as fresh, the active summary is of the version that was last observed, or of a later
one. -/
structure HandledWork.Faithful (handled : HandledWork) : Prop where
  settled : ∀ work ∈ handled.work, work.status.IsSettled
  current : handled.outcome = .committed ∨ handled.outcome = .fresh →
    ∃ version ∈ handled.summarized, handled.observed ≤ version

/-- So it is for every path that was handled with work to do. -/
def SummaryWorld.Faithful (w : SummaryWorld) : Prop :=
  ∀ handled ∈ w.handled, handled.opened = true → handled.Faithful

/-- There is no work of the path that is waiting. -/
def SummaryWorld.WorkSettled (w : SummaryWorld) (key : FileKey) : Prop :=
  ∀ work ∈ w.inventory.work key, work.status.IsSettled

instance (w : SummaryWorld) (key : FileKey) : Decidable (w.WorkSettled key) :=
  inferInstanceAs (Decidable (∀ work ∈ w.inventory.work key, work.status.IsSettled))

def SummaryWorker.Eligible (worker : SummaryWorker) (file : SourceFile) : Prop :=
  ∃ metadata, file.metadata = .ok metadata ∧ metadata.isFile = true ∧
    metadata.len ≤ worker.config.maxFileSizeBytes

instance (worker : SummaryWorker) (file : SourceFile) : Decidable (worker.Eligible file) :=
  match h : file.metadata with
  | .ok metadata => decidable_of_iff
      (metadata.isFile = true ∧ metadata.len ≤ worker.config.maxFileSizeBytes) (by
        simp [SummaryWorker.Eligible, h])
  | .error _ => .isFalse (by simp [SummaryWorker.Eligible, h])

def SummaryWorker.UndisturbedAt (worker : SummaryWorker) (w : SummaryWorld) (key : FileKey)
    (now : String) (faults : List (Option FamiliarError)) : HandlingPhase → Prop
  | .identifying => (w.files key).Identified key ∨ w.WorkSettled key
  | .inspecting => worker.Eligible (w.files key) ∨ w.WorkSettled key
  | .comparing metadata => worker.passesOver w now faults key metadata = false
  | .reading _ | .rechecking .. => True
  | .committing _ read =>
    read.overtaken = false ∧ faults = [] ∧ (w.inventory.project key.projectId).isSome = true
  | .failing _ => faults = []

instance SummaryWorker.decidableUndisturbedAt (worker : SummaryWorker) (w : SummaryWorld)
    (key : FileKey) (now : String) (faults : List (Option FamiliarError)) :
    ∀ phase, Decidable (worker.UndisturbedAt w key now faults phase)
  | .identifying => inferInstanceAs (Decidable (_ ∨ _))
  | .inspecting => inferInstanceAs (Decidable (_ ∨ _))
  | .comparing metadata =>
    inferInstanceAs (Decidable (worker.passesOver w now faults key metadata = false))
  | .reading _ | .rechecking .. => .isTrue trivial
  | .committing _ read => inferInstanceAs (Decidable (read.overtaken = false ∧ faults = [] ∧
      (w.inventory.project key.projectId).isSome = true))
  | .failing _ => inferInstanceAs (Decidable (faults = []))

def SummaryWorker.Undisturbed (worker : SummaryWorker) (w : SummaryWorld) : SummaryEvent → Prop
  | .advance now faults => ∀ handling ∈ w.handling, handling.opened = true →
      worker.UndisturbedAt w handling.key now faults handling.phase
  | _ => True

instance SummaryWorker.decidableUndisturbed (worker : SummaryWorker) (w : SummaryWorld) :
    ∀ e, Decidable (worker.Undisturbed w e)
  | .advance now faults => inferInstanceAs (Decidable (∀ handling ∈ w.handling,
      handling.opened = true → worker.UndisturbedAt w handling.key now faults handling.phase))
  | .edit .. | .lifecycle _ | .pause _ | .request .. | .flushQuiet .. | .flushAll _ | .refill ..
  | .take | .restart => .isTrue trivial

end FamiliarAi
