import FamiliarAi.Backlog.Identity
import FamiliarAi.Storage.Waivers

/-!
# What counts as done

A landing moves the file of its PRD to the archive. Until the run is completed the row of the old
path is missing, and the row of the new one is completed: the completion looks for such a twin. It
looks for the number only, so a PRD of the same number with another suffix passes for one.

Recovery asks which PRDs are terminal. The answer goes by the names of files, which are spelled with
zeros in front, and by the attempts that have been integrated.

An operator approves the candidate of a checkpoint. Of the phase of the checkpoint the approval asks
only that it is not completed, and of the dependencies of the PRD it asks nothing.
-/

namespace FamiliarAi

open Relational Text Option Table

/-- The identity has a row that is completed. -/
def Backlog.HasCompleted (b : Backlog) (repositoryKey : String) (key : ℕ × Option Char) : Prop :=
  ∃ row ∈ b.prds.rows, row.key.repositoryKey = repositoryKey ∧ (row.number, row.suffix) = key ∧
    row.status = .completed

/-- The identity has a row that is completed and not missing. -/
def Backlog.HasCompletedTwin (b : Backlog) (repositoryKey : String) (key : ℕ × Option Char) :
    Prop :=
  ∃ row ∈ b.prds.rows, row.key.repositoryKey = repositoryKey ∧ (row.number, row.suffix) = key ∧
    row.status = .completed ∧ row.missing = false

/-! ### Terminal PRDs -/

/-- `Path::file_name`: the last part of the path, unless it leads back. -/
def pathFileName (path : String) : Option (List Char) :=
  match ((splitOn '/' path.toList).filter fun part ↦ part ≠ [] ∧ part ≠ ['.']).getLast? with
  | none | some ['.', '.'] => none
  | some name => some name

/-- `Path::file_stem`: the file name without its extension. A leading dot begins no extension. -/
def fileStem (path : String) : Option (List Char) :=
  (pathFileName path).map fun name ↦
    match (name.reverse.dropWhile (· ≠ '.')).drop 1 with
    | [] => name
    | c :: rest => (c :: rest).reverse

/-- What a completed file is reported as: its stem, and in the canonical spelling. -/
def terminalNames (stem : List Char) : List String :=
  String.ofList stem ::
    match stripPrefix? "PRD-".toList stem with
    | none => []
    | some rest =>
      match parseU64 (rest.takeWhile Char.isDigit) with
      | none => []
      | some number =>
        ["PRD-" ++ toString number ++ String.ofList (rest.dropWhile Char.isDigit)]

/-- The paths of the completed PRDs, but for those of a number that is still being worked on. -/
def Backlog.landedPaths (b : Backlog) (repositoryKey : String) : List String :=
  (b.prds.rows.filter fun row ↦ row.key.repositoryKey = repositoryKey ∧ row.status = .completed ∧
    ¬b.prds.rows.any fun other ↦ other.key.repositoryKey = row.key.repositoryKey ∧
      other.number = row.number ∧ other.status = .inProgress).map (·.key.path)

def Orchestration.integratedPrds (o : Orchestration) (repositoryKey : String) : List String :=
  (o.attempts.rows.filter fun attempt ↦ attempt.integrated ∧
    o.sessions.rows.any fun session ↦ session.sessionId = attempt.key.sessionId ∧
      session.repositoryKey = repositoryKey).map (·.prdId)

/-- `terminal_prds`, as a list of the names that the set has. -/
def terminalPrds (repositoryKey : String) (db : Database) : List String :=
  ((db.backlog.landedPaths repositoryKey).filterMap fileStem).flatMap terminalNames ++
    db.orchestration.integratedPrds repositoryKey

/-- The names of files and the columns of the rows tell the same identities: a file that is named
like an identity holds the PRD of that identity. -/
def Backlog.NamedByPath (b : Backlog) : Prop :=
  ∀ row ∈ b.prds.rows, ∀ stem ∈ fileStem row.key.path, ∀ id,
    parsePrdId (String.ofList stem) .canonical = .ok id → (row.number, row.suffix) = id.key

theorem takeWhile_dropWhile (p : Char → Bool) (text : List Char) :
    (text.dropWhile p).takeWhile p = [] := by
  induction text with
  | nil => rfl
  | cons c text ih =>
    by_cases hc : p c
    · rw [List.dropWhile_cons_of_pos hc, ih]
    · rw [List.dropWhile_cons_of_neg hc, List.takeWhile_cons_of_neg hc]

theorem PrdId.Valid.spelled {id : PrdId} (hid : id.Valid) {number : ℕ} {rest : List Char}
    (h : id.display = "PRD-" ++ toString number ++ String.ofList (rest.dropWhile Char.isDigit)) :
    id.number = number ∧ id.suffix.toList = rest.dropWhile Char.isDigit := by
  have htext : id.word ++ (id.digits ++ id.suffix.toList) =
      "PRD-".toList ++ (Nat.toDigits 10 number ++ rest.dropWhile Char.isDigit) := by
    rw [← toList_display, h]
    simp
  have hword : id.word = "PRD-".toList := by
    unfold word at htext ⊢
    cases hrendering : id.rendering with
    | canonical => rfl
    | numberedSlug width =>
      rw [hrendering] at htext
      simp at htext
  rw [hword, List.append_cancel_left_eq] at htext
  have hdigits (c : Char) (hc : c ∈ Nat.toDigits 10 number) : c.isDigit = true :=
    Nat.isDigit_of_mem_toDigits (by decide) (by decide) hc
  have hnumber : id.digits = Nat.toDigits 10 number := by
    rw [← takeWhile_digits hid, htext, List.takeWhile_append_of_pos hdigits, takeWhile_dropWhile,
      List.append_nil]
  rw [hnumber, List.append_cancel_left_eq] at htext
  refine ⟨?_, htext⟩
  rw [← id.ofDigitChars_digits, hnumber, Nat.ofDigitChars_ten_toDigits]

theorem parsePrdId_of_mem_terminalNames {stem : List Char} {id : PrdId} (hid : id.Valid)
    (h : id.display ∈ terminalNames stem) :
    ∃ id', parsePrdId (String.ofList stem) .canonical = .ok id' ∧ id'.key = id.key := by
  rcases List.mem_cons.1 h with h | h
  · rw [← h]
    exact PrdId.parsePrdId_display hid .canonical
  split at h
  · cases h
  rename_i rest hrest
  split at h
  · cases h
  rename_i number hparse
  obtain ⟨hnumber, hsuffix⟩ := hid.spelled (List.mem_singleton.1 h)
  have hdigits : rest.takeWhile Char.isDigit ≠ [] := by
    intro hnil
    rw [hnil] at hparse
    cases hparse
  have htoken : idToken stem = some (.canonical, rest) := by
    rw [idToken, hrest]
  refine ⟨⟨number, id.suffix, .canonical⟩, ?_, ?_⟩
  · simp only [parsePrdId, String.toList_ofList, htoken, if_neg hdigits, ← hsuffix,
      PrdId.idSuffix_suffix hid, hparse]
  · rw [PrdId.key, PrdId.key, hnumber]

theorem of_mem_terminalPrds {repositoryKey : String} {db : Database}
    (hnamed : db.backlog.NamedByPath) {id : PrdId} (hid : id.Valid)
    (h : id.display ∈ terminalPrds repositoryKey db) :
    db.backlog.HasCompleted repositoryKey id.key ∨
      id.display ∈ db.orchestration.integratedPrds repositoryKey := by
  rcases List.mem_append.1 h with h | h
  · obtain ⟨stem, hstem, hname⟩ := List.mem_flatMap.1 h
    obtain ⟨path, hpath, hstem⟩ := List.mem_filterMap.1 hstem
    obtain ⟨row, hrow, rfl⟩ := List.mem_map.1 hpath
    obtain ⟨hmem, hlanded⟩ := List.mem_filter.1 hrow
    obtain ⟨hrepository, hstatus, -⟩ := of_decide_eq_true hlanded
    obtain ⟨id', hparse, hkey⟩ := parsePrdId_of_mem_terminalNames hid hname
    exact .inl ⟨row, hmem, hrepository, (hnamed row hmem stem hstem id' hparse).trans hkey, hstatus⟩
  · exact .inr h

/-- **What counts as done.** What is reported as terminal is done under that identity. A completion
of a PRD whose row is missing has found the identity completed exactly if, where nothing else
refuses it, a completed twin of the number comes with one of the suffix as well. -/
theorem done_by_identity (sha256 : Sha256)
    (parseRequest : List Char → Except String ReviewRequest) (repository : RepositoryIdentity)
    (target : DiscoveredPrd) (executionId actor : String) (requiredChecks : List String)
    (db : Database) (hnamed : db.backlog.NamedByPath) :
    ((∀ finalize faults entry c', RowMissing repository target db →
        (completeRunWith sha256 parseRequest repository target executionId actor requiredChecks
          finalize).Runs ⟨db, faults⟩ entry c' →
        db.backlog.HasCompletedTwin repository.key (target.number, target.id.suffix)) ∧
      ∀ id : PrdId, id.Valid → id.display ∈ terminalPrds repository.key db →
        db.backlog.HasCompleted repository.key id.key ∨
          id.display ∈ db.orchestration.integratedPrds repository.key) ↔
      (RowMissing repository target db → ClaimStands repository target actor db →
        (requireReview sha256 parseRequest executionId requiredChecks).Returns db () db →
        db.backlog.archivedTwinCompleted repository.key target.number = true →
        db.backlog.HasCompletedTwin repository.key (target.number, target.id.suffix)) := by
  constructor
  · rintro ⟨htwin, -⟩ hmissing hclaim hreview hnumber
    obtain ⟨db', h⟩ := completeRun_returns ⟨hclaim, fun _ ↦ hnumber⟩ hreview
    exact htwin (pure ()) [] _ _ hmissing h
  · intro htwin
    refine ⟨fun finalize faults entry c' hmissing h ↦ ?_,
      fun id hid h ↦ of_mem_terminalPrds hnamed hid h⟩
    obtain ⟨hopen, hreview⟩ := completeRunWith_gates h
    exact htwin hmissing hopen.toClaimStands hreview (hopen.archived hmissing)

namespace Twin

/-- A review without findings. -/
def result : ReviewResult :=
  { Stranded.result with findings := [] }

def cycle : ReviewCycle :=
  { Stranded.reviewed with reviewResult := some result }

def claimedRow : PrdRow :=
  ⟨⟨"repo", "prd.md"⟩, 1, none, "prd", .inProgress, true⟩

def suffixedRow : PrdRow :=
  ⟨⟨"repo", "done/PRD-1b.md"⟩, 1, some 'b', "other", .completed, false⟩

def db : Database :=
  { Stranded.claimed with
    backlog := { Stranded.claimed.backlog with
      prds := ⟨[claimedRow, suffixedRow], by decide, by simp [prdSchema, claimedRow, suffixedRow]⟩ }
    reviews := { Stranded.claimed.reviews with
      cycles := ⟨[⟨"t-cycle", "t", 1, .completed, .readyForHumanApproval, .record cycle⟩],
        by simp [reviewCycleSchema], List.pairwise_singleton _ _⟩ } }

theorem namedByPath : db.backlog.NamedByPath := by
  intro row hrow stem hstem id hparse
  have hrow : row ∈ [claimedRow, suffixedRow] := hrow
  rcases List.mem_pair.1 hrow with rfl | rfl
  · have hname : fileStem claimedRow.key.path = some "prd".toList := by decide
    obtain rfl := mem_unique hname hstem
    cases hparse
  · have hname : fileStem suffixedRow.key.path = some "PRD-1b".toList := by decide
    obtain rfl := mem_unique hname hstem
    have hread : parsePrdId (String.ofList "PRD-1b".toList) .canonical =
        .ok ⟨1, some 'b', .canonical⟩ := by decide
    rw [← Except.ok.inj (hread.symm.trans hparse)]
    rfl

theorem meetsOtherConditions :
    MeetsOtherConditions Stranded.sha256 Stranded.parseRequest Stranded.repository Stranded.target
      "t" Stranded.actor [] db cycle result where
  runActor := Stranded.isRunActor
  row := ⟨claimedRow, by decide, rfl, rfl, by decide⟩
  claim := ⟨⟨1, ⟨"repo", "prd.md"⟩, .pending, .inProgress, Stranded.actor⟩, by decide, by decide,
    rfl⟩
  task := ⟨⟨"t", .record Stranded.task⟩, Stranded.task, by decide, rfl, rfl, by decide⟩
  latest := ⟨_, rfl, rfl, rfl, rfl⟩
  ended := by decide
  reviewed := rfl
  criteria f hf := by cases hf
  checks := rfl
  request := by
    rw [returns_validatePersistedReviewRequest]
    exact ⟨_, rfl, ⟨rfl, rfl, rfl, rfl⟩, _, find_artifactRow (List.mem_singleton_self _),
      ⟨rfl, rfl, rfl, rfl, rfl⟩, Stranded.request, if_pos rfl, result, rfl, by decide⟩
  evidence := by
    rw [returns_validatePersistedEvidence]
    decide
  findings := by decide
end Twin

theorem done_by_identity_sample :
    ((∀ finalize faults entry c', RowMissing Stranded.repository Stranded.target Twin.db →
        (completeRunWith Stranded.sha256 Stranded.parseRequest Stranded.repository Stranded.target
          "t" Stranded.actor [] finalize).Runs ⟨Twin.db, faults⟩ entry c' →
        Twin.db.backlog.HasCompletedTwin "repo" (1, none)) ∧
      ∀ id : PrdId, id.Valid → id.display ∈ terminalPrds "repo" Twin.db →
        Twin.db.backlog.HasCompleted "repo" id.key ∨
          id.display ∈ Twin.db.orchestration.integratedPrds "repo") ↔
      (RowMissing Stranded.repository Stranded.target Twin.db →
        ClaimStands Stranded.repository Stranded.target Stranded.actor Twin.db →
        (requireReview Stranded.sha256 Stranded.parseRequest "t" []).Returns Twin.db () Twin.db →
        Twin.db.backlog.archivedTwinCompleted "repo" 1 = true →
        Twin.db.backlog.HasCompletedTwin "repo" (1, none)) :=
  done_by_identity Stranded.sha256 Stranded.parseRequest Stranded.repository Stranded.target "t"
    Stranded.actor [] Twin.db Twin.namedByPath

/-- PRD-1 is completed because PRD-1b is. -/
theorem suffixed_twin_completes :
    RowMissing Stranded.repository Stranded.target Twin.db ∧
      (∃ db', (completeRun Stranded.sha256 Stranded.parseRequest Stranded.repository
        Stranded.target "t" Stranded.actor []).Returns Twin.db ⟨Stranded.target, .completed⟩ db') ∧
      ¬Twin.db.backlog.HasCompletedTwin "repo" (1, none) := by
  have hmeets := Twin.meetsOtherConditions
  refine ⟨⟨Twin.claimedRow, by decide, rfl⟩, completeRun_returns hmeets.runIsOpen
    (returns_requireReview hmeets (fun f hf ↦ by cases hf) (fun ⟨f, hf, _⟩ ↦ by cases hf)), ?_⟩
  rintro ⟨row, hrow, -, hkey, hstatus, -⟩
  have hrow : row ∈ [Twin.claimedRow, Twin.suffixedRow] := hrow
  rcases List.mem_pair.1 hrow with rfl | rfl
  · cases hstatus
  · cases hkey

/-! ### Approvals -/

def approvedCheckpoint (repository : RepositoryIdentity) (target : DiscoveredPrd)
    (checkpoints : Checkpoints) : Option CheckpointRow :=
  checkpoints.rows.find fun checkpoint ↦
    checkpoint.repositoryKey = repository.key ∧ checkpoint.prdId = target.id.display

/-- The checkpoint has been reviewed, and what is approved is its candidate. -/
def AwaitsApproval (repository : RepositoryIdentity) (target : DiscoveredPrd)
    (approvedDiffHash : String) (db : Database) : Prop :=
  ∃ checkpoint, approvedCheckpoint repository target db.checkpoints = some checkpoint ∧
    checkpoint.phase = .reviewed ∧ checkpoint.diffHash = approvedDiffHash

def DependenciesCompleted (repository : RepositoryIdentity) (target : DiscoveredPrd)
    (db : Database) : Prop :=
  ∀ id ∈ target.dependencies, db.backlog.HasCompletedTwin repository.key id.key

/-- All that an approval is refused for: it names a human, a reason and a commit, the row of the PRD
may be completed, the checkpoint has the candidate and is not completed, and the events get ids of
their own. -/
structure Approvable (repository : RepositoryIdentity) (target : DiscoveredPrd)
    (actor reason approvedDiffHash commit : String) (db : Database) : Prop where
  attribution : ∃ attributed,
    validateRecoveryAttribution .approveAndComplete actor reason = .ok attributed
  commit : String.ofList (trim commit.toList) ≠ ""
  row : ∃ row, db.backlog.row (repository.prdKey target.path) = some row ∧
    (row.status = .pending ∨ row.status = .inProgress) ∧ row.contentHash = target.contentHash ∧
    row.missing = false
  checkpoint : ∃ checkpoint,
    approvedCheckpoint repository target db.checkpoints = some checkpoint ∧
    checkpoint.phase ≠ .completed ∧ checkpoint.diffHash = approvedDiffHash ∧
    ∀ event ∈ db.checkpoints.events.rows, event.eventId ≠ checkpoint.checkpointId ++ ":" ++
      toString (db.checkpoints.nextSequence checkpoint.checkpointId)
  recovery : ∀ event ∈ db.backlog.recoveryEvents.rows, event.statusEventId ≠ db.backlog.nextEventId

section Approval

variable {repository : RepositoryIdentity} {target : DiscoveredPrd}
  {actor reason approvedDiffHash commit : String} {db : Database}
  {c c' : Connection Database BacklogStoreError}

theorem recordTransition_store {key : PrdKey} {old new : BacklogStatus} {eventId : ℕ}
    (h : (recordTransition key old new actor).Runs c eventId c') :
    eventId = c.store.backlog.nextEventId ∧ ∃ statusEvents,
      c'.store = { c.store with backlog := { c.store.backlog with statusEvents } } := by
  have hchange := Query.Runs.of_change h
  split at hchange
  · obtain ⟨statusEvents, -, hpair⟩ := map_eq_some_iff.1 hchange
    obtain ⟨rfl, hstore⟩ := Prod.mk.inj hpair
    exact ⟨rfl, statusEvents, hstore.symm⟩
  · cases hchange

theorem recordRecovery_free {eventId : ℕ} {action : BacklogRecoveryAction} {u : Unit}
    (h : (recordRecovery eventId action reason).Runs c u c') :
    c'.store.checkpoints = c.store.checkpoints ∧
      ∀ event ∈ c.store.backlog.recoveryEvents.rows, event.statusEventId ≠ eventId := by
  have hwrite := Query.Runs.of_write h
  split at hwrite
  · obtain ⟨recoveryEvents, hinsert, hstore⟩ := map_eq_some_iff.1 hwrite
    refine ⟨by rw [← hstore], fun event hevent hsame ↦ ?_⟩
    have hclash := Table.not_clash_of_insert hinsert hevent
    rw [recoverySchema, decide_eq_false_iff_not] at hclash
    exact hclash hsame
  · cases hwrite

theorem recordCheckpointEvent_free {checkpointId eventType detail : String}
    {priorPhase : Option CheckpointPhase} {resultingPhase : CheckpointPhase} {u : Unit}
    (h : (recordCheckpointEvent checkpointId eventType priorPhase resultingPhase detail).Runs
      c u c') :
    ∀ event ∈ c.store.checkpoints.events.rows, event.eventId ≠
      checkpointId ++ ":" ++ toString (c.store.checkpoints.nextSequence checkpointId) := by
  obtain ⟨c₁, hstore, hwrite⟩ := h.of_read_bind
  have hwrite := hwrite.of_write
  rw [hstore] at hwrite
  split at hwrite
  · obtain ⟨events, hinsert, -⟩ := map_eq_some_iff.1 hwrite
    intro event hevent hsame
    have hclash := Table.not_clash_of_insert hinsert hevent
    rw [checkpointEventSchema, Bool.or_eq_false_iff, decide_eq_false_iff_not] at hclash
    exact hclash.1 hsame
  · cases hwrite

theorem approvable_of_runs {entry : BacklogEntry}
    (h : (approveAndComplete repository target actor reason approvedDiffHash commit).Runs c entry
      c') :
    Approvable repository target actor reason approvedDiffHash commit c.store := by
  obtain ⟨attributed, hvalid, h⟩ := h.of_ofExcept_bind
  obtain ⟨hcommit, h⟩ := h.of_ensure_bind
  obtain ⟨c₃, c₄, hbegin, hbody, -⟩ := h.of_transaction
  obtain ⟨row, c₅, hrow, hbody⟩ := hbody.of_bind
  obtain ⟨hrow, hstore₅⟩ := requireRow_runs hrow
  obtain ⟨hfound, hbody⟩ := hbody.of_ensure_bind
  obtain ⟨checkpoint, c₇, hcheckpoint, hbody⟩ := hbody.of_bind
  obtain ⟨hcheckpoint, hstore₇⟩ := requireRow_runs hcheckpoint
  obtain ⟨hopen, hbody⟩ := hbody.of_ensure_bind
  obtain ⟨hcandidate, hbody⟩ := hbody.of_ensure_bind
  obtain ⟨changed, c₁₀, hset, hbody⟩ := hbody.of_bind
  obtain ⟨prds, -, hstore₁₀⟩ := onPrds_runs hset
  obtain ⟨-, hbody⟩ := hbody.of_ensure_bind
  obtain ⟨eventId, c₁₂, htransition, hbody⟩ := hbody.of_bind
  obtain ⟨rfl, statusEvents, hstore₁₂⟩ := recordTransition_store htransition
  obtain ⟨_, c₁₃, hrecovery, hbody⟩ := hbody.of_bind
  obtain ⟨hstore₁₃, hfree⟩ := recordRecovery_free hrecovery
  obtain ⟨changed, c₁₄, hupdate, hbody⟩ := hbody.of_bind
  obtain ⟨rows, -, hstore₁₄⟩ := Query.Runs.of_changePart hupdate
  obtain ⟨-, hbody⟩ := hbody.of_ensure_bind
  obtain ⟨_, c₁₆, hrecord, -⟩ := hbody.of_bind
  have hevents := recordCheckpointEvent_free hrecord
  -- the rows that were read are those of the store, and so are the events when the ids are taken
  have hstore : c₇.store = c.store := by rw [hstore₇, hstore₅, hbegin]
  rw [hbegin] at hrow
  rw [hstore₅, hbegin] at hcheckpoint
  rw [hstore₁₂, hstore₁₀, hstore] at hfree
  have hcheckpoints : c₁₄.store.checkpoints = { c.store.checkpoints with rows } := by
    rw [hstore₁₄, hstore₁₃, hstore₁₂, hstore₁₀, hstore]
  rw [hcheckpoints] at hevents
  exact ⟨⟨attributed, hvalid⟩, hcommit, ⟨row, hrow, hfound⟩,
    ⟨checkpoint, hcheckpoint, hopen, hcandidate, hevents⟩, hfree⟩

theorem sqlNonBlank_trim {text : List Char} (hne : trim text ≠ [])
    (hcontrol : ¬(trim text).any isControl = true) :
    sqlNonBlank (String.ofList (trim text)) = true := by
  obtain ⟨c, rest, htrim⟩ := List.exists_cons_of_ne_nil hne
  have hhead : Text.isWhiteSpace c = false := by
    obtain ⟨after, hafter⟩ := trimEnd_isPrefix Text.isWhiteSpace (text.dropWhile Text.isWhiteSpace)
    have hfirst := List.head?_dropWhile_not Text.isWhiteSpace text
    have htrim' : trimEnd Text.isWhiteSpace (text.dropWhile Text.isWhiteSpace) = c :: rest := htrim
    rw [← hafter, htrim'] at hfirst
    exact hfirst
  have hblank : ¬c = ' ' := by
    rintro rfl
    cases hhead
  have hnul : c ≠ '\x00' := by
    rintro rfl
    rw [htrim] at hcontrol
    exact hcontrol rfl
  rw [sqlNonBlank, String.toList_ofList, htrim, List.dropWhile_cons_of_neg (by simpa using hblank)]
  exact decide_eq_true hnul

theorem validateRecoveryAttribution_nonBlank {action : BacklogRecoveryAction}
    {attributed : String × String}
    (h : validateRecoveryAttribution action actor reason = .ok attributed) :
    sqlNonBlank attributed.1 = true ∧ sqlNonBlank attributed.2 = true := by
  unfold validateRecoveryAttribution at h
  dsimp only at h
  split_ifs at h with hactor hreason hhuman
  cases h
  simp only [not_or] at hactor hreason
  exact ⟨sqlNonBlank_trim hactor.1 hactor.2.2, sqlNonBlank_trim hreason.1 hreason.2.2⟩

theorem returns_recordRecovery {eventId : ℕ} {action : BacklogRecoveryAction}
    (hevent : (db.backlog.statusEvents.find (·.eventId = eventId)).isSome = true)
    (hreason : sqlNonBlank reason = true)
    (hfree : ∀ event ∈ db.backlog.recoveryEvents.rows, event.statusEventId ≠ eventId) :
    ∃ recoveryEvents, (recordRecovery eventId action reason).Returns db ()
      { db with backlog := { db.backlog with recoveryEvents } } := by
  obtain ⟨recoveryEvents, hinsert⟩ := Table.exists_insert (T := db.backlog.recoveryEvents)
    (r := ⟨eventId, action, reason⟩) hreason fun event hevent ↦ decide_eq_false (hfree event hevent)
  refine ⟨recoveryEvents, .write ?_⟩
  rw [if_pos hevent, hinsert]
  rfl

theorem Checkpoints.lt_nextSequence {checkpoints : Checkpoints} {event : CheckpointEventRow}
    (h : event ∈ checkpoints.events.rows) :
    event.sequence < checkpoints.nextSequence event.checkpointId := by
  have hmem : event ∈ checkpoints.events.rows.filter (·.checkpointId = event.checkpointId) :=
    List.mem_filter.2 ⟨h, decide_eq_true rfl⟩
  exact Nat.lt_of_succ_le (List.le_max_of_le' 0
    (List.mem_map_of_mem (f := fun event : CheckpointEventRow ↦ event.sequence + 1) hmem) le_rfl)

theorem returns_recordCheckpointEvent (db : Database) {checkpointId : String}
    (eventType : String) (priorPhase : Option CheckpointPhase) (resultingPhase : CheckpointPhase)
    (detail : String)
    (hrow : (db.checkpoints.rows.find (·.checkpointId = checkpointId)).isSome = true)
    (hfree : ∀ event ∈ db.checkpoints.events.rows, event.eventId ≠
      checkpointId ++ ":" ++ toString (db.checkpoints.nextSequence checkpointId)) :
    ∃ db', (recordCheckpointEvent checkpointId eventType priorPhase resultingPhase detail).Returns
      db () db' := by
  obtain ⟨events, hinsert⟩ := Table.exists_insert (T := db.checkpoints.events)
    (r := ⟨checkpointId ++ ":" ++ toString (db.checkpoints.nextSequence checkpointId), checkpointId,
      db.checkpoints.nextSequence checkpointId, eventType, priorPhase, resultingPhase, detail⟩)
    rfl fun event hevent ↦ by
      refine Bool.or_eq_false_iff.2 ⟨decide_eq_false (hfree event hevent), decide_eq_false ?_⟩
      rintro ⟨hcheckpoint, hsequence⟩
      have hlt := Checkpoints.lt_nextSequence hevent
      rw [hcheckpoint] at hlt
      exact hlt.ne hsequence
  refine ⟨{ db with checkpoints := { db.checkpoints with events } },
    Query.returns_read_bind.2 (.write ?_)⟩
  rw [if_pos hrow, hinsert]
  rfl

theorem returns_completeCheckpoint (db : Database) {checkpoint : CheckpointRow}
    (h : checkpoint ∈ db.checkpoints.rows.rows) (approvedDiffHash commit : String) :
    ∃ rows : Table checkpointSchema,
      (rows.find (·.checkpointId = checkpoint.checkpointId)).isSome = true ∧
      (onCheckpoints fun rows ↦ rows.modify
        (fun r ↦ r.checkpointId = checkpoint.checkpointId ∧ r.phase = checkpoint.phase) fun r ↦
          { r with
            phase := .completed
            invalidReason := none
            approvedDiffHash := some approvedDiffHash
            approvedCommit := some commit }).Returns db 1
        { db with checkpoints := { db.checkpoints with rows } } := by
  let p (r : CheckpointRow) : Bool :=
    r.checkpointId = checkpoint.checkpointId ∧ r.phase = checkpoint.phase
  let f (r : CheckpointRow) : CheckpointRow :=
    { r with
      phase := .completed
      invalidReason := none
      approvedDiffHash := some approvedDiffHash
      approvedCommit := some commit }
  have hp : p checkpoint = true := decide_eq_true ⟨rfl, rfl⟩
  obtain ⟨rows, hrows⟩ := Table.exists_update (T := db.checkpoints.rows) (p := p) (f := f)
    (fun _ _ _ ↦ rfl) fun _ _ _ _ ↦ rfl
  have hcount : db.checkpoints.rows.count p = 1 :=
    Table.count_eq_one h hp fun r _ r' _ hr hr' ↦ Bool.or_eq_true_iff.2 <|
      .inl (decide_eq_true ((of_decide_eq_true hr).1.trans (of_decide_eq_true hr').1.symm))
  have hmem : f checkpoint ∈ rows.rows := Table.mem_update_of_pos hrows h hp
  refine ⟨rows, isSome_iff_exists.2 (Table.find_isSome_of_mem hmem (decide_eq_true rfl)),
    .changePart ?_⟩
  show db.checkpoints.rows.modify p f = some (1, rows)
  rw [Table.modify, hrows, map_some, hcount]

theorem returns_approveAndComplete
    (h : Approvable repository target actor reason approvedDiffHash commit db) :
    ∃ entry db', (approveAndComplete repository target actor reason approvedDiffHash commit).Returns
      db entry db' := by
  obtain ⟨⟨actor', reason'⟩, hvalid⟩ := h.attribution
  obtain ⟨hactor, hreason⟩ := validateRecoveryAttribution_nonBlank hvalid
  obtain ⟨row, hrow, hstatus, hhash, hmissing⟩ := h.row
  obtain ⟨checkpoint, hcheckpoint, hopen, hcandidate, hevents⟩ := h.checkpoint
  let key := repository.prdKey target.path
  -- the row of the PRD is completed
  obtain ⟨prds, hrow', hset⟩ := @returns_setStatus db (fun r ↦ r.key = key ∧ r.status = row.status ∧
      r.contentHash = target.contentHash ∧ r.missing = false) .completed _ _ hrow
    (decide_eq_true ⟨(Backlog.row_eq_some hrow).2, rfl, hhash, hmissing⟩)
    fun r hr ↦ (of_decide_eq_true hr).1
  -- and its events recorded
  obtain ⟨statusEvents, hinsert, htransition⟩ := @returns_recordTransition actor'
    { db with backlog := { db.backlog with prds } } key row.status .completed hrow' hactor
  have hevent : (statusEvents.find (·.eventId = db.backlog.nextEventId)).isSome = true :=
    isSome_iff_exists.2
      (Table.find_isSome_of_mem ((Table.mem_insert hinsert).2 (.inr rfl)) (decide_eq_true rfl))
  obtain ⟨recoveryEvents, hrecovery⟩ := @returns_recordRecovery reason'
    { db with backlog := { db.backlog with prds, statusEvents } } db.backlog.nextEventId
    .approveAndComplete hevent hreason h.recovery
  -- the checkpoint is completed
  obtain ⟨rows, hcheckpointRow, hupdate⟩ := returns_completeCheckpoint
    { db with backlog := { db.backlog with prds, statusEvents, recoveryEvents } }
    (Table.find_some hcheckpoint).1 approvedDiffHash (String.ofList (trim commit.toList))
  obtain ⟨db', hrecord⟩ := returns_recordCheckpointEvent
    { db with
      backlog := { db.backlog with prds, statusEvents, recoveryEvents }
      checkpoints := { db.checkpoints with rows } }
    "phase_transition" (some checkpoint.phase) .completed
    ("approve_and_complete actor=" ++ actor' ++ " approved_hash=" ++ approvedDiffHash ++
      " commit=" ++ String.ofList (trim commit.toList)) hcheckpointRow hevents
  refine ⟨⟨target, .completed⟩, db', Query.returns_ofExcept_bind.2 ⟨_, hvalid, ?_⟩⟩
  refine Query.returns_ensure_bind.2 ⟨h.commit, .transaction ?_⟩
  refine returns_requireRow_bind.2 ⟨row, hrow, Query.returns_ensure_bind.2
    ⟨⟨hstatus, hhash, hmissing⟩, ?_⟩⟩
  refine returns_requireRow_bind.2 ⟨checkpoint, hcheckpoint, Query.returns_ensure_bind.2
    ⟨hopen, Query.returns_ensure_bind.2 ⟨hcandidate, ?_⟩⟩⟩
  refine hset.bind (Query.returns_ensure_bind.2 ⟨rfl, htransition.bind (hrecovery.bind ?_)⟩)
  exact hupdate.bind (Query.returns_ensure_bind.2 ⟨rfl, hrecord.bind .pure⟩)

/-- **Approvals.** An approval that fails changes nothing. One that succeeds has found the
checkpoint reviewed, with the candidate that is approved, and the dependencies completed, exactly if
this is so where nothing else stands against it. -/
theorem approval_due_iff (repository : RepositoryIdentity) (target : DiscoveredPrd)
    (actor reason approvedDiffHash commit : String) (db : Database) :
    ((∀ faults entry c',
        (approveAndComplete repository target actor reason approvedDiffHash commit).Runs
          ⟨db, faults⟩ entry c' →
        AwaitsApproval repository target approvedDiffHash db ∧
          DependenciesCompleted repository target db) ∧
      ∀ faults error c',
        (approveAndComplete repository target actor reason approvedDiffHash commit).Fails
          ⟨db, faults⟩ error c' → c'.store = db) ↔
      (Approvable repository target actor reason approvedDiffHash commit db →
        (∀ checkpoint, approvedCheckpoint repository target db.checkpoints = some checkpoint →
          checkpoint.phase = .reviewed) ∧
        DependenciesCompleted repository target db) := by
  constructor
  · rintro ⟨hdue, -⟩ happrovable
    obtain ⟨entry, db', h⟩ := returns_approveAndComplete happrovable
    obtain ⟨⟨checkpoint, hcheckpoint, hreviewed, -⟩, hdependencies⟩ := hdue [] entry _ h
    refine ⟨fun other hother ↦ ?_, hdependencies⟩
    rwa [← some.inj (hcheckpoint.symm.trans hother)]
  · intro hdue
    refine ⟨fun faults entry c' h ↦ ?_, fun faults error c' h ↦
      approveAndComplete_atomic repository target actor reason approvedDiffHash commit _ _ _ h⟩
    have happrovable := approvable_of_runs h
    obtain ⟨hreviewed, hdependencies⟩ := hdue happrovable
    obtain ⟨checkpoint, hcheckpoint, -, hcandidate, -⟩ := happrovable.checkpoint
    exact ⟨⟨checkpoint, hcheckpoint, hreviewed checkpoint hcheckpoint, hcandidate⟩, hdependencies⟩

end Approval

namespace Unreviewed

def target : DiscoveredPrd :=
  { Stranded.target with dependencies := [⟨2, none, .canonical⟩] }

def checkpoint : CheckpointRow :=
  ⟨"checkpoint-1", "repo", "PRD-1", .implementedPendingReview, "candidate", none, none, none⟩

/-- The candidate waits for its review, and nothing is known of the dependency. -/
def database : Database where
  backlog :=
    { Backlog.empty with
      prds := ⟨[⟨⟨"repo", "prd.md"⟩, 1, none, "prd", .pending, false⟩], by simp [prdSchema],
        List.pairwise_singleton _ _⟩ }
  checkpoints :=
    { Checkpoints.empty with
      rows := ⟨[checkpoint], by simp [checkpointSchema], List.pairwise_singleton _ _⟩ }
  reviews := .empty
  orchestration := .empty

theorem approvable :
    Approvable Stranded.repository target "human:operator" "merged" "candidate" "commit"
      database where
  attribution := ⟨("human:operator", "merged"), by decide⟩
  commit := by decide
  row := ⟨⟨⟨"repo", "prd.md"⟩, 1, none, "prd", .pending, false⟩, by decide, .inl rfl, rfl, rfl⟩
  checkpoint := ⟨checkpoint, by decide, by decide, rfl, fun event hevent ↦ by cases hevent⟩
  recovery event hevent := by cases hevent

end Unreviewed

theorem unreviewed_approved :
    (∃ entry db', (approveAndComplete Stranded.repository Unreviewed.target "human:operator"
      "merged" "candidate" "commit").Returns Unreviewed.database entry db') ∧
      ¬AwaitsApproval Stranded.repository Unreviewed.target "candidate" Unreviewed.database ∧
      ¬DependenciesCompleted Stranded.repository Unreviewed.target Unreviewed.database := by
  refine ⟨returns_approveAndComplete Unreviewed.approvable, ?_, fun h ↦ ?_⟩
  · rintro ⟨checkpoint, hcheckpoint, hreviewed, -⟩
    have hfound : approvedCheckpoint Stranded.repository Unreviewed.target
        Unreviewed.database.checkpoints = some Unreviewed.checkpoint := by decide
    obtain rfl := some.inj (hfound.symm.trans hcheckpoint)
    cases hreviewed
  · obtain ⟨row, hrow, -, hkey, -⟩ := h _ (List.mem_singleton_self _)
    rw [List.mem_singleton.1 hrow] at hkey
    cases hkey

end FamiliarAi
