import FamiliarAi.Context.Budget
import FamiliarAi.Context.Compiler

/-!
# Compiled contexts and the budget

What the compiler assembles and what the budget accepts. Every estimate and every provenance that the
compiler writes is as the budget wants it, and every file is included once; the two part over the
kinds and names of the files. `compileProfiled_valid_iff` says when a compiled context is valid.
-/

namespace FamiliarAi

open Text Option Except List

namespace ContextCompiler

variable {host : ContextHost} {start : Opened}

theorem orFail_eq_ok {ε α : Type} {result : Except ε α} {error : ε → ContextCompilationError}
    {a : α} : orFail result error = .ok a ↔ result = .ok a := by
  cases result with
  | ok b => exact ⟨fun h ↦ congrArg _ (ok.inj h), fun h ↦ congrArg _ (ok.inj h)⟩
  | error e => exact ⟨nofun, nofun⟩

theorem document_eq_ok {path : String} {kind : DocumentKind} {content : String}
    {inclusion : InclusionReason} {made : ContextDocument}
    (h : document path kind content inclusion = .ok made) :
    made = ⟨path, kind, content, inclusion, Tokens.estimateTokens content⟩ ∧
      Tokens.estimateTokens content ≤ maxU64 := by
  have h : (if _ then _ else _) = _ := h
  split_ifs at h with hle
  exact ⟨(ok.inj h).symm, hle⟩

structure ReadFor (start : Opened) (entry : String × CanonicalPath × DocumentKind)
    (document : ContextDocument) : Prop where
  path : document.path = entry.1
  kind : document.kind = entry.2.2
  inclusion : document.inclusion = .directReference start.prd.path
  estimate : document.estimatedTokens = Tokens.estimateTokens document.content

theorem readDocument_eq_ok {entry : String × CanonicalPath × DocumentKind}
    {document : ContextDocument} (h : readDocument host start entry = .ok document) :
    ReadFor start entry document := by
  obtain ⟨content, -, h⟩ := bind_eq_ok.1 h
  obtain ⟨rfl, -⟩ := document_eq_ok h
  exact ⟨rfl, rfl, rfl, rfl⟩

theorem forall₂_of_mapM_readDocument {entries : List (String × CanonicalPath × DocumentKind)}
    {documents : List ContextDocument}
    (h : entries.mapM (readDocument host start) = .ok documents) :
    List.Forall₂ (ReadFor start) entries documents := by
  induction entries generalizing documents with
  | nil =>
    obtain rfl := ok.inj h
    exact .nil
  | cons entry entries ih =>
    rw [mapM_cons] at h
    obtain ⟨document, hdocument, h⟩ := bind_eq_ok.1 h
    obtain ⟨documents, hdocuments, h⟩ := bind_eq_ok.1 h
    obtain rfl := ok.inj h
    exact .cons (readDocument_eq_ok hdocument) (ih hdocuments)

theorem foldlM_addEstimate {documents : List ContextDocument} {total total' : ℕ}
    (hle : total ≤ maxU64) (h : documents.foldlM addEstimate total = .ok total') :
    total' = total + (documents.map (·.estimatedTokens)).sum ∧ total' ≤ maxU64 := by
  induction documents generalizing total with
  | nil =>
    obtain rfl := ok.inj h
    exact ⟨rfl, hle⟩
  | cons document documents ih =>
    rw [foldlM_cons] at h
    obtain ⟨sum, hsum, h⟩ := bind_eq_ok.1 h
    rw [addEstimate] at hsum
    split at hsum
    case h_2 => cases hsum
    case h_1 added hadded =>
      obtain rfl := ok.inj hsum
      obtain ⟨rfl, hmax⟩ := checkedAdd_eq_some hadded
      obtain ⟨htotal, hmax'⟩ := ih hmax h
      exact ⟨by rw [htotal, map_cons, sum_cons, Nat.add_assoc], hmax'⟩

/-- The file and the name to which a reference leads, unless it is a planned output. -/
def target (host : ContextHost) (start : Opened) (relative : String) :
    Option (CanonicalPath × String) :=
  if IsPlanned host start relative then none
  else
    match host.canonicalize (.joined start.repository.worktree (osString relative)) with
    | .error _ => none
    | .ok path => (identity start.repository.worktree path).toOption.map fun name ↦ (path, name)

def entryFor (host : ContextHost) (start : Opened) (name : String)
    (reference : String × String × DocumentKind) : Option (CanonicalPath × DocumentKind) :=
  (target host start reference.1).bind fun (path, found) ↦
    if found = name then some (path, reference.2.2) else none

theorem canonicalize_of_validateReference {worktree path : CanonicalPath} {relative root : String}
    (h : validateReference host worktree relative root = .ok path) :
    host.canonicalize (.joined worktree (osString relative)) = .ok path := by
  rw [validateReference, bind_eq_ok] at h
  simp only [bind_eq_ok, ite_throw_eq_ok] at h
  obtain ⟨found, hfound, _, -, -, -, -, h⟩ := h
  obtain rfl := ok.inj h
  exact orFail_eq_ok.1 hfound

theorem includeReference_get {validated validated' : Documents}
    {reference : String × String × DocumentKind}
    (h : includeReference host start validated reference = .ok validated') (name : String) :
    validated'[name]? = validated[name]?.or (entryFor host start name reference) := by
  rw [includeReference] at h
  by_cases hplanned : IsPlanned host start reference.1
  · rw [if_pos hplanned] at h
    obtain rfl := ok.inj h
    rw [entryFor, target, if_pos hplanned]
    exact (or_none).symm
  · rw [if_neg hplanned] at h
    obtain ⟨path, hpath, h⟩ := bind_eq_ok.1 h
    obtain ⟨found, hfound, h⟩ := bind_eq_ok.1 h
    obtain rfl := ok.inj h
    have htarget : target host start reference.1 = some (path, found) := by
      rw [target, if_neg hplanned, canonicalize_of_validateReference hpath]
      show Option.map _ (Except.toOption _) = _
      rw [orFail_eq_ok.1 hfound]
      rfl
    rw [entryFor, htarget, Std.TreeMap.getElem?_insertIfNew]
    show (if _ then _ else _) = (validated[name]?).or (if found = name then _ else none)
    by_cases hname : found = name
    · subst hname
      rw [if_pos rfl]
      rcases hget : validated[found]? with _ | entry
      · have hnew : found ∉ validated := fun hmem ↦
          isSome_iff_ne_none.1 (Std.TreeMap.mem_iff_isSome_getElem?.1 hmem) hget
        rw [if_pos ⟨Std.ReflCmp.compare_self, hnew⟩]
        rfl
      have hold : found ∈ validated := Std.TreeMap.mem_iff_isSome_getElem?.2 (hget ▸ rfl)
      rw [if_neg fun h ↦ h.2 hold]
      rfl
    · rw [if_neg hname, if_neg fun h ↦ hname (Std.LawfulEqCmp.eq_of_compare h.1), or_none]

/-- **The loop** includes, for every name, what the first of the references gives that lead to it. -/
theorem includeReferences_get {references : List (String × String × DocumentKind)}
    {validated validated' : Documents}
    (h : references.foldlM (includeReference host start) validated = .ok validated')
    (name : String) :
    validated'[name]? = validated[name]?.or (references.findSome? (entryFor host start name)) := by
  induction references generalizing validated with
  | nil =>
    obtain rfl := ok.inj h
    exact (or_none).symm
  | cons reference references ih =>
    rw [foldlM_cons] at h
    obtain ⟨between, hreference, h⟩ := bind_eq_ok.1 h
    rw [ih h, includeReference_get hreference, Option.or_assoc, findSome?_cons]
    cases entryFor host start name reference <;> rfl

variable {references : References}

def Refers (host : ContextHost) (start : Opened) (references : References) (relative : String)
    (kind : DocumentKind) (name : String) : Prop :=
  ∃ root path, references[relative]? = some (root, kind) ∧ ¬IsPlanned host start relative ∧
    host.canonicalize (.joined start.repository.worktree (osString relative)) = .ok path ∧
    identity start.repository.worktree path = .ok name

theorem target_eq_some {relative name : String} {path : CanonicalPath} :
    target host start relative = some (path, name) ↔ ¬IsPlanned host start relative ∧
      host.canonicalize (.joined start.repository.worktree (osString relative)) = .ok path ∧
      identity start.repository.worktree path = .ok name := by
  rw [target]
  by_cases hplanned : IsPlanned host start relative
  · rw [if_pos hplanned]
    exact ⟨nofun, fun h ↦ absurd hplanned h.1⟩
  · rw [if_neg hplanned]
    rcases host.canonicalize (.joined start.repository.worktree (osString relative)) with e | found
    · exact ⟨nofun, fun h ↦ nomatch h.2.1⟩
    show Option.map _ (Except.toOption _) = _ ↔ _
    constructor
    · intro h
      obtain ⟨name', hname, heq⟩ := map_eq_some_iff.1 h
      obtain ⟨rfl, rfl⟩ := Prod.ext_iff.1 heq
      exact ⟨hplanned, rfl, toOption_eq_some.1 hname⟩
    · rintro ⟨-, hpath, hname⟩
      obtain rfl := ok.inj hpath
      rw [toOption_eq_some.2 hname]
      rfl

theorem entryFor_eq_some {name relative root : String} {kind kind' : DocumentKind}
    {path : CanonicalPath} :
    entryFor host start name (relative, root, kind) = some (path, kind') ↔
      target host start relative = some (path, name) ∧ kind = kind' := by
  rw [entryFor, bind_eq_some_iff]
  constructor
  · rintro ⟨⟨path', found⟩, htarget, h⟩
    have h : (if found = name then some (path', kind) else none) = some (path, kind') := h
    split_ifs at h with hname
    obtain ⟨rfl, rfl⟩ := Prod.ext_iff.1 (Option.some.inj h)
    exact ⟨hname ▸ htarget, rfl⟩
  · rintro ⟨htarget, rfl⟩
    exact ⟨(path, name), htarget, if_pos rfl⟩

theorem exists_first_of_included {validated : Documents} {name : String} {path : CanonicalPath}
    {kind : DocumentKind}
    (h : references.toList.foldlM (includeReference host start) ∅ = .ok validated)
    (hget : validated[name]? = some (path, kind)) :
    ∃ relative, Refers host start references relative kind name ∧
      ∀ earlier < relative, ∀ kind', ¬Refers host start references earlier kind' name := by
  rw [includeReferences_get h, Std.TreeMap.getElem?_emptyc, none_or, findSome?_eq_some_iff] at hget
  obtain ⟨before, ⟨relative, root, kind'⟩, after, hlist, hentry, hbefore⟩ := hget
  obtain ⟨htarget, rfl⟩ := entryFor_eq_some.1 hentry
  have hmem : (relative, root, kind') ∈ references.toList :=
    hlist ▸ mem_append_right _ mem_cons_self
  refine ⟨relative, ⟨root, path, Std.TreeMap.mem_toList_iff_getElem?_eq_some.1 hmem,
    target_eq_some.1 htarget⟩, ?_⟩
  rintro earlier hlt kind ⟨root', path', hget', htarget'⟩
  have hordered := Std.TreeMap.ordered_keys_toList (t := references)
  rw [hlist, pairwise_append, pairwise_cons] at hordered
  -- the earlier reference comes before the first, where none leads to the file
  have hmem' := Std.TreeMap.mem_toList_iff_getElem?_eq_some.2 hget'
  rw [hlist, mem_append, mem_cons] at hmem'
  rcases hmem' with hmem' | heq | hmem'
  · have hnone := hbefore _ hmem'
    rw [entryFor_eq_some.2 ⟨target_eq_some.2 htarget', rfl⟩] at hnone
    cases hnone
  · obtain rfl := congrArg Prod.fst heq
    exact lt_irrefl _ hlt
  · exact lt_asymm hlt (compare_lt_iff_lt.1 (hordered.2.1.1 _ hmem'))

theorem included_of_refers {validated : Documents} {relative name : String} {kind : DocumentKind}
    (h : references.toList.foldlM (includeReference host start) ∅ = .ok validated)
    (href : Refers host start references relative kind name) :
    ∃ entry, validated[name]? = some entry := by
  obtain ⟨root, path, hget, htarget⟩ := href
  have hmem := Std.TreeMap.mem_toList_iff_getElem?_eq_some.2 hget
  rw [includeReferences_get h, Std.TreeMap.getElem?_emptyc, none_or]
  refine isSome_iff_exists.1 (findSome?_isSome_iff.2 ⟨_, hmem, ?_⟩)
  rw [entryFor_eq_some.2 ⟨target_eq_some.2 htarget, rfl⟩]
  rfl

/-! ### When the budget accepts -/

/-- The names and the kinds are such that the budget accepts the context. -/
structure Budgetable (host : ContextHost) (start : Opened) (references : References) : Prop where
  prd : WellFormedPath start.prd.path
  names : ∀ relative kind name, Refers host start references relative kind name →
    WellFormedPath name ∧ name ≠ start.prd.path
  /-- The first of the references to a file does not go through a root of PRDs. -/
  kinds : ∀ relative name, Refers host start references relative .prd name →
    ∃ earlier < relative, ∃ kind, Refers host start references earlier kind name

theorem budgetable_iff {validated : Documents}
    (h : references.toList.foldlM (includeReference host start) ∅ = .ok validated) :
    Budgetable host start references ↔ WellFormedPath start.prd.path ∧
      ∀ name path kind, validated[name]? = some (path, kind) →
        (WellFormedPath name ∧ name ≠ start.prd.path) ∧ kind ≠ .prd := by
  constructor
  · rintro ⟨hprd, hnames, hkinds⟩
    refine ⟨hprd, fun name path kind hget ↦ ?_⟩
    obtain ⟨relative, href, hfirst⟩ := exists_first_of_included h hget
    refine ⟨hnames _ _ _ href, ?_⟩
    rintro rfl
    obtain ⟨earlier, hlt, kind, href'⟩ := hkinds _ _ href
    exact hfirst earlier hlt kind href'
  · rintro ⟨hprd, hentries⟩
    refine ⟨hprd, fun relative kind name href ↦ ?_, fun relative name href ↦ ?_⟩
    · obtain ⟨⟨path, kind'⟩, hget⟩ := included_of_refers h href
      exact (hentries _ _ _ hget).1
    · obtain ⟨⟨path, kind⟩, hget⟩ := included_of_refers h href
      obtain ⟨first, href', hfirst⟩ := exists_first_of_included h hget
      refine ⟨first, ?_, kind, href'⟩
      rcases lt_trichotomy first relative with hlt | rfl | hgt
      · exact hlt
      · -- one path has one kind, and an entry of the kind of PRDs is refused
        obtain ⟨_, _, hget₁, -⟩ := href
        obtain ⟨_, _, hget₂, -⟩ := href'
        rw [hget₁] at hget₂
        have hkind := congrArg Prod.snd (Option.some.inj hget₂)
        exact absurd hkind.symm (hentries _ _ _ hget).2
      · exact absurd href (hfirst relative hgt .prd)

theorem openPrd_prd {request : ContextRequest} {profile : ContextProfile}
    (h : openPrd host request profile = .ok start) :
    start.prd.kind = .prd ∧ start.prd.inclusion = .requestedPrd ∧
      start.prd.estimatedTokens = Tokens.estimateTokens start.prd.content ∧
      start.prd.estimatedTokens ≤ maxU64 := by
  rw [openPrd, bind_eq_ok] at h
  simp only [bind_eq_ok] at h
  obtain ⟨_, -, _, -, _, -, _, -, _, -, _, -, _, -, _, -, _, -, prd, hprd, h⟩ := h
  obtain rfl := ok.inj h
  obtain ⟨rfl, hle⟩ := document_eq_ok hprd
  exact ⟨rfl, rfl, rfl, hle⟩

theorem map_path_of_readFor {entries : List (String × CanonicalPath × DocumentKind)}
    {documents : List ContextDocument} (h : List.Forall₂ (ReadFor start) entries documents) :
    documents.map (·.path) = entries.map (·.1) := by
  induction h with
  | nil => rfl
  | cons hread _ ih => rw [map_cons, map_cons, hread.path, ih]

theorem exists_entry_of_readFor {entries : List (String × CanonicalPath × DocumentKind)}
    {documents : List ContextDocument} (h : List.Forall₂ (ReadFor start) entries documents)
    {document : ContextDocument} (hdocument : document ∈ documents) :
    ∃ entry ∈ entries, ReadFor start entry document := by
  induction h with
  | nil => cases hdocument
  | @cons entry _ _ _ hread _ ih =>
    rcases mem_cons.1 hdocument with rfl | hdocument
    · exact ⟨entry, mem_cons_self, hread⟩
    · obtain ⟨entry, hentry, hread⟩ := ih hdocument
      exact ⟨entry, mem_cons_of_mem _ hentry, hread⟩

theorem exists_document_of_readFor {entries : List (String × CanonicalPath × DocumentKind)}
    {documents : List ContextDocument} (h : List.Forall₂ (ReadFor start) entries documents)
    {entry : String × CanonicalPath × DocumentKind} (hentry : entry ∈ entries) :
    ∃ document ∈ documents, ReadFor start entry document := by
  induction h with
  | nil => cases hentry
  | @cons _ document _ _ hread _ ih =>
    rcases mem_cons.1 hentry with rfl | hentry
    · exact ⟨document, mem_cons_self, hread⟩
    · obtain ⟨document, hdocument, hread⟩ := ih hentry
      exact ⟨document, mem_cons_of_mem _ hdocument, hread⟩

theorem valid_iff_budgetable {context : ExecutionContext}
    (hprd : start.prd.kind = .prd ∧ start.prd.inclusion = .requestedPrd ∧
      start.prd.estimatedTokens = Tokens.estimateTokens start.prd.content ∧
      start.prd.estimatedTokens ≤ maxU64)
    (h : includeReferences host start references = .ok context) :
    context.Valid ↔ Budgetable host start references := by
  obtain ⟨validated, hvalidated, h⟩ := bind_eq_ok.1 h
  obtain ⟨documents, hdocuments, h⟩ := bind_eq_ok.1 h
  obtain ⟨total, htotal, h⟩ := bind_eq_ok.1 h
  obtain rfl := ok.inj h
  have hread := forall₂_of_mapM_readDocument hdocuments
  have hpaths := map_path_of_readFor hread
  obtain ⟨hkind, hinclusion, hestimate, hle⟩ := hprd
  obtain ⟨htotal, hmax⟩ := foldlM_addEstimate hle htotal
  rw [budgetable_iff hvalidated]
  constructor
  · intro hvalid
    refine ⟨hvalid.wellFormed, fun name path kind hget ↦ ?_⟩
    obtain ⟨document, hdocument, hdoc⟩ := exists_document_of_readFor hread
      (Std.TreeMap.mem_toList_iff_getElem?_eq_some.2 hget)
    have hname : document.path = name := hdoc.path
    have hkind : document.kind = kind := hdoc.kind
    have hadmissible := hvalid.documents document hdocument
    refine ⟨⟨hname ▸ hadmissible.wellFormed, fun heq ↦ ?_⟩, hkind ▸ hadmissible.kind⟩
    have hnew := (nodup_cons.1 hvalid.nodup).1
    exact hnew (mem_map.2 ⟨document, hdocument, hname.trans heq⟩)
  · rintro ⟨hwellFormed, hentries⟩
    have hentry (entry : String × CanonicalPath × DocumentKind) (hmem : entry ∈ validated.toList) :=
      hentries entry.1 entry.2.1 entry.2.2 (Std.TreeMap.mem_toList_iff_getElem?_eq_some.1 hmem)
    refine ⟨hwellFormed, hkind, hinclusion, hestimate, fun document hdocument ↦ ?_,
      nodup_cons.2 ⟨fun hmem ↦ ?_, ?_⟩, ?_, hmax⟩
    · obtain ⟨entry, hmem, hdoc⟩ := exists_entry_of_readFor hread hdocument
      exact ⟨hdoc.path ▸ (hentry entry hmem).1.1, hdoc.kind ▸ (hentry entry hmem).2,
        hdoc.inclusion, hdoc.estimate⟩
    · rw [hpaths] at hmem
      obtain ⟨entry, hmem, heq⟩ := mem_map.1 hmem
      exact (hentry entry hmem).1.2 heq
    · show (documents.map (·.path)).Nodup
      rw [hpaths]
      refine pairwise_map.2 (Std.TreeMap.distinct_keys_toList.imp fun hne heq ↦ hne ?_)
      exact heq ▸ Std.ReflCmp.compare_self
    · rw [map_cons, sum_cons]
      exact htotal

end ContextCompiler

/-- **Compiled contexts are valid** exactly when every file that the PRD refers to has a well-formed
name other than the PRD's, and is first referred to through a root that is not one of PRDs. -/
theorem compileProfiled_valid_iff {host : ContextHost} {request : ContextRequest}
    {profile : ContextProfile} {context : ExecutionContext}
    (h : ContextCompiler.compileProfiled host request profile = some (.ok context)) :
    ∃ start references, ContextCompiler.openPrd host request profile = .ok start ∧
      ContextCompiler.discoverProfiled start.prd.content profile.referenceRoots = some references ∧
      (ContextBudgeter.validateContext context = .ok () ↔
        ContextCompiler.Budgetable host start references) := by
  rw [ContextCompiler.compileProfiled] at h
  split at h
  case h_1 => cases Option.some.inj h
  case h_2 start hstart =>
    obtain ⟨references, hreferences, h⟩ := map_eq_some_iff.1 h
    refine ⟨start, references, hstart, hreferences, ?_⟩
    rw [ContextBudgeter.validateContext_eq_ok]
    exact ContextCompiler.valid_iff_budgetable (ContextCompiler.openPrd_prd hstart) h

def pathNames (text : OsString) : CanonicalPath :=
  (text.splitOn 0x2F).filter (· ≠ [])

/-- A worktree without links at `/w`, with these files and no commit. -/
def memoryHost (files : List (String × String)) : ContextHost :=
  let file (path : CanonicalPath) : Option (String × String) :=
    files.find? fun file ↦ pathNames (osString file.1) = path.drop 1
  let known (path : CanonicalPath) : Except IoError CanonicalPath :=
    if path = [osString "w", osString ".git"] ∨
        ∃ file ∈ files, path <+: osString "w" :: pathNames (osString file.1) then .ok path
    else .error ⟨true, "No such file or directory (os error 2)"⟩
  let canonicalize : PathBuf → Except IoError CanonicalPath
    | .given text => known (pathNames text)
    | .joined base text => known (base ++ pathNames text)
    | .canonical path => known path
  { canonicalize
    symlinkMetadata := fun path ↦ (canonicalize path).map fun _ ↦ ()
    isFile := fun path ↦ (file path).isSome
    readToString := fun path ↦
      match file path with
      | some file => .ok file.2
      | none => .error ⟨true, "No such file or directory (os error 2)"⟩
    git := fun _ args ↦
      if args = ["rev-parse", "--show-toplevel"] then .ok ⟨true, osString "/w\n", []⟩
      else if args = ["rev-parse", "--git-common-dir"] then .ok ⟨true, osString ".git\n", []⟩
      else .ok ⟨false, [], osString "fatal: Needed a single revision\n"⟩
    structuredPrdMetadata := fun _ ↦ .ok none }

def prdRootProfile : ContextProfile where
  activeDir := "docs/prd/todo"
  referenceRoots := [⟨"docs/prd/", .prd⟩, ⟨"docs/runbooks/", .supporting⟩]

def compiledAndValidated (files : List (String × String)) (prd : String)
    (profile : ContextProfile) :
    Option (Except ContextCompilationError (Except ContextBudgetError Unit)) :=
  (ContextCompiler.compileProfiled (memoryHost files) ⟨osString "/w", osString prd⟩ profile).map
    (·.map ContextBudgeter.validateContext)

theorem exists_of_compiledAndValidated {files : List (String × String)} {prd : String}
    {profile : ContextProfile} {verdict : Except ContextBudgetError Unit}
    (h : compiledAndValidated files prd profile = some (.ok verdict)) :
    ∃ context, ContextCompiler.compileProfiled (memoryHost files) ⟨osString "/w", osString prd⟩
        profile = some (.ok context) ∧ ContextBudgeter.validateContext context = verdict := by
  obtain ⟨result, hresult, h⟩ := map_eq_some_iff.1 h
  cases result with
  | error e => cases h
  | ok context => exact ⟨context, hresult, ok.inj h⟩

/-- A repository with a contract that the PRD refers to. -/
def contractFiles : List (String × String) :=
  [("docs/prds/PRD-001.md", "Follow docs/contracts/api.md."), ("docs/contracts/api.md", "contract")]

theorem compileProfiled_valid_iff_contract : ∃ start references,
    ContextCompiler.Budgetable (memoryHost contractFiles) start references := by
  obtain ⟨context, hcontext, hvalid⟩ := exists_of_compiledAndValidated
    (show compiledAndValidated contractFiles "docs/prds/PRD-001.md" {} = some (.ok (.ok ())) by
      decide +kernel)
  obtain ⟨start, references, -, -, hiff⟩ := compileProfiled_valid_iff hcontext
  exact ⟨start, references, hiff.1 hvalid⟩

theorem compileProfiled_prdRoot :
    (∀ root ∈ prdRootProfile.referenceRoots, root.Validated) ∧
      (∃ context, ContextCompiler.compileProfiled
          (memoryHost [("docs/prd/todo/0139a-work.md", "After docs/prd/done/0001-first.md."),
            ("docs/prd/done/0001-first.md", "first")])
          ⟨osString "/w", osString "docs/prd/todo/0139a-work.md"⟩ prdRootProfile =
            some (.ok context) ∧
        ContextBudgeter.validateContext context =
          .error (.invalidDirectDocument "docs/prd/done/0001-first.md")) ∧
      ∃ context, ContextCompiler.compileProfiled
          (memoryHost [("docs/prd/todo/0139a-work.md", "This is docs/prd/todo/0139a-work.md.")])
          ⟨osString "/w", osString "docs/prd/todo/0139a-work.md"⟩ prdRootProfile =
            some (.ok context) ∧
        ContextBudgeter.validateContext context =
          .error (.duplicatePath "docs/prd/todo/0139a-work.md") :=
  ⟨by decide +kernel, exists_of_compiledAndValidated (by decide +kernel),
    exists_of_compiledAndValidated (by decide +kernel)⟩

end FamiliarAi
