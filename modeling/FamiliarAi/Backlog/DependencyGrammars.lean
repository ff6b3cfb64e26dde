import FamiliarAi.Backlog.Candidate
import FamiliarAi.Backlog.Written

/-!
# The two grammars for dependencies

A canonical document lists its dependencies in its body, or in its front matter. Both lists are read
by one loop, which is told what the PRD's own identity is: in the front matter it is the identity
with its suffix, in the body every identity with the number.
-/

namespace FamiliarAi

open Text Except

variable {deps : List PrdId} {id : PrdId}

/-! ### Loops over dependencies -/

/-- A round for an item reads the identity, up to its rendering, and refuses it when it is one of
the PRD's own or is there already. -/
def Pushes {τ : Type} (step : List PrdId → τ → Except BacklogError (List PrdId))
    (isSelf : PrdId → Prop) (item : τ) (dep : PrdId) : Prop :=
  ∃ read : PrdId, read.key = dep.key ∧ ∀ acc : List PrdId,
    (isSelf dep ∨ dep.key ∈ acc.map (·.key)) ∧ (∃ e, step acc item = .error e) ∨
      ¬(isSelf dep ∨ dep.key ∈ acc.map (·.key)) ∧ step acc item = .ok (acc ++ [read])

section Loop

variable {τ : Type} {step : List PrdId → τ → Except BacklogError (List PrdId)}
  {isSelf : PrdId → Prop} {items : List τ} {deps : List PrdId}

theorem foldlM_pushes (h : List.Forall₂ (Pushes step isSelf) items deps) (acc : List PrdId)
    (hacc : (acc.map (·.key)).Nodup) :
    ((∃ read, items.foldlM step acc = .ok read) ↔
      (∀ dep ∈ deps, ¬isSelf dep) ∧ (acc.map (·.key) ++ deps.map (·.key)).Nodup) ∧
    ∀ read, items.foldlM step acc = .ok read →
      read.map (·.key) = acc.map (·.key) ++ deps.map (·.key) := by
  induction h generalizing acc with
  | nil =>
    refine ⟨iff_of_true ⟨acc, rfl⟩ ⟨List.forall_mem_nil _, by simpa using hacc⟩, ?_⟩
    rintro _ ⟨⟩
    simp
  | @cons item dep items deps hitem hrest ih =>
    obtain ⟨read, hkey, hstep⟩ := hitem
    have hassoc : (acc ++ [read]).map (·.key) ++ deps.map (·.key) =
        acc.map (·.key) ++ (dep :: deps).map (·.key) := by
      simp [hkey]
    simp only [List.foldlM_cons, bind_eq_ok, List.forall_mem_cons]
    rcases hstep acc with ⟨hrefused, e, he⟩ | ⟨haccepted, hok⟩
    · rw [he]
      refine ⟨iff_of_false (by rintro ⟨_, _, ⟨⟩, _⟩) ?_, by rintro _ ⟨_, ⟨⟩, _⟩⟩
      rintro ⟨⟨hself, -⟩, hnodup⟩
      rcases hrefused with hrefused | hrefused
      · exact hself hrefused
      · exact List.disjoint_of_nodup_append hnodup hrefused List.mem_cons_self
    · rw [not_or] at haccepted
      have hacc' : ((acc ++ [read]).map (·.key)).Nodup := by
        rw [List.map_append, List.map_singleton, hkey, List.nodup_append]
        exact ⟨hacc, List.nodup_singleton _, fun a ha b hb hab ↦
          haccepted.2 ((List.mem_singleton.1 hb) ▸ hab ▸ ha)⟩
      obtain ⟨hiff, hkeys⟩ := ih (acc ++ [read]) hacc'
      rw [hassoc] at hiff hkeys
      simp only [hok, Except.ok.injEq, exists_eq_left', hiff, haccepted.1, not_false_eq_true,
        true_and]
      exact hkeys

end Loop

section Rounds

variable {path : String} {profile : BacklogProfile} {dep id : PrdId}

theorem contains_iff {acc : List PrdId} {read : PrdId} (hkey : read.key = dep.key) :
    acc.contains read = true ↔ dep.key ∈ acc.map (·.key) := by
  rw [List.contains_iff_exists_mem_beq, List.mem_map]
  refine exists_congr fun other ↦ and_congr_right fun _ ↦ ?_
  rw [PrdId.beq_iff, hkey]
  exact eq_comm

/-- What one round does with an identity as it is written. -/
theorem pushes_display (hdep : dep.Valid) {own : PrdId → Bool} {isSelf : PrdId → Prop}
    (hown : ∀ read : PrdId, read.key = dep.key → (own read = true ↔ isSelf dep)) :
    Pushes (pushDependency path profile own) isSelf dep.display dep := by
  obtain ⟨read, hread, hkey⟩ := PrdId.parsePrdId_display hdep profile
  refine ⟨read, hkey, fun acc ↦ ?_⟩
  simp only [pushDependency, hread]
  by_cases hself : isSelf dep
  · rw [if_pos ((hown read hkey).2 hself)]
    exact .inl ⟨.inl hself, _, rfl⟩
  · rw [if_neg (mt (hown read hkey).1 hself)]
    by_cases hmem : dep.key ∈ acc.map (·.key)
    · rw [if_pos ((contains_iff hkey).2 hmem)]
      exact .inl ⟨.inr hmem, _, rfl⟩
    · rw [if_neg (mt (contains_iff hkey).1 hmem)]
      exact .inr ⟨not_or.2 ⟨hself, hmem⟩, rfl⟩

theorem pushes_structured (hdep : dep.Valid) {front : PrdId} (hfront : front.key = id.key) :
    Pushes (pushDependency path profile (· == front)) (fun dep ↦ dep.key = id.key) dep.display
      dep := by
  refine pushes_display hdep fun read hkey ↦ ?_
  rw [PrdId.beq_iff, hkey, hfront]

/-- Blanks around an identity do not matter. -/
theorem pushes_legacy_item (hdep : dep.Valid) {item : List Char}
    (hitem : trimWhere (" \t".toList.contains ·) item = dep.display.toList) :
    Pushes (pushLegacyDependency path id.number) (·.number = id.number) item dep := by
  have hnumber (read : PrdId) (hkey : read.key = dep.key) :
      decide (read.number = id.number) = true ↔ dep.number = id.number := by
    rw [decide_eq_true_eq, show read.number = dep.number from (Prod.mk.inj hkey).1]
  obtain ⟨read, hkey, hstep⟩ : Pushes
      (pushDependency path .canonical fun read ↦ read.number = id.number) (·.number = id.number)
      dep.display dep :=
    pushes_display hdep hnumber
  refine ⟨read, hkey, fun acc ↦ ?_⟩
  have htoken : pushLegacyDependency path id.number acc item =
      pushDependency path .canonical (·.number = id.number) acc dep.display := by
    obtain ⟨text, htext⟩ := List.head?_eq_some_iff.1 (PrdId.head?_display dep)
    have hne : dep.display.toList ≠ [] := by
      rw [htext]
      exact List.cons_ne_nil _ _
    simp only [pushLegacyDependency, hitem, if_neg hne, String.ofList_toList]
  rw [htoken]
  exact hstep acc

end Rounds

theorem pushes_legacy {relative : String} {items : List (List Char)}
    (hdeps : ∀ dep ∈ deps, dep.Valid)
    (hitems : items.map (trimWhere (" \t".toList.contains ·)) = deps.map (·.display.toList)) :
    List.Forall₂ (Pushes (pushLegacyDependency relative id.number) (·.number = id.number)) items
      deps := by
  induction deps generalizing items with
  | nil =>
    rw [List.map_nil, List.map_eq_nil_iff] at hitems
    rw [hitems]
    exact .nil
  | cons dep deps ih =>
    obtain ⟨item, items, rfl⟩ := List.exists_cons_of_ne_nil (l := items) fun hnil ↦ by
      rw [hnil] at hitems
      cases hitems
    obtain ⟨hitem, hitems⟩ := List.cons.inj hitems
    rw [List.forall_mem_cons] at hdeps
    exact .cons (pushes_legacy_item hdeps.1 hitem) (ih hdeps.2 hitems)

/-! ### What the lists are read as -/

/-- The order of identities, by their keys. -/
def KeyLE (a b : ℕ × Option Char) : Prop :=
  (toLex (a.1, a.2) : ℕ ×ₗ WithTop Char) ≤ toLex (b.1, b.2)

instance KeyLE.decidable : DecidableRel KeyLE :=
  fun _ _ ↦ decidable_of_iff _ Prod.Lex.toLex_le_toLex.symm

theorem map_key_insertionSort (ids : List PrdId) :
    (ids.insertionSort PrdId.LE).map (·.key) = (ids.map (·.key)).insertionSort KeyLE :=
  List.map_insertionSort _ _ _ _ fun _ _ _ _ ↦ PrdId.le_iff_rank

/-- The keys of the dependencies in order, unless one is the PRD itself or comes twice. -/
def listedKeys (isSelf : PrdId → Prop) [DecidablePred isSelf] (deps : List PrdId) :
    Option (List (ℕ × Option Char)) :=
  if (∀ dep ∈ deps, ¬isSelf dep) ∧ (deps.map (·.key)).Nodup then
    some ((deps.map (·.key)).insertionSort KeyLE)
  else none

theorem toOption_foldlM_pushes {τ : Type} {step : List PrdId → τ → Except BacklogError (List PrdId)}
    {isSelf : PrdId → Prop} [DecidablePred isSelf] {items : List τ}
    (h : List.Forall₂ (Pushes step isSelf) items deps) :
    (items.foldlM step []).toOption.map (fun read ↦ (read.insertionSort PrdId.LE).map (·.key)) =
      listedKeys isSelf deps := by
  obtain ⟨hiff, hkeys⟩ := foldlM_pushes h [] List.nodup_nil
  rw [List.map_nil, List.nil_append] at hiff hkeys
  rw [listedKeys]
  rcases hread : items.foldlM step [] with e | read
  · rw [hread] at hiff
    rw [if_neg (mt hiff.2 (by rintro ⟨_, ⟨⟩⟩))]
    rfl
  rw [if_pos (hiff.1 ⟨read, hread⟩), ← hkeys read hread, ← map_key_insertionSort]
  rfl

/-- The list of dependencies in a body. -/
def legacyValue (deps : List PrdId) : List Char :=
  if deps = [] then "none".toList else commaList (deps.map (·.display.toList))

section Lists

variable {id : PrdId} {deps : List PrdId}

theorem toOption_legacyDependencies (hdeps : ∀ dep ∈ deps, dep.Valid) (relative : String) :
    (legacyDependencies relative id.number (legacyValue deps)).toOption.map
        (fun read ↦ read.map (·.key)) =
      listedKeys (·.number = id.number) deps := by
  rw [legacyValue]
  by_cases hnil : deps = []
  · rw [if_pos hnil, hnil]
    rfl
  · obtain ⟨dep, rest, rfl⟩ := List.exists_cons_of_ne_nil hnil
    have hnone : commaList ((dep :: rest).map (·.display.toList)) ≠ "none".toList := by
      obtain ⟨others, hothers⟩ := commaList_cons dep.display.toList (rest.map (·.display.toList))
      obtain ⟨text, htext⟩ := List.head?_eq_some_iff.1 (PrdId.head?_display dep)
      rw [List.map_cons, hothers, htext]
      intro h
      cases (List.cons.inj h).1
    have hcomma : ∀ item ∈ (dep :: rest).map (·.display.toList), ',' ∉ item :=
      List.forall_mem_map.2 fun dep hdep ↦ (hdeps dep hdep).notMem (by decide)
    have hblank : ∀ item ∈ (dep :: rest).map (·.display.toList),
        trimWhere (" \t".toList.contains ·) item = item :=
      List.forall_mem_map.2 fun dep hdep ↦ (hdeps dep hdep).trimWhere_blank
    have htrim : (splitOn ',' (commaList ((dep :: rest).map (·.display.toList)))).map
        (trimWhere (" \t".toList.contains ·)) = (dep :: rest).map (·.display.toList) :=
      map_trimWhere_splitOn (List.cons_ne_nil _ _) hcomma (by decide) hblank
    have hrounds : List.Forall₂
        (Pushes (pushLegacyDependency relative id.number) (·.number = id.number))
        (splitOn ',' (commaList ((dep :: rest).map (·.display.toList)))) (dep :: rest) :=
      pushes_legacy hdeps htrim
    have hpushes := toOption_foldlM_pushes hrounds
    rw [if_neg hnil, legacyDependencies, if_neg hnone, ← hpushes]
    cases (splitOn ',' _).foldlM (pushLegacyDependency relative id.number) [] <;> rfl

end Lists

def dependsOnLine (deps : List PrdId) : List Char :=
  "**Depends on:** ".toList ++ legacyValue deps

/-- What a document says besides identities. -/
structure PrdText (riskVocabulary : List String) where
  title : List Char
  status : String
  expectedFiles : List (List Char)
  acceptanceCriteria : List (List Char)
  riskClasses : List (List Char)
  title_ne : trim title ≠ []
  title_plain : title.any ("\t\r\n".toList.contains ·) = false
  status_mem : status ∈ ["draft", "ready", "in_progress", "completed", "blocked"]
  expectedFiles_ne : expectedFiles ≠ []
  acceptanceCriteria_ne : acceptanceCriteria ≠ []
  riskClasses_ne : riskClasses ≠ []
  isItem : ∀ item ∈ expectedFiles ++ (acceptanceCriteria ++ riskClasses), IsItem item
  vocabulary : ∀ item ∈ riskClasses, String.ofList item ∈ riskVocabulary

/-- The identity as headings write it. -/
def headingId (id : PrdId) : PrdId :=
  { id with rendering := .canonical }

def headingText (id : PrdId) (title : List Char) : List Char :=
  "# PRD-".toList ++ ((headingId id).digits ++ id.suffix.toList ++ (": ".toList ++ title))

section Documents

variable {riskVocabulary : List String}

def legacyDocument (text : PrdText riskVocabulary) (id : PrdId) (deps : List PrdId) : List Char :=
  document [headingText id text.title, dependsOnLine deps]

def structuredDocument (text : PrdText riskVocabulary) (id : PrdId) (deps : List PrdId) :
    List Char :=
  document ("---".toList ::
    [fieldLine "familiar_ai_prd" "1".toList, fieldLine "id" id.display.toList,
      fieldLine "status" text.status.toList,
      fieldLine "dependencies" (bracketed (deps.map (·.display.toList))),
      fieldLine "expected_files" (bracketed text.expectedFiles),
      fieldLine "acceptance_criteria" (bracketed text.acceptanceCriteria),
      fieldLine "risk_classes" (bracketed text.riskClasses)] ++
    "---".toList :: [headingText id text.title])

end Documents

def readDependencies (sha256 : Sha256) (layout : BacklogLayout) (path : RepositoryPath)
    (name : String) (location : PrdLocation) (text : List Char) :
    Option (List (ℕ × Option Char)) :=
  (parseCandidate sha256 layout (.regular (.ok (encodeUtf8 text))) path.text name
    location).toOption.map fun prd ↦ prd.dependencies.map (·.key)

/-! ### Headings -/

section Heading

variable {id : PrdId} {title : List Char}

theorem parseHeading_headingText (hid : id.Valid) (relative : String) :
    parseHeading relative (headingText id title) = .ok (id.number, id.suffix, title) := by
  have hvalid : (headingId id).Valid := ⟨hid.number, hid.suffix⟩
  have hcolon : ':' ∉ (headingId id).digits ++ id.suffix.toList := by
    intro hmem
    have halnum : IsAlnum ':' := hvalid.isAlnum hmem
    revert halnum
    decide
  have hstrip : stripPrefix? "# PRD-".toList (headingText id title) =
      some ((headingId id).digits ++ id.suffix.toList ++ (": ".toList ++ title)) :=
    stripPrefix?_append _ _
  have hsplit : splitFirst? ": ".toList
      ((headingId id).digits ++ id.suffix.toList ++ (": ".toList ++ title)) =
        some ((headingId id).digits ++ id.suffix.toList, title) :=
    splitFirst?_append_append hcolon title
  have htake : ((headingId id).digits ++ id.suffix.toList).takeWhile Char.isDigit =
      (headingId id).digits :=
    PrdId.takeWhile_digits hvalid
  have hdrop : ((headingId id).digits ++ id.suffix.toList).dropWhile Char.isDigit =
      id.suffix.toList :=
    PrdId.dropWhile_digits hvalid
  have hdigits : (headingId id).digits ≠ [] := PrdId.digits_ne_nil
  have hnumber : parseU64 (headingId id).digits = some id.number := PrdId.parseU64_digits hvalid
  simp only [parseHeading, hstrip, hsplit, htake, hdrop, hnumber, PrdId.idSuffix_suffix hid,
    orReject, rejectUnless, if_pos hdigits, bind, Except.bind]

theorem notMem_headingText (hid : id.Valid)
    (htitle : title.any ("\t\r\n".toList.contains ·) = false) {c : Char}
    (hc : c ∈ "\t\r\n".toList) : c ∉ headingText id title := by
  have hc' : c ∉ "# PRD-".toList ∧ c ∉ ": ".toList ∧ ¬IsAlnum c := by
    rcases (by simpa using hc : c = '\t' ∨ c = '\r' ∨ c = '\n') with rfl | rfl | rfl <;> decide
  have hnotTitle : c ∉ title := by
    intro hmem
    have hany := List.any_eq_false.1 htitle c hmem
    exact hany (List.contains_iff_mem.2 hc)
  intro hmem
  rcases List.mem_append.1 hmem with hmem | hmem
  · exact hc'.1 hmem
  · rcases List.mem_append.1 hmem with hmem | hmem
    · have hvalid : (headingId id).Valid := ⟨hid.number, hid.suffix⟩
      exact hc'.2.2 (hvalid.isAlnum hmem)
    · rcases List.mem_append.1 hmem with hmem | hmem
      · exact hc'.2.1 hmem
      · exact hnotTitle hmem

theorem headingLine_document {body : List (List Char)} (hfeed : ∀ l ∈ body, '\n' ∉ l)
    (hret : ∀ l ∈ body, '\r' ∉ l) (htitle : title.any ("\t\r\n".toList.contains ·) = false)
    (hid : id.Valid) :
    headingLine (document (headingText id title :: body)) = some (headingText id title, body) := by
  have hlines : lines (document (headingText id title :: body)) = headingText id title :: body :=
    lines_document (List.forall_mem_cons.2 ⟨notMem_headingText hid htitle (by decide), hfeed⟩)
      (List.forall_mem_cons.2 ⟨notMem_headingText hid htitle (by decide), hret⟩)
  have hheading : ¬trimWhere (" \t\r".toList.contains ·) (headingText id title) = [] :=
    trimWhere_cons_ne_nil (by decide) _
  rw [headingLine, hlines, List.dropWhile_cons_of_neg (by simpa using hheading)]
  dsimp only
  rw [stripSuffix?_of_notMem (notMem_headingText hid htitle (by decide))]
  rfl

theorem checkBody_headingText (hid : id.Valid)
    (htitle : title.any ("\t\r\n".toList.contains ·) = false) (relative : String) :
    checkBody relative (document [headingText id title]) = .ok () := by
  have hret : '\r' ∉ headingText id title := notMem_headingText hid htitle (by decide)
  have hlines : lines (document [headingText id title]) = [headingText id title] :=
    lines_document
      (List.forall_mem_singleton.2 (notMem_headingText hid htitle (by decide)))
      (List.forall_mem_singleton.2 hret)
  have htrim : trimEnd (· = '\r') (headingText id title) = headingText id title := by
    refine trimEnd_eq_self fun c hc ↦ decide_eq_false ?_
    rintro rfl
    exact hret (List.mem_of_getLast? hc)
  have hplain : ¬IsBodyMetadata (headingText id title) := by
    rintro (h | h | ⟨_, h⟩ | ⟨_, h⟩)
    · cases (List.cons.inj (List.cons.inj h).2).1
    · cases (List.cons.inj (List.cons.inj h).2).1
    · cases (List.cons.inj h).1
    · cases (List.cons.inj h).1
  rw [checkBody, hlines, forM_eq_ok]
  refine List.forall_mem_singleton.2 ?_
  dsimp only
  rw [htrim]
  exact rejectUnless_pos hplain

end Heading

section Body

variable {deps : List PrdId}

theorem notMem_dependsOnLine (hdeps : ∀ dep ∈ deps, dep.Valid) {c : Char}
    (hc : c = '\n' ∨ c = '\r') : c ∉ dependsOnLine deps := by
  have hplain : c ∉ "**Depends on:** ".toList ∧ c ∉ "none".toList ∧ c ≠ ',' ∧ c ≠ ' ' ∧
      ¬IsIdChar c := by
    rcases hc with rfl | rfl <;> decide
  obtain ⟨hlabel, hnone, hcomma, hblank, hid⟩ := hplain
  intro hmem
  rcases List.mem_append.1 hmem with hmem | hmem
  · exact hlabel hmem
  · rw [legacyValue] at hmem
    split at hmem
    · exact hnone hmem
    · rcases mem_commaList hmem with heq | heq | ⟨item, hitem, hmem⟩
      · exact hcomma heq
      · exact hblank heq
      · obtain ⟨dep, hdep, rfl⟩ := List.mem_map.1 hitem
        exact (hdeps dep hdep).notMem hid hmem

theorem dependsOn_dependsOnLine (hdeps : ∀ dep ∈ deps, dep.Valid) (relative : String) :
    dependsOn relative none [dependsOnLine deps] = .ok (some (legacyValue deps)) := by
  have hline : (stripSuffix? ['\r'] (dependsOnLine deps)).getD (dependsOnLine deps) =
      dependsOnLine deps := by
    rw [stripSuffix?_of_notMem (notMem_dependsOnLine hdeps (.inr rfl))]
    rfl
  have hblank : ¬trimWhere (" \t".toList.contains ·) (dependsOnLine deps) = [] :=
    trimWhere_cons_ne_nil (by decide) _
  have hfield : (stripPrefix? "**".toList (dependsOnLine deps)).bind (splitFirst? ":** ".toList) =
      some ("Depends on".toList, legacyValue deps) := by
    have hlabel : ':' ∉ "Depends on".toList := by decide
    show splitFirst? (':' :: "** ".toList)
      ("Depends on".toList ++ (':' :: "** ".toList ++ legacyValue deps)) = _
    rw [splitFirst?_append_append hlabel]
  simp only [dependsOn, hline, if_neg hblank, hfield, Option.isSome_none, Bool.false_eq_true,
    if_true, if_false]

end Body

/-! ### The front matter of a document -/

theorem isFieldValue_status {status : String}
    (h : status ∈ ["draft", "ready", "in_progress", "completed", "blocked"]) :
    IsFieldValue status.toList [status] := by
  have hplain : ∀ status ∈ ["draft", "ready", "in_progress", "completed", "blocked"],
      status.toList ≠ [] ∧
      status.toList.head?.all
        (fun c ↦ !Text.isWhiteSpace c && c != '"' && c != '\x27' && c != '[') ∧
      status.toList.getLast?.all (!Text.isWhiteSpace ·) ∧ '\n' ∉ status.toList ∧
      '\r' ∉ status.toList := by
    decide
  obtain ⟨hne, hhead, hlast, hfeed, hret⟩ := hplain status h
  have hvalue : IsFieldValue status.toList [String.ofList status.toList] :=
    .plain hne (fun c hc ↦ by simpa [and_assoc] using (Option.all_eq_true _ _).1 hhead c hc)
      (fun c hc ↦ by simpa using (Option.all_eq_true _ _).1 hlast c hc) hfeed hret
  rwa [String.ofList_toList] at hvalue

theorem isFieldValue_version : IsFieldValue "1".toList ["1"] := by
  refine .plain (by decide) (fun c hc ↦ ?_) (fun c hc ↦ ?_) (by decide) (by decide)
  · rw [← Option.some.inj hc]
    decide
  · rw [← Option.some.inj hc]
    decide

theorem isFieldValue_display (hid : id.Valid) :
    IsFieldValue id.display.toList [id.display] := by
  have hitem : IsItem id.display.toList := hid.isItem
  have hhead : ∀ c ∈ id.display.toList.head?,
      Text.isWhiteSpace c = false ∧ c ≠ '"' ∧ c ≠ '\x27' ∧ c ≠ '[' := by
    intro c hc
    rw [PrdId.head?_display] at hc
    rw [← Option.some.inj hc]
    decide
  have hvalue : IsFieldValue id.display.toList [String.ofList id.display.toList] :=
    .plain (fun h ↦ by simpa [h] using PrdId.head?_display id) hhead
      (fun c hc ↦ (hid.getLast?_display hc).not_isWhiteSpace) hitem.feed hitem.ret
  rwa [String.ofList_toList] at hvalue

theorem isFieldValue_identities (hdeps : ∀ dep ∈ deps, dep.Valid) :
    IsFieldValue (bracketed (deps.map (·.display.toList))) (deps.map (·.display)) := by
  have hvalue : IsFieldValue (bracketed (deps.map (·.display.toList)))
      ((deps.map (·.display.toList)).map String.ofList) :=
    .bracketed (List.forall_mem_map.2 fun dep hdep ↦ (hdeps dep hdep).isItem)
  rw [List.map_map] at hvalue
  have hdisplay : deps.map (String.ofList ∘ (·.display.toList)) = deps.map (·.display) :=
    List.map_congr_left fun dep _ ↦ String.ofList_toList
  rwa [hdisplay] at hvalue

section FrontMatter

variable {riskVocabulary : List String} {id : PrdId} {deps : List PrdId}

theorem PrdText.isItem_expectedFiles (text : PrdText riskVocabulary) :
    ∀ item ∈ text.expectedFiles, IsItem item :=
  (List.forall_mem_append.1 text.isItem).1

theorem PrdText.isItem_acceptanceCriteria (text : PrdText riskVocabulary) :
    ∀ item ∈ text.acceptanceCriteria, IsItem item :=
  (List.forall_mem_append.1 (List.forall_mem_append.1 text.isItem).2).1

theorem PrdText.isItem_riskClasses (text : PrdText riskVocabulary) :
    ∀ item ∈ text.riskClasses, IsItem item :=
  (List.forall_mem_append.1 (List.forall_mem_append.1 text.isItem).2).2

/-- The fields of the front matter. -/
def writtenFields (text : PrdText riskVocabulary) (hid : id.Valid)
    (hdeps : ∀ dep ∈ deps, dep.Valid) : List WrittenField :=
  [⟨"familiar_ai_prd", "1".toList, ["1"], by decide, isFieldValue_version⟩,
    ⟨"id", id.display.toList, [id.display], by decide, isFieldValue_display hid⟩,
    ⟨"status", text.status.toList, [text.status], by decide, isFieldValue_status text.status_mem⟩,
    ⟨"dependencies", bracketed (deps.map (·.display.toList)), deps.map (·.display), by decide,
      isFieldValue_identities hdeps⟩,
    ⟨"expected_files", bracketed text.expectedFiles, text.expectedFiles.map String.ofList,
      by decide, .bracketed text.isItem_expectedFiles⟩,
    ⟨"acceptance_criteria", bracketed text.acceptanceCriteria,
      text.acceptanceCriteria.map String.ofList, by decide,
      .bracketed text.isItem_acceptanceCriteria⟩,
    ⟨"risk_classes", bracketed text.riskClasses, text.riskClasses.map String.ofList, by decide,
      .bracketed text.isItem_riskClasses⟩]

theorem structuredDocument_eq (text : PrdText riskVocabulary) (hid : id.Valid)
    (hdeps : ∀ dep ∈ deps, dep.Valid) :
    structuredDocument text id deps =
      document ("---".toList :: (writtenFields text hid hdeps).map (·.line) ++
        "---".toList :: [headingText id text.title]) :=
  rfl

/-- The metadata in the front matter. -/
def PrdText.metadata (text : PrdText riskVocabulary) : PrdMetadata where
  contractVersion := some 1
  status := some text.status
  expectedFiles := text.expectedFiles.map String.ofList
  acceptanceCriteria := text.acceptanceCriteria.map String.ofList
  riskClasses := text.riskClasses.map String.ofList

def frontMatterProfile (id : PrdId) : BacklogProfile :=
  if StartsWith id.display "PRD " then .numberedSlug else .canonical

theorem assembleFrontMatter_written (text : PrdText riskVocabulary) (hid : id.Valid)
    (hdeps : ∀ dep ∈ deps, dep.Valid) (path : String) (current : Option String) {front : PrdId}
    (hfront : parsePrdId id.display (frontMatterProfile id) = .ok front) :
    assembleFrontMatter path ⟨(writtenFields text hid hdeps).map (·.entry), current⟩ =
      (((deps.map (·.display)).foldlM
          (pushDependency path (frontMatterProfile id) (· == front)) []).orHalt).map
        fun read ↦ ⟨front, read.insertionSort PrdId.LE, text.metadata⟩ := by
  have hentries : (writtenFields text hid hdeps).map (·.entry) =
    [("familiar_ai_prd", ["1"]), ("id", [id.display]), ("status", [text.status]),
      ("dependencies", deps.map (·.display)),
      ("expected_files", text.metadata.expectedFiles),
      ("acceptance_criteria", text.metadata.acceptanceCriteria),
      ("risk_classes", text.metadata.riskClasses)] := rfl
  rw [hentries]
  set fields : FrontMatterFields := ⟨_, current⟩ with hfields
  have hrequired : (requiredFields.forM fun key ↦
      rejectUnless (fields.values.lookup key).isSome path
        ("missing structured PRD field '" ++ key ++ "'")) = .ok () :=
    forM_eq_ok.2 fun key hkey ↦ if_pos <| by
      revert key
      simp [requiredFields, hfields, List.lookup_cons]
  have hversion : fields.one path "familiar_ai_prd" = .ok "1" := rfl
  have hinteger : parseU64 "1".toList = some 1 := by decide
  have hidText : fields.one path "id" = .ok id.display := rfl
  have hstatus : fields.one path "status" = .ok text.status := rfl
  have hdependencies : fields.index "dependencies" = .ok (deps.map (·.display)) := rfl
  have hfiles : fields.index "expected_files" = .ok text.metadata.expectedFiles := rfl
  have hcriteria : fields.index "acceptance_criteria" = .ok text.metadata.acceptanceCriteria := rfl
  have hrisk : fields.index "risk_classes" = .ok text.metadata.riskClasses := rfl
  have hnonempty : (["expected_files", "acceptance_criteria", "risk_classes"].forM fun key ↦ do
      let values ← fields.index key
      rejectUnless (values ≠ []) path ("structured PRD field '" ++ key ++ "' must not be empty")) =
        .ok () := by
    refine forM_eq_ok.2 fun key hkey ↦ ?_
    rcases (by simpa using hkey : key = "expected_files" ∨ key = "acceptance_criteria" ∨
      key = "risk_classes") with rfl | rfl | rfl
    · rw [hfiles, ok_bind]
      exact rejectUnless_pos (mt List.map_eq_nil_iff.1 text.expectedFiles_ne)
    · rw [hcriteria, ok_bind]
      exact rejectUnless_pos (mt List.map_eq_nil_iff.1 text.acceptanceCriteria_ne)
    · rw [hrisk, ok_bind]
      exact rejectUnless_pos (mt List.map_eq_nil_iff.1 text.riskClasses_ne)
  have hresources : fields.values.lookup "resources" = none := rfl
  have hgates : fields.values.lookup "external_gates" = none := rfl
  have hid' : ((parsePrdId id.display (if StartsWith id.display "PRD " then .numberedSlug
      else .canonical)).mapError (malformed path)).orHalt = .ok front :=
    orHalt_eq_ok.2 (mapError_eq_ok.2 hfront)
  simp only [assembleFrontMatter, hrequired, hversion, hinteger, hidText, hid', hstatus,
    hdependencies, hfiles, hcriteria, hrisk, hnonempty, hresources, hgates, orReject,
    rejectUnless_pos, text.status_mem, ok_bind]
  rw [← frontMatterProfile]
  cases (List.foldlM _ [] (deps.map (·.display)) : Except BacklogError (List PrdId)) <;> rfl

end FrontMatter

/-! ### Reading a document -/

theorem RepositoryPath.new_text (path : RepositoryPath) : RepositoryPath.new path.text = .ok path :=
  dif_pos path.valid

section Read

variable {sha256 : Sha256} {layout : BacklogLayout} {path : RepositoryPath} {name : String}
  {location : PrdLocation} {id : PrdId} {width : ℕ} {deps : List PrdId} {body : List (List Char)}

theorem parseCanonicalContent_dependencies {c : Candidate} {title : List Char}
    {value : Option (List Char)} (hid : id.Valid) (hkey : (c.number, c.suffix) = id.key)
    (hpath : c.relative = path.text) (hne : trim title ≠ [])
    (hplain : title.any ("\t\r\n".toList.contains ·) = false)
    (hvalue : dependsOn c.relative none body = .ok value)
    (hboth : ¬(c.structured.isSome ∧ value.isSome))
    (hfront : checkFrontMatterId c.relative c.number c.suffix c.structured = .ok ()) :
    (parseCanonicalContent c (headingText id title) body).toOption.map
        (fun prd ↦ prd.dependencies.map (·.key)) =
      (c.dependencies value).toOption.map fun deps ↦ deps.map (·.key) := by
  obtain ⟨hnumber, hsuffix⟩ := Prod.mk.inj hkey
  have hidentity : id.number = c.number ∧ id.suffix = c.suffix := ⟨hnumber.symm, hsuffix.symm⟩
  have htitle : ¬(trim title = [] ∨ title.any ("\t\r\n".toList.contains ·) = true) := by
    rw [hplain]
    simpa using hne
  have hnew : (RepositoryPath.new c.relative).orHalt = .ok path := by
    rw [hpath, RepositoryPath.new_text]
    rfl
  simp only [parseCanonicalContent, parseHeading_headingText hid, rejectUnless, if_pos hidentity,
    if_pos htitle, hvalue, if_pos hboth, hfront, hnew, bind, Except.bind]
  cases c.dependencies value <;> rfl

theorem parseCandidate_frontMatter_error {text : List Char} {e : Halt BacklogError}
    (hprofile : layout.profile = .canonical)
    (hname : filenameIdentity name .canonical = some (.ok (id.number, id.suffix, width)))
    (hbom : stripPrefix? ['\uFEFF'] text = none)
    (hfront : parseFrontMatter text path.text = .error e) :
    parseCandidate sha256 layout (.regular (.ok (encodeUtf8 text))) path.text name location =
      .error e := by
  have hread : readFile path.text (.ok (encodeUtf8 text)) = .ok text := by
    rw [readFile, decodeUtf8?_eq_some.2 rfl]
    rfl
  simp only [parseCandidate, inspectFile, hprofile, hname, orPanic, Except.mapError, Except.orHalt,
    hread, hbom, Option.getD_none, hfront, bind, Except.bind]

theorem parseCandidate_canonical {text document heading : List Char}
    {structured : Option ParsedFrontMatter} (hprofile : layout.profile = .canonical)
    (hpolicy : layout.metadataPolicy = .incremental)
    (hname : filenameIdentity name .canonical = some (.ok (id.number, id.suffix, width)))
    (hbom : stripPrefix? ['\uFEFF'] text = none)
    (hfront : parseFrontMatter text path.text = .ok (structured, document))
    (hrisk : structured.forM (fun front ↦ checkRiskClasses path.text layout.riskVocabulary front.metadata) = .ok ())
    (hbody : structured.forM (fun _ ↦ checkBody path.text document) = .ok ())
    (hheading : headingLine document = some (heading, body)) :
    parseCandidate sha256 layout (.regular (.ok (encodeUtf8 text))) path.text name location =
      parseCanonicalContent
        { relative := path.text, location, number := id.number, suffix := id.suffix, width
          contentHash := String.ofList ((sha256 text).toList.flatMap hexByte), structured }
        heading body := by
  have hread : readFile path.text (.ok (encodeUtf8 text)) = .ok text := by
    rw [readFile, decodeUtf8?_eq_some.2 rfl]
    rfl
  have hincremental : ¬(structured.isNone ∧ layout.metadataPolicy = .strict) := by
    rw [hpolicy]
    exact fun h ↦ nomatch h.2
  simp only [parseCandidate, inspectFile, hprofile, hname, orPanic, Except.mapError, Except.orHalt,
    hread, hbom, Option.getD_none, hfront, rejectUnless, if_pos hincremental, hrisk, hbody,
    hheading, orReject, bind, Except.bind]

theorem readDependencies_legacyDocument (text : PrdText layout.riskVocabulary)
    (hprofile : layout.profile = .canonical) (hpolicy : layout.metadataPolicy = .incremental)
    (hname : filenameIdentity name .canonical = some (.ok (id.number, id.suffix, width)))
    (hid : id.Valid) (hdeps : ∀ dep ∈ deps, dep.Valid) :
    readDependencies sha256 layout path name location (legacyDocument text id deps) =
      listedKeys (·.number = id.number) deps := by
  have hfenced : ¬IsFenced (legacyDocument text id deps) := by
    rintro (⟨rest, hrest⟩ | ⟨rest, hrest⟩)
    · cases (List.cons.inj hrest).1
    · cases (List.cons.inj hrest).1
  have hfront : parseFrontMatter (legacyDocument text id deps) path.text =
      .ok (none, legacyDocument text id deps) := by
    rw [parseFrontMatter, if_neg hfenced]
  have hheading : headingLine (legacyDocument text id deps) =
      some (headingText id text.title, [dependsOnLine deps]) := headingLine_document
    (List.forall_mem_singleton.2 (notMem_dependsOnLine hdeps (.inl rfl)))
    (List.forall_mem_singleton.2 (notMem_dependsOnLine hdeps (.inr rfl))) text.title_plain hid
  have hvalue := dependsOn_dependsOnLine hdeps path.text
  rw [readDependencies, parseCandidate_canonical hprofile hpolicy hname rfl hfront rfl rfl hheading,
    ← toOption_legacyDependencies hdeps path.text]
  refine Eq.trans (parseCanonicalContent_dependencies hid rfl rfl text.title_ne text.title_plain
    hvalue (fun h ↦ Bool.false_ne_true h.1) rfl) ?_
  dsimp only [Candidate.dependencies]
  cases legacyDependencies path.text id.number (legacyValue deps) <;> rfl

theorem readDependencies_structuredDocument (text : PrdText layout.riskVocabulary)
    (hprofile : layout.profile = .canonical) (hpolicy : layout.metadataPolicy = .incremental)
    (hname : filenameIdentity name .canonical = some (.ok (id.number, id.suffix, width)))
    (hid : id.Valid) (hdeps : ∀ dep ∈ deps, dep.Valid) :
    readDependencies sha256 layout path name location (structuredDocument text id deps) =
      listedKeys (·.key = id.key) deps := by
  obtain ⟨front, hfront, hkey⟩ := PrdId.parsePrdId_display hid (frontMatterProfile id)
  have hkeys : ((writtenFields text hid hdeps).map (·.key)).Nodup := by
    have hnames : (writtenFields text hid hdeps).map (·.key) =
        ["familiar_ai_prd", "id", "status", "dependencies", "expected_files",
          "acceptance_criteria", "risk_classes"] := rfl
    rw [hnames]
    decide
  have hfields : writtenFields text hid hdeps ≠ [] := List.cons_ne_nil _ _
  obtain ⟨current, hparse⟩ :=
    parseFrontMatter_written hfields hkeys [headingText id text.title] path.text
  rw [assembleFrontMatter_written text hid hdeps path.text current hfront,
    ← structuredDocument_eq text hid hdeps] at hparse
  have hrounds : List.Forall₂
      (Pushes (pushDependency path.text (frontMatterProfile id) (· == front)) (·.key = id.key))
      (deps.map (·.display)) deps := by
    rw [List.forall₂_map_left_iff, List.forall₂_same]
    exact fun dep hdep ↦ pushes_structured (hdeps dep hdep) hkey
  have hpushes := toOption_foldlM_pushes hrounds
  rw [readDependencies, ← hpushes]
  cases hread : (deps.map (·.display)).foldlM
      (pushDependency path.text (frontMatterProfile id) (· == front)) [] with
  | error e =>
    rw [hread] at hparse
    rw [parseCandidate_frontMatter_error hprofile hname rfl hparse]
    rfl
  | ok read =>
    rw [hread] at hparse
    have hrisk : checkRiskClasses path.text layout.riskVocabulary text.metadata = .ok () :=
      forM_eq_ok.2 (List.forall_mem_map.2 fun item hitem ↦
        rejectUnless_pos (text.vocabulary item hitem))
    have hheading : headingLine (document [headingText id text.title]) =
        some (headingText id text.title, []) :=
      headingLine_document (List.forall_mem_nil _) (List.forall_mem_nil _) text.title_plain hid
    have hidentity : checkFrontMatterId path.text id.number id.suffix
        (some ⟨front, read.insertionSort PrdId.LE, text.metadata⟩) = .ok () :=
      rejectUnless_pos (Prod.mk.inj hkey)
    rw [parseCandidate_canonical hprofile hpolicy hname rfl hparse hrisk
      (checkBody_headingText hid text.title_plain path.text) hheading]
    refine Eq.trans (parseCanonicalContent_dependencies hid rfl rfl text.title_ne text.title_plain
      (rfl : dependsOn path.text none [] = .ok none) (fun h ↦ Bool.false_ne_true h.2) hidentity) ?_
    rfl

end Read

/-- **Agreement of the grammars.** The two documents are read with the same dependencies exactly
when no list that the front matter accepts names an identity with the number of the PRD. -/
theorem dependencies_agree_iff (sha256 : Sha256) {layout : BacklogLayout}
    (hprofile : layout.profile = .canonical) (hpolicy : layout.metadataPolicy = .incremental)
    (text : PrdText layout.riskVocabulary) (path : RepositoryPath) {name : String}
    (location : PrdLocation) {id : PrdId} {width : ℕ} (hid : id.Valid)
    (hname : filenameIdentity name .canonical = some (.ok (id.number, id.suffix, width)))
    {deps : List PrdId} (hdeps : ∀ dep ∈ deps, dep.Valid) :
    readDependencies sha256 layout path name location (legacyDocument text id deps) =
        readDependencies sha256 layout path name location (structuredDocument text id deps) ↔
      (id.key ∉ deps.map (·.key) → (deps.map (·.key)).Nodup →
        ∀ dep ∈ deps, dep.number ≠ id.number) := by
  rw [readDependencies_legacyDocument text hprofile hpolicy hname hid hdeps,
    readDependencies_structuredDocument text hprofile hpolicy hname hid hdeps]
  have hself : id.key ∉ deps.map (·.key) ↔ ∀ dep ∈ deps, ¬dep.key = id.key := by
    simp
  rw [hself, listedKeys, listedKeys]
  by_cases hnodup : (deps.map (·.key)).Nodup
  · by_cases hnumber : ∀ dep ∈ deps, ¬dep.number = id.number
    · have hkey (dep : PrdId) (hdep : dep ∈ deps) : ¬dep.key = id.key :=
        mt (fun h ↦ (Prod.mk.inj h).1) (hnumber dep hdep)
      rw [if_pos ⟨hnumber, hnodup⟩, if_pos ⟨hkey, hnodup⟩]
      exact iff_of_true rfl fun _ _ ↦ hnumber
    · rw [if_neg fun h ↦ hnumber h.1]
      by_cases hkey : ∀ dep ∈ deps, ¬dep.key = id.key
      · rw [if_pos ⟨hkey, hnodup⟩]
        exact iff_of_false nofun fun h ↦ hnumber (h hkey hnodup)
      · rw [if_neg fun h ↦ hkey h.1]
        exact iff_of_true rfl fun h ↦ absurd h hkey
  · rw [if_neg fun h ↦ hnodup h.2, if_neg fun h ↦ hnodup h.2]
    exact iff_of_true rfl fun _ h ↦ absurd h hnodup

namespace SampleDocument

theorem activeDir_valid : IsRepositoryPath "docs/prds" := by
  decide

theorem archivedDir_valid : IsRepositoryPath "docs/prds/done" := by
  decide

def layout : BacklogLayout where
  profile := .canonical
  activeDir := ⟨_, activeDir_valid⟩
  archivedDir := ⟨_, archivedDir_valid⟩
  metadataPolicy := .incremental
  riskVocabulary := ["core"]

theorem isItem : IsItem "core".toList where
  comma := by decide
  feed := by decide
  ret := by decide
  trim := by decide
  head := ⟨'c', "ore".toList, rfl, by decide, by decide, by decide⟩

def text : PrdText layout.riskVocabulary where
  title := "Title".toList
  status := "ready"
  expectedFiles := ["core".toList]
  acceptanceCriteria := ["core".toList]
  riskClasses := ["core".toList]
  title_ne := by decide
  title_plain := by decide
  status_mem := by decide
  expectedFiles_ne := by decide
  acceptanceCriteria_ne := by decide
  riskClasses_ne := by decide
  isItem := by simpa using isItem
  vocabulary := by decide

def sha256 : Sha256 :=
  fun _ ↦ Vector.replicate 32 0

def path : RepositoryPath :=
  ⟨"docs/prds/PRD-5.md", by decide⟩

/-- How the document of the fifth PRD is read. -/
def read : List Char → Option (List (ℕ × Option Char)) :=
  readDependencies sha256 layout path "PRD-5.md" .active

end SampleDocument

theorem SampleDocument.filenameIdentity_name :
    filenameIdentity "PRD-5.md" .canonical = some (.ok (5, none, 0)) := by
  decide

/-- Without another identity of its number, both documents of the PRD are read alike. -/
theorem dependencies_agree_sample :
    SampleDocument.read (legacyDocument SampleDocument.text ⟨5, none, .canonical⟩
        [⟨7, none, .canonical⟩, ⟨3, some 'b', .numberedSlug 3⟩]) =
      SampleDocument.read (structuredDocument SampleDocument.text ⟨5, none, .canonical⟩
        [⟨7, none, .canonical⟩, ⟨3, some 'b', .numberedSlug 3⟩]) := by
  refine (dependencies_agree_iff SampleDocument.sha256
    (rfl : SampleDocument.layout.profile = .canonical) rfl SampleDocument.text SampleDocument.path
    .active (.plain (by decide +kernel)) SampleDocument.filenameIdentity_name ?_).2 ?_
  · exact List.forall_mem_cons.2
      ⟨.plain (by decide +kernel),
        List.forall_mem_singleton.2 (.suffixed (by decide +kernel) (by decide))⟩
  · decide

/-- The fifth PRD may depend on the one with a suffix in its front matter only. -/
theorem suffixed_dependency_refused :
    SampleDocument.read (legacyDocument SampleDocument.text ⟨5, none, .canonical⟩
        [⟨5, some 'a', .canonical⟩]) = none ∧
      SampleDocument.read (structuredDocument SampleDocument.text ⟨5, none, .canonical⟩
        [⟨5, some 'a', .canonical⟩]) = some [(5, some 'a')] := by
  have hdeps : ∀ dep ∈ [(⟨5, some 'a', .canonical⟩ : PrdId)], dep.Valid :=
    List.forall_mem_singleton.2 (.suffixed (by decide +kernel) (by decide))
  rw [SampleDocument.read,
    readDependencies_legacyDocument SampleDocument.text rfl rfl SampleDocument.filenameIdentity_name
      (.plain (by decide +kernel)) hdeps,
    readDependencies_structuredDocument SampleDocument.text rfl rfl
      SampleDocument.filenameIdentity_name (.plain (by decide +kernel)) hdeps]
  decide

end FamiliarAi
