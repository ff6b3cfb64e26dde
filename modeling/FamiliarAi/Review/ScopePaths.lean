import FamiliarAi.Review.Scope
import FamiliarAi.Text.Split

/-!
# Scope paths

The grammar of scope paths is written twice: the configuration validates the paths that it declares,
and the review normalizes the paths that it matches. Both accept the same expressions and read the
same entry from each (`scopePath_agreed`). What is accepted is told by two conditions that both
readers check, one on the expression and one on the path in it (`PlainExpression`, `PlainBody`).
-/

namespace FamiliarAi

open Text

/-- A path expression of the configuration without its ending, and whether it is a directory. -/
def splitDirectory (text : List Char) : List Char × Bool :=
  match stripSuffix? ['/', '*', '*'] text with
  | some body => (body, true)
  | none =>
    match stripSuffix? ['/'] text with
    | some body => (body, true)
    | none => (text, false)

/-- `validate_scope_path` of the configuration. -/
def validateScopePath (value : String) : Except String String :=
  let text := value.toList
  if text = [] then .error "empty path expression"
  else if text.head? = some '/' then .error "absolute paths are not supported"
  else if text.contains '\\' then .error "backslashes are not supported"
  else if text.any Text.isWhiteSpace then .error "whitespace is not supported in path expressions"
  else if text.head? = some '~' then .error "home expansion is not supported"
  else if text.contains '$' then .error "variable expansion is not supported"
  else if text.contains ':' then .error "URI forms are not supported"
  else
    let (body, directory) := splitDirectory text
    if body = [] then .error "empty path expression"
    else if body.any (['*', '?', '\x7b', '\x7d', '[', ']'].contains ·) then
      .error "glob syntax other than a terminal '/**' is not supported"
    else if (splitOn '/' body).any fun part ↦
        part = [] ∨ part = ['.'] ∨ part = ['.', '.'] then
      .error "empty, '.' or '..' path components are not supported"
    else .ok (String.ofList (if directory then body ++ ['/'] else body))

/-- The expression begins like a path, and no character of it is special. -/
structure PlainExpression (text : List Char) : Prop where
  nonempty : text ≠ []
  relative : text.head? ≠ some '/'
  notHome : text.head? ≠ some '~'
  plain : ∀ c ∈ text, c ≠ '\\' ∧ Text.isWhiteSpace c = false ∧ c ≠ '$' ∧ c ≠ ':'

/-- The path has no globs, and all of its components are names. -/
structure PlainBody (body : List Char) : Prop where
  nonempty : body ≠ []
  noGlob : ∀ c ∈ body, c ∉ ['*', '?', '\x7b', '\x7d', '[', ']']
  names : ∀ part ∈ splitOn '/' body, part ≠ [] ∧ part ≠ ['.'] ∧ part ≠ ['.', '.']

/-- The normal form of a path. -/
def scopePathText (body : List Char) : ExpectedMatchKind → List Char
  | .exactFile => body
  | .directory => body ++ ['/']

def entryKind (normalized : String) : ExpectedMatchKind :=
  if normalized.toList.getLast? = some '/' then .directory else .exactFile

section Grammar

variable {s n : String} {kind : ExpectedMatchKind} {text body : List Char}

theorem plainExpression_iff : PlainExpression text ↔
    ¬text = [] ∧ ¬text.head? = some '/' ∧ ¬text.contains '\\' = true ∧
      ¬text.any Text.isWhiteSpace = true ∧ ¬text.head? = some '~' ∧ ¬text.contains '$' = true ∧
        ¬text.contains ':' = true := by
  simp only [List.contains_iff_mem, List.any_eq_true, not_exists, not_and]
  constructor
  · rintro ⟨hne, hrelative, hhome, hplain⟩
    exact ⟨hne, hrelative, fun h ↦ (hplain _ h).1 rfl,
      fun c hc hwhite ↦ Bool.false_ne_true ((hplain c hc).2.1.symm.trans hwhite), hhome,
      fun h ↦ (hplain _ h).2.2.1 rfl, fun h ↦ (hplain _ h).2.2.2 rfl⟩
  · rintro ⟨hne, hrelative, hbackslash, hwhite, hhome, hdollar, hcolon⟩
    refine ⟨hne, hrelative, hhome, fun c hc ↦ ⟨?_, Bool.eq_false_iff.2 (hwhite c hc), ?_, ?_⟩⟩
    · rintro rfl
      exact hbackslash hc
    · rintro rfl
      exact hdollar hc
    · rintro rfl
      exact hcolon hc

/-- The conditions on a path, as both readers check them. -/
theorem plainBody_iff : PlainBody body ↔
    ¬body = [] ∧ ¬body.any (['*', '?', '\x7b', '\x7d', '[', ']'].contains ·) = true ∧
      ¬((splitOn '/' body).any fun part ↦ part = [] ∨ part = ['.'] ∨ part = ['.', '.']) = true := by
  simp only [List.any_eq_true, List.contains_iff_mem, decide_eq_true_eq, not_exists, not_and,
    not_or]
  exact ⟨fun ⟨hne, hglob, hnames⟩ ↦ ⟨hne, hglob, hnames⟩,
    fun ⟨hne, hglob, hnames⟩ ↦ ⟨hne, hglob, hnames⟩⟩

/-- What the review accepts. -/
theorem normalizeScopePath_eq_ok : normalizeScopePath s = .ok (n, kind) ↔
    PlainExpression s.toList ∧ PlainBody (splitKind s.toList).1 ∧ (splitKind s.toList).2 = kind ∧
      n = String.ofList (scopePathText (splitKind s.toList).1 kind) := by
  rw [plainExpression_iff, plainBody_iff, normalizeScopePath]
  generalize splitKind s.toList = split
  obtain ⟨body, kind'⟩ := split
  have hresult : kind' = kind ∧ n = String.ofList (scopePathText body kind) ↔
      Except.ok (ε := ScopePathRule) (String.ofList (scopePathText body kind'), kind') =
        .ok (n, kind) := by
    rw [Except.ok.injEq, Prod.mk.injEq]
    constructor
    · rintro ⟨rfl, rfl⟩
      exact ⟨rfl, rfl⟩
    · rintro ⟨rfl, rfl⟩
      exact ⟨rfl, rfl⟩
  simp only [Except.ite_error_eq_ok, hresult, and_assoc]
  cases kind' with
  | exactFile => exact Iff.rfl
  | directory => exact Iff.rfl

/-- Both readers take an expression apart alike. -/
theorem splitDirectory_eq :
    splitDirectory text = ((splitKind text).1, decide ((splitKind text).2 = .directory)) := by
  rw [splitDirectory, splitKind]
  cases stripSuffix? ['/', '*', '*'] text with
  | some body => rfl
  | none =>
    cases stripSuffix? ['/'] text with
    | some body => rfl
    | none => rfl

/-- What the configuration accepts. -/
theorem validateScopePath_eq_ok : validateScopePath s = .ok n ↔
    PlainExpression s.toList ∧ PlainBody (splitKind s.toList).1 ∧
      n = String.ofList (scopePathText (splitKind s.toList).1 (splitKind s.toList).2) := by
  rw [plainExpression_iff, plainBody_iff, validateScopePath, splitDirectory_eq]
  generalize splitKind s.toList = split
  obtain ⟨body, kind'⟩ := split
  have hresult : String.ofList (if decide (kind' = .directory) then body ++ ['/'] else body) = n ↔
      n = String.ofList (scopePathText body kind') := by
    cases kind' with
    | exactFile => exact eq_comm
    | directory => exact eq_comm
  simp only [Except.ite_error_eq_ok, Except.ok.injEq, hresult, and_assoc]

theorem eq_of_splitKind (h : splitKind text = (body, kind)) :
    kind = .directory ∧ (∃ ending, text = body ++ '/' :: ending) ∨
      kind = .exactFile ∧ text = body := by
  rw [splitKind] at h
  cases hglob : stripSuffix? ['/', '*', '*'] text with
  | some front =>
    rw [hglob] at h
    cases h
    exact .inl ⟨rfl, ['*', '*'], stripSuffix?_eq_some hglob⟩
  | none =>
    rcases hslash : stripSuffix? ['/'] text with _ | front
    · rw [hglob, hslash] at h
      cases h
      exact .inr ⟨rfl, rfl⟩
    rw [hglob, hslash] at h
    cases h
    exact .inl ⟨rfl, [], stripSuffix?_eq_some hslash⟩

/-- The path of an expression begins it. -/
theorem prefix_of_splitKind (h : splitKind text = (body, kind)) : body <+: text := by
  rcases eq_of_splitKind h with ⟨-, ending, rfl⟩ | ⟨-, rfl⟩
  · exact List.prefix_append _ _
  · exact List.prefix_rfl

theorem splitKind_directory (body : List Char) :
    splitKind (body ++ ['/']) = (body, .directory) := by
  have hglob : stripSuffix? ['/', '*', '*'] (body ++ ['/']) = none := by
    rcases hfront : stripSuffix? ['/', '*', '*'] (body ++ ['/']) with _ | front
    · rfl
    have hlast := congrArg List.getLast? (stripSuffix?_eq_some hfront)
    rw [List.getLast?_concat, List.getLast?_append_of_ne_nil _ (List.cons_ne_nil _ _)] at hlast
    cases hlast
  rw [splitKind, hglob, stripSuffix?_append]

theorem splitKind_scopePathText (h : splitKind text = (body, kind)) :
    splitKind (scopePathText body kind) = (body, kind) := by
  rcases eq_of_splitKind h with ⟨rfl, -⟩ | ⟨rfl, rfl⟩
  · exact splitKind_directory body
  · exact h

theorem PlainExpression.normalized (hexpression : PlainExpression text) (hpath : PlainBody body)
    (h : body <+: text) : PlainExpression (scopePathText body kind) := by
  obtain ⟨rest, rfl⟩ := h
  obtain ⟨c, front, rfl⟩ := List.exists_cons_of_ne_nil hpath.nonempty
  have hbody : ∀ d ∈ c :: front, d ≠ '\\' ∧ Text.isWhiteSpace d = false ∧ d ≠ '$' ∧ d ≠ ':' :=
    fun d hd ↦ hexpression.plain d (List.mem_append_left _ hd)
  cases kind with
  | exactFile => exact ⟨List.cons_ne_nil _ _, hexpression.relative, hexpression.notHome, hbody⟩
  | directory =>
    refine ⟨List.cons_ne_nil _ _, hexpression.relative, hexpression.notHome, fun d hd ↦ ?_⟩
    rcases List.mem_append.1 hd with hd | hd
    · exact hbody d hd
    · rw [List.mem_singleton.1 hd]
      decide

theorem entryKind_scopePathText (h : splitKind text = (body, kind)) :
    entryKind (String.ofList (scopePathText body kind)) = kind := by
  rw [entryKind, String.toList_ofList]
  rcases eq_of_splitKind h with ⟨rfl, -⟩ | ⟨rfl, htext⟩
  · rw [scopePathText, List.getLast?_concat, if_pos rfl]
  · rw [scopePathText, if_neg]
    intro hlast
    obtain ⟨front, hfront⟩ := List.getLast?_eq_some_iff.1 hlast
    rw [htext, hfront, splitKind_directory] at h
    cases (Prod.mk.inj h).2

end Grammar

/-- The path is the entry's own, or lies below the directory of the entry at a component boundary.
-/
def CoveredBy (kind : ExpectedMatchKind) (normalized path : String) : Prop :=
  match kind with
  | .exactFile => path = normalized
  | .directory => ∃ directory below, normalized.toList = directory ++ ['/'] ∧ below ≠ [] ∧
      splitOn '/' path.toList = splitOn '/' directory ++ splitOn '/' below

theorem coveredBy_of_startsWith {directory : List Char} {normalized path : String}
    (hnormalized : normalized.toList = directory ++ ['/']) (hstarts : StartsWith path normalized)
    (hsize : normalized.utf8ByteSize < path.utf8ByteSize) :
    CoveredBy .directory normalized path := by
  obtain ⟨below, hbelow⟩ := hstarts
  refine ⟨directory, below, hnormalized, ?_, ?_⟩
  · rintro rfl
    rw [← byteSize_toList, ← byteSize_toList, ← hbelow, List.append_nil] at hsize
    exact lt_irrefl _ hsize
  · rw [← hbelow, hnormalized, List.append_assoc, List.singleton_append, splitOn_append_cons]

/-- What the readers of a path expression agree on. -/
structure ScopePathAgreed (s : String) : Prop where
  accepted : ∀ n, validateScopePath s = .ok n ↔ ∃ kind, normalizeScopePath s = .ok (n, kind)
  kinds : ∀ n kind, normalizeScopePath s = .ok (n, kind) → entryKind n = kind
  stable : ∀ n kind, normalizeScopePath s = .ok (n, kind) →
    normalizeScopePath n = .ok (n, kind) ∧ validateScopePath n = .ok n
  allowed : ∀ n kind, normalizeScopePath s = .ok (n, kind) →
    ∀ path, ScopePathEntry.Matches ⟨n, kind⟩ path → CoveredBy kind n path
  expected : ∀ n kind, normalizeScopePath s = .ok (n, kind) → ∀ sourceLine bulletText path,
    ExpectedFileEntry.Matches ⟨sourceLine, bulletText, n, kind⟩ path → CoveredBy kind n path

theorem validateScopePath_iff {s n : String} :
    validateScopePath s = .ok n ↔ ∃ kind, normalizeScopePath s = .ok (n, kind) := by
  rw [validateScopePath_eq_ok]
  constructor
  · rintro ⟨hexpression, hpath, hn⟩
    exact ⟨_, normalizeScopePath_eq_ok.2 ⟨hexpression, hpath, rfl, hn⟩⟩
  · rintro ⟨kind, h⟩
    obtain ⟨hexpression, hpath, rfl, hn⟩ := normalizeScopePath_eq_ok.1 h
    exact ⟨hexpression, hpath, hn⟩

section Accepted

variable {s n : String} {kind : ExpectedMatchKind}

theorem normalizeScopePath_normalized (h : normalizeScopePath s = .ok (n, kind)) :
    normalizeScopePath n = .ok (n, kind) := by
  obtain ⟨hexpression, hpath, hkind, rfl⟩ := normalizeScopePath_eq_ok.1 h
  have hsplit : splitKind s.toList = ((splitKind s.toList).1, kind) := by rw [← hkind]
  have hagain := splitKind_scopePathText hsplit
  rw [normalizeScopePath_eq_ok, String.toList_ofList, hagain]
  exact ⟨hexpression.normalized hpath (prefix_of_splitKind hsplit), hpath, rfl, rfl⟩

theorem coveredBy_of_matches (h : normalizeScopePath s = .ok (n, kind)) {path : String}
    (hmatches : ScopePathEntry.Matches ⟨n, kind⟩ path) : CoveredBy kind n path := by
  obtain ⟨-, -, hkind, rfl⟩ := normalizeScopePath_eq_ok.1 h
  cases kind with
  | exactFile => exact hmatches
  | directory => exact coveredBy_of_startsWith String.toList_ofList hmatches.1 hmatches.2

end Accepted

/-- The configuration and the review accept the same path expressions and read the same entry from
each. Reading it again changes nothing, and it covers only paths that are its own or lie below it at
a component boundary. -/
theorem scopePath_agreed (s : String) : ScopePathAgreed s where
  accepted _ := validateScopePath_iff
  kinds n kind h := by
    obtain ⟨-, -, hkind, rfl⟩ := normalizeScopePath_eq_ok.1 h
    have hsplit : splitKind s.toList = ((splitKind s.toList).1, kind) := by rw [← hkind]
    exact entryKind_scopePathText hsplit
  stable n kind h := by
    have hagain := normalizeScopePath_normalized h
    exact ⟨hagain, validateScopePath_iff.2 ⟨kind, hagain⟩⟩
  allowed _ _ h _ hmatches := coveredBy_of_matches h hmatches
  expected _ kind h _ _ _ hmatches := coveredBy_of_matches h (by cases kind <;> exact hmatches)

example : validateScopePath "src/app/**" = .ok "src/app/" := by decide

example : normalizeScopePath "src//app" = .error .invalidComponent := by decide

end FamiliarAi
