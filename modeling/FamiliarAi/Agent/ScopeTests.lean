import FamiliarAi.Agent.WriteScope

/-!
# The tests of a path and the matcher

The executor compares a resolved path with the entries by a test of its own. It agrees with the
matcher of the review but for two things: a declared directory authorises a file of its own name,
which the matcher does not, and a backslash in a name is read as a slash before it is compared. On a
path that is neither (`PlainPath`), what the test allows is what the matcher authorises.
-/

namespace FamiliarAi

open Files Text List

variable {entries : List ExpectedFileEntry} {entry : ExpectedFileEntry} {text : List Char}
  {entries' : List ExpectedFileEntry} {pieces : List (List Char)}

/-- What the grammar makes of an entry: no backslash stands in it, and it ends in a slash just when
it is a directory. -/
structure ExpectedFileEntry.Declared (entry : ExpectedFileEntry) : Prop where
  backslash : '\\' ∉ entry.normalized.toList
  exactFile : entry.matchKind = .exactFile → stripSuffix? ['/'] entry.normalized.toList = none
  directory : entry.matchKind = .directory → ∃ body, entry.normalized.toList = body ++ ['/']

theorem splitKind_cases (expression : List Char) :
    (∃ after, expression = (splitKind expression).1 ++ after ∧
        (splitKind expression).2 = .directory) ∨
      stripSuffix? ['/'] expression = none ∧ splitKind expression = (expression, .exactFile) := by
  rw [splitKind]
  split
  · rename_i body hbody
    exact .inl ⟨_, stripSuffix?_eq_some hbody, rfl⟩
  · split
    · rename_i body hbody
      exact .inl ⟨_, stripSuffix?_eq_some hbody, rfl⟩
    · exact .inr ⟨‹_›, rfl⟩

theorem passed_check {ε α : Type} {c : Prop} [Decidable c] {e : ε} {rest : Except ε α} {a : α}
    (h : (if c then .error e else rest) = .ok a) : ¬c ∧ rest = .ok a := by
  split_ifs at h with hc
  exact ⟨hc, h⟩

theorem normalizeScopePath_declared {expression normalized : String} {kind : ExpectedMatchKind}
    (h : normalizeScopePath expression = .ok (normalized, kind)) (line : ℕ) (bullet : String) :
    (ExpectedFileEntry.mk line bullet normalized kind).Declared := by
  obtain ⟨-, h⟩ := passed_check h
  obtain ⟨-, h⟩ := passed_check h
  obtain ⟨hbackslash, h⟩ := passed_check h
  obtain ⟨-, h⟩ := passed_check h
  obtain ⟨-, h⟩ := passed_check h
  obtain ⟨-, h⟩ := passed_check h
  obtain ⟨-, h⟩ := passed_check h
  have hplain : '\\' ∉ expression.toList := by simpa using hbackslash
  have hcases := splitKind_cases expression.toList
  rcases hsplit : splitKind expression.toList with ⟨body, kind'⟩
  rw [hsplit] at h hcases
  obtain ⟨-, h⟩ := passed_check h
  obtain ⟨-, h⟩ := passed_check h
  obtain ⟨-, h⟩ := passed_check h
  rcases hcases with ⟨after, hexpression, rfl⟩ | ⟨hno, hexact⟩
  · obtain ⟨rfl, rfl⟩ := Prod.mk.inj (Except.ok.inj h)
    refine ⟨?_, nofun, fun _ ↦ ⟨body, String.toList_ofList⟩⟩
    rw [hexpression] at hplain
    simpa using fun hmem ↦ hplain (mem_append_left _ hmem)
  · obtain ⟨rfl, rfl⟩ := Prod.mk.inj hexact
    obtain ⟨rfl, rfl⟩ := Prod.mk.inj (Except.ok.inj h)
    refine ⟨?_, fun _ ↦ ?_, nofun⟩
    · simpa using hplain
    · simpa using hno

theorem readBullet_declared {line : ℕ} {bullet block : List Char}
    (hentries : ∀ entry ∈ entries, entry.Declared)
    (h : readBullet line bullet block entries = .ok entries') :
    ∀ entry ∈ entries', entry.Declared := by
  rw [readBullet] at h
  rcases hspan : firstCodeSpan block with e | expression
  · rw [hspan] at h
    cases e <;> cases h
  rw [hspan] at h
  by_cases hempty : expression = []
  · rw [hempty] at h
    cases h
  · change (if expression = [] then _ else _) = _ at h
    rw [if_neg hempty] at h
    rcases hnormal : normalizeScopePath (String.ofList expression) with rule | pair
    · simp only [hnormal] at h
      cases rule <;> cases h
    simp only [hnormal] at h
    obtain ⟨-, h⟩ := passed_check h
    intro entry hentry
    rw [← Except.ok.inj h] at hentry
    rcases mem_append.1 hentry with hentry | hentry
    · exact hentries entry hentry
    · rw [mem_singleton.1 hentry]
      exact normalizeScopePath_declared hnormal ..

theorem readBullets_declared {numbered : List (List Char × ℕ)}
    (hentries : ∀ entry ∈ entries, entry.Declared) (h : readBullets numbered entries = .ok entries') :
    ∀ entry ∈ entries', entry.Declared := by
  induction numbered generalizing entries with
  | nil => exact Except.ok.inj h ▸ hentries
  | cons l rest ih =>
    obtain ⟨line, number⟩ := l
    rw [readBullets] at h
    split at h
    · exact ih hentries h
    · dsimp only at h
      split at h
      · exact ih (readBullet_declared hentries ‹_›) h
      · cases h

theorem parseExpectedFiles_declared {content : String}
    (h : parseExpectedFiles content = .ok entries) : ∀ entry ∈ entries, entry.Declared := by
  rw [parseExpectedFiles] at h
  rcases hnumbered : sectionLines ((lines content.toList).zipIdx 1) with e | numbered
  · rw [hnumbered] at h
    cases h
  rw [hnumbered] at h
  change (readBullets numbered [] >>= _) = _ at h
  rcases hread : readBullets numbered [] with e | read
  · rw [hread] at h
    cases h
  rw [hread] at h
  change (if read = [] then _ else _) = _ at h
  split_ifs at h
  obtain rfl := Except.ok.inj h
  exact readBullets_declared (fun _ hmem ↦ absurd hmem not_mem_nil) hread

/-! ### The tests and the matcher -/

/-- A relative path that the executor's test reads as the matcher does: it lies below a declared
directory, or there is no backslash in it and it is no declared directory itself, unless it is
declared as a file too. -/
def PlainPath (entries : List ExpectedFileEntry) (text : List Char) : Prop :=
  (∃ entry ∈ entries, entry.matchKind = .directory ∧ entry.normalized.toList <+: text) ∨
    '\\' ∉ text ∧ ∀ entry ∈ entries, entry.matchKind = .directory →
      entry.normalized.toList = text ++ ['/'] →
        ∃ file ∈ entries, file.matchKind = .exactFile ∧ file.normalized.toList = text

instance : Decidable (PlainPath entries text) :=
  inferInstanceAs (Decidable (_ ∨ _ ∧ _))

theorem byteSize_pos {text : List Char} (h : text ≠ []) : 0 < byteSize text := by
  rcases text with _ | ⟨c, text⟩
  · exact absurd rfl h
  rw [byteSize_cons]
  have := Char.utf8Size_pos c
  omega

theorem matches_directory (hkind : entry.matchKind = .directory) (hdeclared : entry.Declared)
    (hlast : text.getLast? ≠ some '/') (hbelow : entry.normalized.toList <+: text) :
    entry.Matches (String.ofList text) := by
  obtain ⟨rest, rfl⟩ := hbelow
  have hrest : rest ≠ [] := by
    rintro rfl
    obtain ⟨body, hbody⟩ := hdeclared.directory hkind
    rw [append_nil, hbody] at hlast
    simp at hlast
  rw [ExpectedFileEntry.Matches, hkind]
  refine ⟨?_, ?_⟩
  · rw [StartsWith, String.toList_ofList]
    exact prefix_append ..
  · have hpos := byteSize_pos hrest
    rw [← byteSize_toList, ← byteSize_toList, String.toList_ofList, byteSize_append]
    omega

/-- **The executor's test of a plain path agrees with the matcher.** -/
theorem matches_of_allowed (hdeclared : ∀ entry ∈ entries, entry.Declared)
    (hlast : text.getLast? ≠ some '/') (hplain : PlainPath entries text)
    (hallowed : (entries.map (·.normalized)).any
      (resolvedEntryAllows (replaceBackslashes text) ·) = true) :
    ∃ entry ∈ entries, entry.Matches (String.ofList text) := by
  rcases hplain with ⟨entry, hentry, hkind, hbelow⟩ | ⟨hbackslash, hdirectory⟩
  · exact ⟨entry, hentry, matches_directory hkind (hdeclared entry hentry) hlast hbelow⟩
  have hsame : replaceBackslashes text = text := by
    refine (map_congr_left fun c hc ↦ ?_).trans (List.map_id text)
    exact if_neg (ne_of_mem_of_not_mem hc hbackslash)
  rw [hsame, List.any_eq_true] at hallowed
  obtain ⟨name, hname, hallowed⟩ := hallowed
  obtain ⟨entry, hentry, rfl⟩ := List.mem_map.1 hname
  have hfile : ∀ file ∈ entries, file.matchKind = .exactFile → file.normalized.toList = text →
      ∃ entry ∈ entries, entry.Matches (String.ofList text) := fun file hfile hkind heq ↦ by
    refine ⟨file, hfile, ?_⟩
    rw [ExpectedFileEntry.Matches, hkind, ← heq]
    exact String.ofList_toList
  cases hkind : entry.matchKind with
  | exactFile =>
    rw [resolvedEntryAllows, (hdeclared entry hentry).exactFile hkind, Bool.or_false, beq_iff_eq]
      at hallowed
    exact hfile entry hentry hkind hallowed
  | directory =>
    obtain ⟨body, hbody⟩ := (hdeclared entry hentry).directory hkind
    have hne : entry.normalized.toList ≠ text := by
      rintro rfl
      rw [hbody] at hlast
      simp at hlast
    rw [resolvedEntryAllows, hbody, stripSuffix?_append] at hallowed
    simp only [Bool.or_eq_true, beq_iff_eq, isPrefixOf_iff_prefix, ← hbody] at hallowed
    rcases hallowed with heq | heq | hbelow
    · exact absurd heq hne
    · -- the directory itself, which is declared as a file too
      obtain ⟨file, hmem, hfilekind, hfilename⟩ :=
        hdirectory entry hentry hkind (heq ▸ hbody)
      exact hfile file hmem hfilekind hfilename
    · exact ⟨entry, hentry, matches_directory hkind (hdeclared entry hentry) hlast hbelow⟩

theorem intercalate_getLast_ne (h : ∀ piece ∈ pieces, piece ≠ [] ∧ '/' ∉ piece) :
    (['/'].intercalate pieces).getLast? ≠ some '/' := by
  have hlast : ∀ piece ∈ pieces, ∃ c, piece.getLast? = some c ∧ c ≠ '/' := fun piece hpiece ↦ by
    obtain ⟨hne, hslash⟩ := h piece hpiece
    exact ⟨piece.getLast hne, getLast?_eq_some_getLast hne,
      ne_of_mem_of_not_mem (getLast_mem hne) hslash⟩
  suffices hmain : pieces ≠ [] → ∃ c, (['/'].intercalate pieces).getLast? = some c ∧ c ≠ '/' by
    by_cases hnil : pieces = []
    · simp [hnil]
    · obtain ⟨c, hc, hne⟩ := hmain hnil
      rw [hc]
      exact fun heq ↦ hne (Option.some.inj heq)
  intro hne
  induction pieces with
  | nil => exact absurd rfl hne
  | cons piece pieces ih =>
    rcases pieces with _ | ⟨next, pieces⟩
    · rw [intercalate_singleton]
      exact hlast piece mem_cons_self
    obtain ⟨c, hc, hslash⟩ := ih (fun p hp ↦ h p (mem_cons_of_mem _ hp))
      (fun p hp ↦ hlast p (mem_cons_of_mem _ hp)) (cons_ne_nil _ _)
    refine ⟨c, ?_, hslash⟩
    rw [intercalate_cons_cons, getLast?_append, hc]
    rfl

theorem isFileName_of_mapM {names : List FileName} (h : names.mapM FileName.toStr = some pieces) :
    ∀ piece ∈ pieces, IsFileName piece := by
  induction names generalizing pieces with
  | nil =>
    obtain rfl := Option.some.inj h
    exact fun _ hmem ↦ absurd hmem not_mem_nil
  | cons name names ih =>
    rw [mapM_cons] at h
    obtain ⟨first, hfirst, h⟩ := Option.bind_eq_some_iff.1 h
    obtain ⟨rest, hrest, h⟩ := Option.bind_eq_some_iff.1 h
    obtain rfl := Option.some.inj h
    intro piece hpiece
    rcases mem_cons.1 hpiece with rfl | hpiece
    · cases name with
      | utf8 text isName => exact Option.some.inj hfirst ▸ isName
      | bytes raw => cases hfirst
    · exact ih hrest piece hpiece

theorem relativeText_getLast_ne {root l : FileLocation} (h : relativeText root l = some text) :
    text.getLast? ≠ some '/' := by
  obtain ⟨pieces, hpieces, rfl⟩ := Option.map_eq_some_iff.1 h
  exact intercalate_getLast_ne fun piece hpiece ↦
    have hname := isFileName_of_mapM hpieces piece hpiece
    ⟨hname.1, hname.2.2.2.1⟩

end FamiliarAi
