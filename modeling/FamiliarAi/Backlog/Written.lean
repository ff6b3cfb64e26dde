import FamiliarAi.Backlog.FrontMatter
import FamiliarAi.Text.Written

/-!
# Front matter that is written

An identity, a field of the front matter, a list on the line of a field, and a document with fences
are read back from how they are written.
-/

namespace FamiliarAi

open Text List

variable {items : List (List Char)} {first : List Char} {value : List Char} {path : String}

/-! ### Identities as text -/

/-- A digit or a lowercase letter. -/
def IsAlnum (c : Char) : Prop :=
  48 ≤ c.toNat ∧ c.toNat ≤ 57 ∨ 97 ≤ c.toNat ∧ c.toNat ≤ 122

instance IsAlnum.decidable : DecidablePred IsAlnum :=
  fun _ ↦ inferInstanceAs (Decidable (_ ∨ _))

/-- The characters of identities. -/
def IsIdChar (c : Char) : Prop :=
  c ∈ "PRD- ".toList ∨ IsAlnum c

instance IsIdChar.decidable : DecidablePred IsIdChar :=
  fun _ ↦ inferInstanceAs (Decidable (_ ∨ _))

section Text

variable {id : PrdId} {c : Char}

theorem IsAlnum.not_isWhiteSpace (h : IsAlnum c) : Text.isWhiteSpace c = false := by
  unfold IsAlnum at h
  simp [Text.isWhiteSpace]
  omega

theorem IsAlnum.ne {c d : Char} (h : IsAlnum c) (hd : ¬IsAlnum d) : c ≠ d := by
  rintro rfl
  exact hd h

theorem isAlnum_of_isDigit (h : c.isDigit = true) : IsAlnum c := by
  rw [Char.isDigit, Bool.and_eq_true, decide_eq_true_eq, decide_eq_true_eq, ge_iff_le,
    UInt32.le_iff_toNat_le, UInt32.le_iff_toNat_le] at h
  exact .inl h

theorem isAlnum_of_suffix (h : 'a' ≤ c ∧ c ≤ 'z') : IsAlnum c := by
  rw [Char.le_def, Char.le_def, UInt32.le_iff_toNat_le, UInt32.le_iff_toNat_le] at h
  exact .inr h

theorem PrdId.Valid.isAlnum (h : id.Valid) (hc : c ∈ id.digits ++ id.suffix.toList) :
    IsAlnum c := by
  rcases mem_append.1 hc with hc | hc
  · exact isAlnum_of_isDigit (PrdId.isDigit_of_mem_digits hc)
  · exact isAlnum_of_suffix (h.suffix c (Option.mem_toList.1 hc))

theorem PrdId.word_subset (id : PrdId) : id.word ⊆ "PRD- ".toList := by
  rw [PrdId.word]
  cases id.rendering with
  | canonical => exact (by decide : "PRD-".toList ⊆ "PRD- ".toList)
  | numberedSlug width => exact (by decide : "PRD ".toList ⊆ "PRD- ".toList)

theorem PrdId.Valid.isIdChar (h : id.Valid) (hc : c ∈ id.display.toList) :
    IsIdChar c := by
  rw [PrdId.toList_display] at hc
  rcases mem_append.1 hc with hc | hc
  · exact .inl (id.word_subset hc)
  · exact .inr (h.isAlnum hc)

theorem PrdId.Valid.notMem (h : id.Valid) (hc : ¬IsIdChar c) :
    c ∉ id.display.toList :=
  fun hmem ↦ hc (h.isIdChar hmem)

theorem PrdId.head?_display (id : PrdId) : id.display.toList.head? = some 'P' := by
  rw [PrdId.toList_display, PrdId.word]
  cases id.rendering <;> rfl

theorem PrdId.Valid.getLast?_display (h : id.Valid) (hc : c ∈ id.display.toList.getLast?) :
    IsAlnum c := by
  have hne : id.digits ++ id.suffix.toList ≠ [] :=
    append_ne_nil_of_left_ne_nil PrdId.digits_ne_nil _
  rw [PrdId.toList_display, getLast?_append_of_ne_nil _ hne] at hc
  exact h.isAlnum (mem_of_getLast? hc)

/-- White space of any kind is trimmed before an identity and after it. -/
theorem PrdId.Valid.trimWhere_display (h : id.Valid) {p : Char → Bool} (hhead : p 'P' = false)
    (hlast : ∀ c, IsAlnum c → p c = false) :
    trimWhere p id.display.toList = id.display.toList := by
  refine trimWhere_eq_self (fun c hc ↦ ?_) fun c hc ↦ hlast c (h.getLast?_display hc)
  rw [PrdId.head?_display] at hc
  rwa [← Option.some.inj hc]

theorem PrdId.Valid.trimWhere_blank (h : id.Valid) :
    trimWhere (" \t".toList.contains ·) id.display.toList = id.display.toList := by
  refine h.trimWhere_display (by decide) fun c hc ↦ ?_
  have hblank : c ≠ ' ' := hc.ne (by decide)
  have htab : c ≠ '\t' := hc.ne (by decide)
  simp [hblank, htab]

end Text

theorem splitFirst?_fence {ls : List (List Char)} (hfirst : '\n' ∉ first)
    (hfeed : ∀ l ∈ ls, '\n' ∉ l) (hhyphen : ∀ l ∈ ls, l.head? ≠ some '-') (body : List Char) :
    splitFirst? "\n---\n".toList (document (first :: ls) ++ ("---\n".toList ++ body)) =
      some (['\n'].intercalate (first :: ls), body) := by
  have hpattern : "\n---\n".toList = '\n' :: "---\n".toList := rfl
  induction ls generalizing first with
  | nil =>
    have htext : document [first] ++ ("---\n".toList ++ body) =
        first ++ ('\n' :: "---\n".toList ++ body) := by
      simp [document]
    rw [htext, hpattern, splitFirst?_append_append hfirst]
    simp
  | cons l ls ih =>
    rw [forall_mem_cons] at hfeed hhyphen
    have htext : document (first :: l :: ls) ++ ("---\n".toList ++ body) =
        first ++ '\n' :: (document (l :: ls) ++ ("---\n".toList ++ body)) := by
      simp [document]
    have hstrip : stripPrefix? ('\n' :: "---\n".toList)
        ('\n' :: (document (l :: ls) ++ ("---\n".toList ++ body))) = none := by
      rw [stripPrefix?, if_pos rfl, document_cons]
      rcases l with _ | ⟨c, l⟩
      · rfl
      have hc : '-' ≠ c := fun h ↦ hhyphen.1 (by rw [h]; rfl)
      exact if_neg hc
    rw [htext, hpattern, splitFirst?_append_of_notMem hfirst, splitFirst?, hstrip, ← hpattern,
      ih hfeed.1 hfeed.2 hhyphen.2]
    simp [List.intercalate]

theorem frontMatterParts_document {ls body : List (List Char)} (hfirst : '\n' ∉ first)
    (hfeed : ∀ l ∈ ls, '\n' ∉ l) (hhyphen : ∀ l ∈ ls, l.head? ≠ some '-') :
    frontMatterParts (document ("---".toList :: first :: ls ++ "---".toList :: body)) =
      some (['\n'].intercalate (first :: ls), document body) := by
  have htext : document ("---".toList :: first :: ls ++ "---".toList :: body) =
      "---".toList ++
        (['\n'] ++ (document (first :: ls) ++ ("---\n".toList ++ document body))) := by
    simp [document]
  have hfenced : IsFenced (document ("---".toList :: first :: ls ++ "---".toList :: body)) := by
    rw [htext]
    exact .inl ⟨_, rfl⟩
  rw [frontMatterParts, if_pos hfenced, htext, splitFirst?_append_append (by decide),
    Option.bind_some, closingFence, splitFirst?_fence hfirst hfeed hhyphen]
  rfl

/-! ### Lines of fields -/

theorem frontMatterLine_field {key value : List Char} (hkey : ':' ∉ key)
    (hhead : ∃ c rest, key = c :: rest ∧ Text.isWhiteSpace c = false) (hvalue : value ≠ [])
    (hfirst : ∀ c ∈ value.head?, Text.isWhiteSpace c = false)
    (hlast : ∀ c ∈ value.getLast?, Text.isWhiteSpace c = false) :
    frontMatterLine (key ++ ": ".toList ++ value) = .field (String.ofList key) value := by
  obtain ⟨c, rest, rfl, hc⟩ := hhead
  have hlast' : ∀ d ∈ ((c :: rest) ++ ": ".toList ++ value).getLast?,
      Text.isWhiteSpace d = false := by
    rw [getLast?_append_of_ne_nil _ hvalue]
    exact hlast
  have htrimEnd : trimEnd (· = '\r') ((c :: rest) ++ ": ".toList ++ value) =
      (c :: rest) ++ ": ".toList ++ value := by
    refine trimEnd_eq_self fun d hd ↦ decide_eq_false ?_
    rintro rfl
    cases hlast' '\r' hd
  have htrim : trim ((c :: rest) ++ ": ".toList ++ value) =
      (c :: rest) ++ ": ".toList ++ value := by
    refine trimWhere_eq_self (fun d hd ↦ ?_) hlast'
    rw [← Option.some.inj hd]
    exact hc
  have hitem : stripPrefix? "  - ".toList ((c :: rest) ++ ": ".toList ++ value) = none := by
    refine if_neg ?_
    rintro rfl
    cases hc
  have hsplit : splitFirst? [':'] ((c :: rest) ++ ": ".toList ++ value) =
      some (c :: rest, ' ' :: value) := by
    rw [append_assoc]
    exact splitFirst?_append_append hkey (' ' :: value)
  have htrimValue : trim (' ' :: value) = value :=
    (trimWhere_cons (by decide) value).trans (trimWhere_eq_self hfirst hlast)
  have hnonempty : (c :: rest) ++ ": ".toList ++ value ≠ [] := cons_ne_nil _ _
  simp only [frontMatterLine, htrimEnd, htrim, if_neg hnonempty, hitem, hsplit, htrimValue]
  have hany : ((c :: rest) ++ ": ".toList ++ value).head?.any Text.isWhiteSpace = false := hc
  rw [hany]
  rfl

theorem readLine_field {offset : ℕ} {fields : FrontMatterFields} {raw : List Char} {key : String}
    {values : List String} (hline : frontMatterLine raw = .field key value)
    (hknown : key ∈ knownFields) (hnew : fields.values.lookup key = none)
    (hvalues : parseFieldValue value = .ok values) :
    readLine path offset fields raw = .ok ⟨fields.values ++ [(key, values)], some key⟩ := by
  rw [readLine, hline]
  dsimp only
  rw [if_neg (not_not.2 hknown), hnew, hvalues]
  rfl

theorem readLines_fields {raws : List (List Char)} {added : List (String × List String)}
    (h : Forall₂ (fun raw field ↦ ∃ value, frontMatterLine raw = .field field.1 value ∧ field.1 ∈ knownFields ∧ parseFieldValue value = .ok field.2) raws added)
    (offset : ℕ) (fields : FrontMatterFields)
    (hkeys : (fields.values.map (·.1) ++ added.map (·.1)).Nodup) :
    ∃ current, readLines path offset fields raws = .ok ⟨fields.values ++ added, current⟩ := by
  induction h generalizing offset fields with
  | nil => exact ⟨fields.current, by rw [append_nil]; rfl⟩
  | @cons raw field raws added hfield hrest ih =>
    obtain ⟨value, hline, hknown, hvalues⟩ := hfield
    have hnew : fields.values.lookup field.1 = none := by
      rw [lookup_eq_none_iff]
      intro other hother
      refine bne_iff_ne.2 fun heq ↦ ?_
      refine disjoint_of_nodup_append hkeys (mem_map_of_mem hother) ?_
      rw [← heq]
      exact mem_cons_self
    rw [readLines, readLine_field hline hknown hnew hvalues]
    obtain ⟨current, hread⟩ := ih (offset + 1) ⟨fields.values ++ [field], some field.1⟩
      (by simpa using hkeys)
    refine ⟨current, ?_⟩
    show readLines path (offset + 1) ⟨fields.values ++ [field], some field.1⟩ raws = _
    rw [hread, append_assoc]
    rfl

theorem unquote_plain (hne : value ≠ []) (hmarks : ∀ c ∈ value.head?, c ≠ '"' ∧ c ≠ '\x27') :
    unquote value = .ok (String.ofList value) := by
  have hquoted : ¬(IsQuoted '"' value ∨ IsQuoted '\x27' value) := by
    rintro (h | h)
    · exact (hmarks _ h.1).1 rfl
    · exact (hmarks _ h.1).2 rfl
  rw [unquote, stripQuotes, if_neg hquoted]
  exact if_neg hne

/-- A scalar without quotation marks. -/
theorem parseFieldValue_plain {value : List Char} (hne : value ≠ [])
    (hmarks : ∀ c ∈ value.head?, c ≠ '"' ∧ c ≠ '\x27' ∧ c ≠ '[') :
    parseFieldValue value = .ok [String.ofList value] := by
  have hlisted : listedValues value = [value] := by
    obtain ⟨c, rest, rfl⟩ := exists_cons_of_ne_nil hne
    have hc : c ≠ '[' := (hmarks c rfl).2.2
    have hbracket : stripPrefix? ['['] (c :: rest) = none := if_neg hc.symm
    have hempty : ¬(c :: rest = [] ∨ c :: rest = "[]".toList) := by
      rintro (h | h)
      · cases h
      · exact hc (cons.inj h).1
    rw [listedValues, if_neg hempty, hbracket]
    rfl
  rw [parseFieldValue_eq, hlisted, mapM_cons,
    unquote_plain hne fun c hc ↦ ⟨(hmarks c hc).1, (hmarks c hc).2.1⟩]
  rfl

/-- An item of a list that is read as it stands, from one line. -/
structure IsItem (item : List Char) : Prop where
  comma : ',' ∉ item
  feed : '\n' ∉ item
  ret : '\r' ∉ item
  trim : trim item = item
  head : ∃ c rest, item = c :: rest ∧ Text.isWhiteSpace c = false ∧ c ≠ '"' ∧ c ≠ '\x27'

theorem IsItem.unquote {item : List Char} (h : IsItem item) :
    unquote item = .ok (String.ofList item) := by
  obtain ⟨c, rest, rfl, -, hmarks⟩ := h.head
  refine unquote_plain (cons_ne_nil _ _) fun d hd ↦ ?_
  rwa [← Option.some.inj hd]

theorem parseFieldValue_list (hitems : ∀ item ∈ items, IsItem item) :
    parseFieldValue ("[".toList ++ (commaList items ++ "]".toList)) =
      .ok (items.map String.ofList) := by
  have hlisted : listedValues ("[".toList ++ (commaList items ++ "]".toList)) = items := by
    rcases items with _ | ⟨first, rest⟩
    · rfl
    obtain ⟨c, text, rfl, hc, -⟩ := (hitems first mem_cons_self).head
    obtain ⟨others, hothers⟩ := commaList_cons (c :: text) rest
    have hempty : ¬("[".toList ++ (commaList ((c :: text) :: rest) ++ "]".toList) = [] ∨
        "[".toList ++ (commaList ((c :: text) :: rest) ++ "]".toList) = "[]".toList) := by
      rw [hothers]
      simp
    have hbrackets : (stripPrefix? ['[']
        ("[".toList ++ (commaList ((c :: text) :: rest) ++ "]".toList))).bind
          (stripSuffix? [']']) = some (commaList ((c :: text) :: rest)) := by
      rw [show "[".toList = ['['] from rfl, stripPrefix?_append]
      exact stripSuffix?_append [']'] _
    have hinner : trim (commaList ((c :: text) :: rest)) ≠ [] := by
      rw [hothers]
      exact trimWhere_cons_ne_nil hc _
    rw [listedValues, if_neg hempty, hbrackets]
    dsimp only
    rw [if_neg hinner]
    exact map_trimWhere_splitOn (cons_ne_nil _ _)
      (fun item hitem ↦ (hitems item hitem).comma) (by decide)
      fun item hitem ↦ (hitems item hitem).trim
  rw [parseFieldValue_eq, hlisted]
  clear hlisted
  induction items with
  | nil => rfl
  | cons first rest ih =>
    rw [forall_mem_cons] at hitems
    rw [mapM_cons, hitems.1.unquote, ih hitems.2]
    rfl

theorem PrdId.Valid.isItem {id : PrdId} (h : id.Valid) : IsItem id.display.toList where
  comma := h.notMem (by decide)
  feed := h.notMem (by decide)
  ret := h.notMem (by decide)
  trim := h.trimWhere_display (by decide) fun _ ↦ IsAlnum.not_isWhiteSpace
  head := by
    obtain ⟨rest, hrest⟩ := head?_eq_some_iff.1 (PrdId.head?_display id)
    exact ⟨'P', rest, hrest, by decide, by decide, by decide⟩
/-! ### Front matter with one line for each field -/

def bracketed (items : List (List Char)) : List Char :=
  "[".toList ++ (commaList items ++ "]".toList)

/-- A text on the line of a field, and the values that it is read as. -/
structure IsFieldValue (text : List Char) (values : List String) : Prop where
  ne : text ≠ []
  head : ∀ c ∈ text.head?, Text.isWhiteSpace c = false
  last : ∀ c ∈ text.getLast?, Text.isWhiteSpace c = false
  feed : '\n' ∉ text
  ret : '\r' ∉ text
  parse : parseFieldValue text = .ok values

/-- A scalar without blanks around it, quotation marks or brackets. -/
theorem IsFieldValue.plain {text : List Char} (hne : text ≠ [])
    (hhead : ∀ c ∈ text.head?, Text.isWhiteSpace c = false ∧ c ≠ '"' ∧ c ≠ '\x27' ∧ c ≠ '[')
    (hlast : ∀ c ∈ text.getLast?, Text.isWhiteSpace c = false) (hfeed : '\n' ∉ text)
    (hret : '\r' ∉ text) : IsFieldValue text [String.ofList text] where
  ne := hne
  head := fun c hc ↦ (hhead c hc).1
  last := hlast
  feed := hfeed
  ret := hret
  parse := parseFieldValue_plain hne fun c hc ↦ (hhead c hc).2

theorem notMem_bracketed {c : Char} (hc : c ∉ "[, ]".toList) (hitems : ∀ item ∈ items, c ∉ item) :
    c ∉ bracketed items := by
  have hpunctuation : c ≠ '[' ∧ c ≠ ',' ∧ c ≠ ' ' ∧ c ≠ ']' := by simpa using hc
  obtain ⟨hopen, hcomma, hblank, hclose⟩ := hpunctuation
  intro hmem
  rcases mem_append.1 hmem with hmem | hmem
  · exact hopen (mem_singleton.1 hmem)
  · rcases mem_append.1 hmem with hmem | hmem
    · rcases mem_commaList hmem with heq | heq | ⟨item, hitem, hmem⟩
      · exact hcomma heq
      · exact hblank heq
      · exact hitems item hitem hmem
    · exact hclose (mem_singleton.1 hmem)

theorem IsFieldValue.bracketed (hitems : ∀ item ∈ items, IsItem item) :
    IsFieldValue (bracketed items) (items.map String.ofList) where
  ne := cons_ne_nil _ _
  head := fun c hc ↦ by
    rw [← Option.some.inj hc]
    rfl
  last := fun c hc ↦ by
    rw [FamiliarAi.bracketed, ← append_assoc, getLast?_append_of_ne_nil _ (by decide)] at hc
    rw [← Option.some.inj hc]
    rfl
  feed := notMem_bracketed (by decide) fun item hitem ↦ (hitems item hitem).feed
  ret := notMem_bracketed (by decide) fun item hitem ↦ (hitems item hitem).ret
  parse := parseFieldValue_list hitems

def fieldLine (key : String) (text : List Char) : List Char :=
  key.toList ++ ": ".toList ++ text

structure WrittenField where
  key : String
  text : List Char
  values : List String
  known : key ∈ knownFields
  isValue : IsFieldValue text values

namespace WrittenField

variable (field : WrittenField)

def line : List Char :=
  fieldLine field.key field.text

/-- The field as it is read. -/
def entry : String × List String :=
  (field.key, field.values)

theorem key_plain : ∀ key ∈ knownFields, ':' ∉ key.toList ∧ '\n' ∉ key.toList ∧
    '\r' ∉ key.toList ∧ key.toList ≠ [] ∧ key.toList.head? ≠ some '-' ∧
    key.toList.head?.any Text.isWhiteSpace = false := by
  decide

theorem notMem_line {c : Char} (hkey : c ∉ field.key.toList) (htext : c ∉ field.text)
    (hc : c ∉ ": ".toList) : c ∉ field.line := by
  rw [line, fieldLine, mem_append, mem_append]
  rintro ((h | h) | h)
  · exact hkey h
  · exact hc h
  · exact htext h

theorem frontMatterLine_line : frontMatterLine field.line = .field field.key field.text := by
  obtain ⟨hcolon, -, -, hne, -, hhead⟩ := key_plain field.key field.known
  obtain ⟨c, rest, hcons⟩ := exists_cons_of_ne_nil hne
  rw [hcons] at hhead
  rw [line, fieldLine, frontMatterLine_field hcolon ⟨c, rest, hcons, hhead⟩
    field.isValue.ne field.isValue.head field.isValue.last, String.ofList_toList]

end WrittenField

section Fields

variable {fields : List WrittenField}

theorem readLines_written (hkeys : (fields.map (·.key)).Nodup) (path : String) (offset : ℕ) :
    ∃ current, readLines path offset {} (fields.map (·.line)) =
      .ok ⟨fields.map (·.entry), current⟩ := by
  have hfields : List.Forall₂ (fun raw (entry : String × List String) ↦
      ∃ value, frontMatterLine raw = .field entry.1 value ∧ entry.1 ∈ knownFields ∧
        parseFieldValue value = .ok entry.2) (fields.map (·.line)) (fields.map (·.entry)) := by
    rw [forall₂_map_left_iff, forall₂_map_right_iff, forall₂_same]
    exact fun field _ ↦
      ⟨field.text, field.frontMatterLine_line, field.known, field.isValue.parse⟩
  have hentries : (fields.map (·.entry)).map (·.1) = fields.map (·.key) := by
    rw [map_map]
    rfl
  exact readLines_fields hfields offset {} (by rw [hentries]; exact hkeys)

theorem parseFrontMatter_written (hne : fields ≠ []) (hkeys : (fields.map (·.key)).Nodup)
    (body : List (List Char)) (path : String) :
    ∃ current, parseFrontMatter
        (document ("---".toList :: fields.map (·.line) ++ "---".toList :: body)) path =
      (assembleFrontMatter path ⟨fields.map (·.entry), current⟩).map fun parsed ↦
        (some parsed, document body) := by
  have hplain (field : WrittenField) := WrittenField.key_plain field.key field.known
  have hfeed : ∀ l ∈ fields.map (·.line), '\n' ∉ l :=
    forall_mem_map.2 fun field _ ↦
      field.notMem_line (hplain field).2.1 field.isValue.feed (by decide)
  have hret : ∀ l ∈ fields.map (·.line), '\r' ∉ l :=
    forall_mem_map.2 fun field _ ↦
      field.notMem_line (hplain field).2.2.1 field.isValue.ret (by decide)
  have hhyphen : ∀ l ∈ fields.map (·.line), l.head? ≠ some '-' :=
    forall_mem_map.2 fun field _ ↦ by
      obtain ⟨-, -, -, hkey, hhead, -⟩ := hplain field
      rw [WrittenField.line, fieldLine, append_assoc, head?_append_of_ne_nil _ hkey]
      exact hhead
  have hlines : lines (['\n'].intercalate (fields.map (·.line))) = fields.map (·.line) := by
    refine lines_intercalate (mt map_eq_nil_iff.1 hne) ?_ hfeed hret
    rw [getLast_map]
    exact append_ne_nil_of_right_ne_nil _ (WrittenField.isValue _).ne
  obtain ⟨current, hread⟩ := readLines_written hkeys path 0
  obtain ⟨field, rest, rfl⟩ := exists_cons_of_ne_nil hne
  rw [map_cons, forall_mem_cons] at hfeed hhyphen
  refine ⟨current, ?_⟩
  rw [map_cons] at hlines hread ⊢
  rw [parseFrontMatter_of_parts (frontMatterParts_document hfeed.1 hfeed.2 hhyphen.2),
    readFrontMatter, hlines, hread]
  rfl

end Fields

end FamiliarAi
