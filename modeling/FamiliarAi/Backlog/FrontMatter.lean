import FamiliarAi.Backlog.Identity

/-!
# Structured front matter

The front matter of a PRD is read line by line into fields, and the fields are checked and put
together afterwards. Where the source indexes, slices or unwraps, the model may panic. Only one of
these places ever does: the text between the quotation marks of a value that is one quotation mark
begins behind its end. So the parser panics exactly when such a value is the first thing in the
front matter that cannot be read (`parseFrontMatter_panics_iff`).
-/

namespace FamiliarAi

open Text Except

def IsQuoted (mark : Char) (value : List Char) : Prop :=
  value.head? = some mark ∧ value.getLast? = some mark

instance IsQuoted.decidable (mark : Char) : DecidablePred (IsQuoted mark) :=
  fun _ ↦ inferInstanceAs (Decidable (_ ∧ _))

/-- `&value[1..value.len() - 1]`, where the first and the last character are of one byte. -/
def sliceInside (value : List Char) : Except (Halt String) (List Char) :=
  if 2 ≤ value.length then .ok value.tail.dropLast else .error .panic

/-- The text between the quotation marks, if there are any. -/
def stripQuotes (value : List Char) : Except (Halt String) (List Char) :=
  if IsQuoted '"' value ∨ IsQuoted '\x27' value then sliceInside value else .ok value

def unquote (value : List Char) : Except (Halt String) String := do
  let inside ← stripQuotes value
  if inside = [] then .error (.error "structured PRD values must not be empty")
  else .ok (String.ofList inside)

def parseYamlListOrScalar (value : List Char) : Except (Halt BacklogError) (List String) :=
  if value = "[]".toList then .ok []
  else
    match (stripPrefix? ['['] value).bind (stripSuffix? [']']) with
    | some inner =>
      if trim inner = [] then .ok []
      else (splitOn ',' inner).mapM fun item ↦ (unquote (trim item)).mapError (.map .discovery)
    | none => do
      let item ← (unquote value).mapError (.map .discovery)
      .ok [item]

/-- What a line of the front matter is, in the order in which the loop asks. -/
inductive FrontMatterLine
  | blank
  | item (value : List Char)
  | indented
  | field (key : String) (value : List Char)
  | other

def frontMatterLine (raw : List Char) : FrontMatterLine :=
  let line := trimEnd (· = '\r') raw
  if trim line = [] then .blank
  else
    match stripPrefix? "  - ".toList line with
    | some item => .item (trim item)
    | none =>
      if line.head?.any Text.isWhiteSpace then .indented
      else
        match splitFirst? [':'] line with
        | some (key, value) => .field (String.ofList key) (trim value)
        | none => .other

def knownFields : List String :=
  ["familiar_ai_prd", "id", "status", "dependencies", "expected_files", "acceptance_criteria",
    "risk_classes", "external_gates", "resources"]

/-- `return Err(malformed(…))`. -/
def reject {α : Type} (path message : String) : Except (Halt BacklogError) α :=
  .error (.error (malformed path message))

/-- `ok_or_else` with a rejection. -/
def orReject {α : Type} (path message : String) : Option α → Except (Halt BacklogError) α
  | some a => .ok a
  | none => reject path message

def rejectUnless (p : Prop) [Decidable p] (path message : String) :
    Except (Halt BacklogError) Unit :=
  if p then .ok () else reject path message

theorem rejectUnless_pos {p : Prop} [Decidable p] (h : p) {path message : String} :
    rejectUnless p path message = .ok () :=
  if_pos h

/-- The fields that have been read, and the one that list items belong to. -/
structure FrontMatterFields where
  values : List (String × List String) := []
  current : Option String := none

def parseFieldValue (value : List Char) : Except (Halt BacklogError) (List String) :=
  if value = [] then .ok [] else parseYamlListOrScalar value

def readLine (path : String) (offset : ℕ) (fields : FrontMatterFields) (raw : List Char) :
    Except (Halt BacklogError) FrontMatterFields :=
  match frontMatterLine raw with
  | .blank => .ok fields
  | .item value =>
    match fields.current with
    | none =>
      reject path <|
        "front matter line " ++ toString (offset + 2) ++ " has a list item without a field"
    | some key => do
      let _ ← orPanic (fields.values.lookup key)
      let item ← (unquote value).mapError (.map (malformed path))
      .ok { fields with values := fields.values.map fun field ↦
        if field.1 = key then (field.1, field.2 ++ [item]) else field }
  | .indented =>
    reject path ("front matter line " ++ toString (offset + 2) ++ " has invalid indentation")
  | .other =>
    reject path ("front matter line " ++ toString (offset + 2) ++ " must be key: value")
  | .field key value =>
    if key ∉ knownFields then reject path ("unknown structured PRD field '" ++ key ++ "'")
    else if (fields.values.lookup key).isSome then
      reject path ("duplicate structured PRD field '" ++ key ++ "'")
    else do
      let parsed ← parseFieldValue value
      .ok ⟨fields.values ++ [(key, parsed)], some key⟩

def readLines (path : String) :
    ℕ → FrontMatterFields → List (List Char) → Except (Halt BacklogError) FrontMatterFields
  | _, fields, [] => .ok fields
  | offset, fields, raw :: raws => do
    let fields ← readLine path offset fields raw
    readLines path (offset + 1) fields raws

/-- What the front matter says about a PRD. -/
structure ParsedFrontMatter where
  id : PrdId
  dependencies : List PrdId
  metadata : PrdMetadata
  deriving DecidableEq

def requiredFields : List String :=
  ["familiar_ai_prd", "id", "status", "dependencies", "expected_files", "acceptance_criteria",
    "risk_classes"]

/-- `values[key]`. -/
def FrontMatterFields.index (fields : FrontMatterFields) (key : String) :
    Except (Halt BacklogError) (List String) :=
  orPanic (fields.values.lookup key)

def FrontMatterFields.one (path : String) (fields : FrontMatterFields) (key : String) :
    Except (Halt BacklogError) String := do
  match ← fields.index key with
  | [value] => .ok value
  | _ => reject path ("structured PRD field '" ++ key ++ "' requires one scalar value")

def isResourceChar (c : Char) : Bool :=
  c.isLower || c.isDigit || c == '-' || c == '_'

/-- One round of the loop over resources. -/
def checkResource (path : String) (seen : List String) (resource : String) :
    Except BacklogError (List String) :=
  if resource = "" ∨ ¬resource.toList.all isResourceChar then
    .error <| malformed path <| "invalid resource identifier '" ++ resource ++
      "': lowercase ASCII letters, digits, '-' and '_' only"
  else if resource ∈ seen then
    .error (malformed path ("duplicate resource '" ++ resource ++ "'"))
  else .ok (seen ++ [resource])

/-- The fields, checked and put together. -/
def assembleFrontMatter (path : String) (fields : FrontMatterFields) :
    Except (Halt BacklogError) ParsedFrontMatter := do
  requiredFields.forM fun key ↦
    rejectUnless (fields.values.lookup key).isSome path
      ("missing structured PRD field '" ++ key ++ "'")
  let version ← fields.one path "familiar_ai_prd"
  let version ← orReject path "familiar_ai_prd must be integer version 1" (parseU64 version.toList)
  rejectUnless (version = 1) path
    ("unsupported familiar_ai_prd version " ++ toString version ++ "; expected 1")
  let idText ← fields.one path "id"
  let profile := if StartsWith idText "PRD " then .numberedSlug else .canonical
  let id ← ((parsePrdId idText profile).mapError (malformed path)).orHalt
  let status ← fields.one path "status"
  rejectUnless (status ∈ ["draft", "ready", "in_progress", "completed", "blocked"]) path
    ("invalid structured PRD status '" ++ status ++ "'")
  let tokens ← fields.index "dependencies"
  let dependencies ← (tokens.foldlM (pushDependency path profile (· == id)) []).orHalt
  ["expected_files", "acceptance_criteria", "risk_classes"].forM fun key ↦ do
    let values ← fields.index key
    rejectUnless (values ≠ []) path ("structured PRD field '" ++ key ++ "' must not be empty")
  let resources := (fields.values.lookup "resources").getD []
  let _ ← (resources.foldlM (checkResource path) []).orHalt
  let expectedFiles ← fields.index "expected_files"
  let acceptanceCriteria ← fields.index "acceptance_criteria"
  let riskClasses ← fields.index "risk_classes"
  .ok
    { id
      dependencies := dependencies.insertionSort PrdId.LE
      metadata :=
        { contractVersion := some version
          status := some status
          expectedFiles, acceptanceCriteria, riskClasses
          externalGates := (fields.values.lookup "external_gates").getD []
          resources } }

/-- The document begins with a fence. -/
def IsFenced (content : List Char) : Prop :=
  "---\n".toList <+: content ∨ "---\r\n".toList <+: content

instance IsFenced.decidable : DecidablePred IsFenced :=
  fun _ ↦ inferInstanceAs (Decidable (_ ∨ _))

/-- The front matter and the document, on both sides of the closing fence. -/
def closingFence (rest : List Char) : Option (List Char × List Char) :=
  (splitFirst? "\n---\n".toList rest).or (splitFirst? "\n---\r\n".toList rest)

def readFrontMatter (path : String) (yaml : List Char) :
    Except (Halt BacklogError) ParsedFrontMatter := do
  let fields ← readLines path 0 {} (lines yaml)
  assembleFrontMatter path fields

/-- `parse_front_matter`, which answers with the document that follows as well. -/
def parseFrontMatter (content : List Char) (path : String) :
    Except (Halt BacklogError) (Option ParsedFrontMatter × List Char) :=
  if IsFenced content then do
    let opening ← orPanic (splitFirst? ['\n'] content)
    match closingFence opening.2 with
    | some (yaml, document) => do
      let parsed ← readFrontMatter path yaml
      .ok (some parsed, document)
    | none => reject path "unterminated structured PRD front matter"
  else .ok (none, content)

/-! ### What a value reads as -/

def IsLoneMark (value : List Char) : Prop :=
  value = ['"'] ∨ value = ['\x27']

/-- The value is text, in quotation marks or not. -/
def IsScalar (value : List Char) : Prop :=
  ¬IsLoneMark value ∧ value ≠ [] ∧ value ≠ ['"', '"'] ∧ value ≠ ['\x27', '\x27']

/-- Some value is a quotation mark, and all before it are text. -/
def StumblesAmong (values : List (List Char)) : Prop :=
  ∃ before value after, values = before ++ value :: after ∧ (∀ v ∈ before, IsScalar v) ∧
    IsLoneMark value

def listedValues (value : List Char) : List (List Char) :=
  if value = [] ∨ value = "[]".toList then []
  else
    match (stripPrefix? ['['] value).bind (stripSuffix? [']']) with
    | some inner => if trim inner = [] then [] else (splitOn ',' inner).map trim
    | none => [value]

section Values

variable {value : List Char}

theorem isQuoted_singleton {mark c : Char} : IsQuoted mark [c] ↔ c = mark := by
  simp [IsQuoted]

theorem isQuoted_pair {mark c d : Char} : IsQuoted mark [c, d] ↔ c = mark ∧ d = mark := by
  simp [IsQuoted]

theorem stripQuotes_panics_iff : stripQuotes value = .error .panic ↔ IsLoneMark value := by
  unfold stripQuotes sliceInside IsLoneMark
  match value with
  | [] => simp [IsQuoted]
  | [c] =>
    simp only [isQuoted_singleton, List.cons.injEq, and_true]
    split <;> simp [*]
  | c :: d :: rest =>
    rw [if_pos (by simp : 2 ≤ (c :: d :: rest).length)]
    split <;> simp

theorem stripQuotes_ne_error (message : String) : stripQuotes value ≠ .error (.error message) := by
  unfold stripQuotes sliceInside
  split_ifs <;> exact nofun

theorem stripQuotes_eq_nil_iff : stripQuotes value = .ok [] ↔
    value = [] ∨ value = ['"', '"'] ∨ value = ['\x27', '\x27'] := by
  unfold stripQuotes sliceInside
  match value with
  | [] => simp [IsQuoted]
  | [c] => split <;> simp
  | [c, d] =>
    simp only [isQuoted_pair, List.cons.injEq, and_true]
    split <;> simp [*]
  | c :: d :: e :: rest =>
    rw [if_pos (by simp : 2 ≤ (c :: d :: e :: rest).length)]
    split <;> simp

theorem unquote_panics_iff : unquote value = .error .panic ↔ IsLoneMark value := by
  rw [unquote, Except.bind_eq_error, stripQuotes_panics_iff, or_iff_left]
  rintro ⟨inside, -, h⟩
  split_ifs at h
  cases h

theorem exists_unquote_iff : (∃ text, unquote value = .ok text) ↔ IsScalar value := by
  have hvalue : IsScalar value ↔
      stripQuotes value ≠ .error .panic ∧ stripQuotes value ≠ .ok [] := by
    rw [Ne, Ne, stripQuotes_panics_iff, stripQuotes_eq_nil_iff, not_or, not_or, IsScalar]
  rw [hvalue, unquote]
  rcases hstrip : stripQuotes value with (_ | message) | inside
  · exact iff_of_false (by rintro ⟨_, ⟨⟩⟩) fun h ↦ h.1 rfl
  · exact absurd hstrip (stripQuotes_ne_error message)
  · show (∃ text, (if inside = [] then _ else _) = ok text) ↔ _
    split_ifs with hinside
    · exact iff_of_false (by rintro ⟨_, ⟨⟩⟩) fun h ↦ h.2 (congrArg _ hinside)
    · exact iff_of_true ⟨_, rfl⟩ ⟨nofun, fun h ↦ hinside (ok.inj h)⟩

theorem parseFieldValue_eq : parseFieldValue value =
    (listedValues value).mapM fun item ↦ (unquote item).mapError (.map .discovery) := by
  unfold parseFieldValue parseYamlListOrScalar listedValues
  by_cases hvalue : value = []
  · rw [if_pos hvalue, if_pos (.inl hvalue)]
    rfl
  · by_cases hempty : value = "[]".toList
    · rw [if_neg hvalue, if_pos hempty, if_pos (.inr hempty)]
      rfl
    · rw [if_neg hvalue, if_neg hempty, if_neg (not_or.2 ⟨hvalue, hempty⟩)]
      rcases (stripPrefix? ['['] value).bind (stripSuffix? [']']) with _ | inner
      · rw [List.mapM_cons]
        rfl
      dsimp only
      split_ifs
      · rfl
      · rw [List.mapM_map]
        rfl

theorem parseFieldValue_panics_iff :
    parseFieldValue value = .error .panic ↔ StumblesAmong (listedValues value) := by
  rw [parseFieldValue_eq, Except.mapM_eq_error]
  simp only [Except.mapError_eq_ok, Except.mapError_map_eq_panic, exists_unquote_iff,
    unquote_panics_iff]
  rfl

theorem exists_parseFieldValue_iff :
    (∃ values, parseFieldValue value = .ok values) ↔ ∀ v ∈ listedValues value, IsScalar v := by
  rw [parseFieldValue_eq, Except.exists_mapM_eq_ok]
  simp only [Except.mapError_eq_ok, exists_unquote_iff]

theorem parseYamlListOrScalar_panics_iff :
    parseYamlListOrScalar value = .error .panic ↔ StumblesAmong (listedValues value) := by
  rw [← parseFieldValue_panics_iff, parseFieldValue]
  split_ifs with hvalue
  · rw [hvalue]
    exact iff_of_false (by decide) nofun
  · rfl

end Values

/-! ### What a line reads as -/

/-- The field that a line begins. -/
def lineKey (raw : List Char) : Option String :=
  match frontMatterLine raw with
  | .field key _ => some key
  | _ => none

/-- The line can be read after lines that began these fields. -/
def Readable (keys : List String) (raw : List Char) : Prop :=
  match frontMatterLine raw with
  | .blank => True
  | .item value => keys ≠ [] ∧ IsScalar value
  | .field key value => key ∈ knownFields ∧ key ∉ keys ∧ ∀ v ∈ listedValues value, IsScalar v
  | .indented => False
  | .other => False

/-- What cannot be read in the line first is a quotation mark. -/
def Stumbles (keys : List String) (raw : List Char) : Prop :=
  match frontMatterLine raw with
  | .item value => keys ≠ [] ∧ IsLoneMark value
  | .field key value => key ∈ knownFields ∧ key ∉ keys ∧ StumblesAmong (listedValues value)
  | .blank => False
  | .indented => False
  | .other => False

/-- The fields have these keys, in the order of the lines that began them. -/
structure FrontMatterFields.Holds (fields : FrontMatterFields) (keys : List String) : Prop where
  values : fields.values.map (·.1) = keys
  current : fields.current = keys.getLast?

section Line

variable {path : String} {offset : ℕ} {fields fields' : FrontMatterFields} {keys : List String}
  {raw : List Char}

theorem FrontMatterFields.Holds.isSome_lookup (h : fields.Holds keys) {key : String} :
    (fields.values.lookup key).isSome = true ↔ key ∈ keys := by
  rw [List.lookup_isSome_iff, ← h.values]
  simp only [beq_iff_eq, List.mem_map, Prod.exists, exists_and_right, exists_eq_right]
  simp

theorem FrontMatterFields.Holds.exists_current (h : fields.Holds keys) (hkeys : keys ≠ []) :
    ∃ key values, fields.current = some key ∧ fields.values.lookup key = some values := by
  obtain ⟨values, hvalues⟩ := Option.isSome_iff_exists.1
    (h.isSome_lookup.2 (List.getLast_mem hkeys))
  exact ⟨_, values, by rw [h.current, List.getLast?_eq_some_getLast hkeys], hvalues⟩

theorem readLine_spec (h : fields.Holds keys) :
    (readLine path offset fields raw = .error .panic ↔ Stumbles keys raw) ∧
    ((∃ fields', readLine path offset fields raw = .ok fields') ↔ Readable keys raw) ∧
    ∀ fields', readLine path offset fields raw = .ok fields' →
      fields'.Holds (keys ++ (lineKey raw).toList) := by
  unfold readLine Stumbles Readable lineKey
  cases frontMatterLine raw with
  | blank =>
    refine ⟨iff_of_false nofun id, iff_of_true ⟨_, rfl⟩ trivial, ?_⟩
    rintro _ ⟨⟩
    simpa using h
  | indented => exact ⟨iff_of_false nofun id, iff_of_false nofun id, nofun⟩
  | other => exact ⟨iff_of_false nofun id, iff_of_false nofun id, nofun⟩
  | item value =>
    dsimp only
    by_cases hkeys : keys = []
    · have hcurrent : fields.current = none := by rw [h.current, hkeys, List.getLast?_nil]
      rw [hcurrent]
      exact ⟨iff_of_false nofun fun h ↦ h.1 hkeys, iff_of_false nofun fun h ↦ h.1 hkeys, nofun⟩
    · obtain ⟨key, values, hcurrent, hlookup⟩ := h.exists_current hkeys
      rw [hcurrent]
      dsimp only
      rw [hlookup]
      simp only [orPanic, Except.bind_eq_error, Except.bind_eq_ok, ok.injEq]
      refine ⟨?_, ?_, ?_⟩
      · rw [← unquote_panics_iff]
        simp [hkeys, Except.mapError_map_eq_panic]
      · rw [← exists_unquote_iff]
        simp [hkeys, Except.mapError_eq_ok]
      · rintro _ ⟨_, -, item, -, rfl⟩
        refine ⟨?_, ?_⟩
        · rw [Option.toList_none, List.append_nil, ← h.values, List.map_map]
          refine List.map_congr_left fun field _ ↦ ?_
          dsimp only [Function.comp]
          split <;> rfl
        · rw [Option.toList_none, List.append_nil]
          exact hcurrent.symm.trans h.current
  | field key value =>
    dsimp only
    by_cases hknown : key ∈ knownFields
    · by_cases hkey : key ∈ keys
      · rw [if_neg (not_not.2 hknown), if_pos (h.isSome_lookup.2 hkey)]
        exact ⟨iff_of_false nofun fun h ↦ h.2.1 hkey, iff_of_false nofun fun h ↦ h.2.1 hkey, nofun⟩
      · rw [if_neg (not_not.2 hknown), if_neg (mt h.isSome_lookup.1 hkey)]
        simp only [Except.bind_eq_error, Except.bind_eq_ok, ok.injEq]
        refine ⟨?_, ?_, ?_⟩
        · rw [← parseFieldValue_panics_iff]
          simp [hknown, hkey]
        · rw [← exists_parseFieldValue_iff]
          simp [hknown, hkey]
        · rintro _ ⟨parsed, -, rfl⟩
          refine ⟨?_, ?_⟩
          · rw [List.map_append, h.values]
            rfl
          · rw [Option.toList_some, List.getLast?_concat]
    · rw [if_pos hknown]
      exact ⟨iff_of_false nofun fun h ↦ hknown h.1, iff_of_false nofun fun h ↦ hknown h.1, nofun⟩

end Line

/-- The fields that the lines begin. -/
def fieldKeys (raws : List (List Char)) : List String :=
  raws.filterMap lineKey

/-- Some line stumbles, and all before it can be read. -/
def StumblesIn (raws : List (List Char)) : Prop :=
  ∃ before raw after, raws = before ++ raw :: after ∧ Stumbles (fieldKeys before) raw ∧
    ∀ earlier line later, before = earlier ++ line :: later → Readable (fieldKeys earlier) line

section Lines

variable {path : String} {keys : List String}

/-- The run lemma: `keys` are those of the fields that lines further above have begun. -/
theorem readLines_panics_iff {offset : ℕ} {fields : FrontMatterFields} (h : fields.Holds keys)
    (raws : List (List Char)) :
    readLines path offset fields raws = .error .panic ↔
      ∃ before raw after, raws = before ++ raw :: after ∧ Stumbles (keys ++ fieldKeys before) raw ∧
        ∀ earlier line later, before = earlier ++ line :: later →
          Readable (keys ++ fieldKeys earlier) line := by
  induction raws generalizing offset fields keys with
  | nil =>
    refine iff_of_false nofun ?_
    rintro ⟨before, raw, after, hsplit, -⟩
    exact List.append_ne_nil_of_right_ne_nil before (List.cons_ne_nil raw after) hsplit.symm
  | cons first raws ih =>
    obtain ⟨hpanics, hreads, hholds⟩ : _ ∧ _ ∧ _ := readLine_spec h
    have hkeys (lines : List (List Char)) :
        keys ++ (lineKey first).toList ++ fieldKeys lines = keys ++ fieldKeys (first :: lines) := by
      rw [fieldKeys, fieldKeys, List.filterMap_cons, List.append_assoc]
      cases lineKey first <;> rfl
    rw [readLines, Except.bind_eq_error, hpanics]
    constructor
    · rintro (hstumbles | ⟨fields', hread, hrest⟩)
      · exact ⟨[], first, raws, rfl, by simpa [fieldKeys] using hstumbles, by simp⟩
      · obtain ⟨before, raw, after, rfl, hstumbles, hbefore⟩ :=
          (ih (hholds fields' hread)).1 hrest
        refine ⟨first :: before, raw, after, rfl, by rwa [← hkeys], ?_⟩
        intro earlier line later hsplit
        rcases earlier with _ | ⟨_, earlier⟩
        · obtain ⟨rfl, -⟩ := List.cons.inj hsplit
          simpa [fieldKeys] using hreads.1 ⟨fields', hread⟩
        obtain ⟨rfl, hrest⟩ := List.cons.inj hsplit
        rw [← hkeys]
        exact hbefore earlier line later hrest
    · rintro ⟨before, raw, after, hsplit, hstumbles, hbefore⟩
      rcases before with _ | ⟨_, before⟩
      · obtain ⟨rfl, -⟩ := List.cons.inj hsplit
        exact .inl (by simpa [fieldKeys] using hstumbles)
      obtain ⟨rfl, rfl⟩ := List.cons.inj hsplit
      obtain ⟨fields', hread⟩ := hreads.2 (by simpa [fieldKeys] using hbefore [] first before rfl)
      refine .inr ⟨fields', hread, (ih (hholds fields' hread)).2
        ⟨before, raw, after, rfl, by rwa [hkeys], fun earlier line later hearlier ↦ ?_⟩⟩
      rw [hkeys]
      exact hbefore (first :: earlier) line later (congrArg _ hearlier)

end Lines

section Assemble

variable {path key : String} {fields : FrontMatterFields} {message : String}

theorem rejectUnless_ne_panic {p : Prop} [Decidable p] :
    rejectUnless p path message ≠ .error .panic := by
  unfold rejectUnless reject
  split_ifs <;> exact nofun

theorem orReject_ne_panic {α : Type} {a : Option α} :
    orReject path message a ≠ .error .panic := by
  cases a with
  | none => exact nofun
  | some a => exact nofun

theorem FrontMatterFields.index_ne_panic (h : (fields.values.lookup key).isSome = true) :
    fields.index key ≠ .error .panic := by
  obtain ⟨values, hvalues⟩ := Option.isSome_iff_exists.1 h
  rw [index, hvalues]
  exact nofun

theorem FrontMatterFields.one_ne_panic (h : (fields.values.lookup key).isSome = true) :
    fields.one path key ≠ .error .panic := by
  refine Except.bind_ne_panic (index_ne_panic h) fun values _ ↦ ?_
  match values with
  | [] => exact nofun
  | [_] => exact nofun
  | _ :: _ :: _ => exact nofun

theorem assembleFrontMatter_ne_panic : assembleFrontMatter path fields ≠ .error .panic := by
  unfold assembleFrontMatter
  refine Except.bind_ne_panic (Except.forM_ne_panic fun _ _ ↦ rejectUnless_ne_panic)
    fun _ hrequired ↦ ?_
  have hlookup (key : String) (hkey : key ∈ requiredFields) :
      (fields.values.lookup key).isSome = true := by
    have h := Except.forM_eq_ok.1 hrequired key hkey
    unfold rejectUnless reject at h
    split_ifs at h with hsome
    exact hsome
  have hindex (key : String) (hkey : key ∈ requiredFields) : fields.index key ≠ .error .panic :=
    FrontMatterFields.index_ne_panic (hlookup key hkey)
  have hone (key : String) (hkey : key ∈ requiredFields) : fields.one path key ≠ .error .panic :=
    FrontMatterFields.one_ne_panic (hlookup key hkey)
  refine Except.bind_ne_panic (hone _ (by decide)) fun text _ ↦ ?_
  refine Except.bind_ne_panic orReject_ne_panic fun version _ ↦ ?_
  refine Except.bind_ne_panic rejectUnless_ne_panic fun _ _ ↦ ?_
  refine Except.bind_ne_panic (hone _ (by decide)) fun idText _ ↦ ?_
  refine Except.bind_ne_panic Except.orHalt_ne_panic fun id _ ↦ ?_
  refine Except.bind_ne_panic (hone _ (by decide)) fun status _ ↦ ?_
  refine Except.bind_ne_panic rejectUnless_ne_panic fun _ _ ↦ ?_
  refine Except.bind_ne_panic (hindex _ (by decide)) fun tokens _ ↦ ?_
  refine Except.bind_ne_panic Except.orHalt_ne_panic fun dependencies _ ↦ ?_
  refine Except.bind_ne_panic (Except.forM_ne_panic fun key hkey ↦ ?_) fun _ _ ↦ ?_
  · have hsub : ["expected_files", "acceptance_criteria", "risk_classes"] ⊆ requiredFields := by
      decide
    exact Except.bind_ne_panic (hindex key (hsub hkey)) fun _ _ ↦ rejectUnless_ne_panic
  refine Except.bind_ne_panic Except.orHalt_ne_panic fun _ _ ↦ ?_
  refine Except.bind_ne_panic (hindex _ (by decide)) fun _ _ ↦ ?_
  refine Except.bind_ne_panic (hindex _ (by decide)) fun _ _ ↦ ?_
  exact Except.bind_ne_panic (hindex _ (by decide)) fun _ _ ↦ nofun

end Assemble

def frontMatterParts (content : List Char) : Option (List Char × List Char) :=
  if IsFenced content then (splitFirst? ['\n'] content).bind fun opening ↦ closingFence opening.2
  else none

section Document

variable {content : List Char} {path : String}

theorem exists_opening (h : IsFenced content) :
    ∃ opening, splitFirst? ['\n'] content = some opening := by
  rcases h with ⟨rest, rfl⟩ | ⟨rest, rfl⟩
  · exact ⟨_, rfl⟩
  · exact ⟨_, rfl⟩

theorem parseFrontMatter_of_parts {yaml document : List Char}
    (h : frontMatterParts content = some (yaml, document)) :
    parseFrontMatter content path =
      (readFrontMatter path yaml).map fun parsed ↦ (some parsed, document) := by
  unfold frontMatterParts at h
  split_ifs at h with hfenced
  obtain ⟨opening, hopening⟩ := exists_opening hfenced
  have hclosing : closingFence opening.2 = some (yaml, document) := by rwa [hopening] at h
  rw [parseFrontMatter, if_pos hfenced, hopening]
  show (match closingFence opening.2 with | some (yaml, document) => _ | none => _) = _
  rw [hclosing]
  dsimp only
  cases readFrontMatter path yaml <;> rfl

theorem parseFrontMatter_of_no_parts (h : frontMatterParts content = none) :
    parseFrontMatter content path =
      if IsFenced content then reject path "unterminated structured PRD front matter"
      else .ok (none, content) := by
  rw [parseFrontMatter]
  split_ifs with hfenced
  · obtain ⟨opening, hopening⟩ := exists_opening hfenced
    have hclosing : closingFence opening.2 = none := by
      rwa [frontMatterParts, if_pos hfenced, hopening] at h
    rw [hopening]
    show (match closingFence opening.2 with | some (yaml, document) => _ | none => _) = _
    rw [hclosing]
  · rfl

/-- **Panics of the front matter.** The parser panics exactly on front matter in which a value that
is one quotation mark is the first thing that cannot be read: every line before can be read after
those before it, and in its own line every value before is text. -/
theorem parseFrontMatter_panics_iff :
    parseFrontMatter content path = .error .panic ↔
      ∃ yaml document, frontMatterParts content = some (yaml, document) ∧
        StumblesIn (lines yaml) := by
  rcases hparts : frontMatterParts content with _ | parts
  · refine iff_of_false ?_ (by rintro ⟨_, _, ⟨⟩, _⟩)
    rw [parseFrontMatter_of_no_parts hparts]
    split_ifs <;> exact nofun
  obtain ⟨yaml, document⟩ := parts
  have hread : readFrontMatter path yaml = .error .panic ↔ StumblesIn (lines yaml) := by
    rw [readFrontMatter, Except.bind_eq_error, readLines_panics_iff ⟨rfl, rfl⟩, or_iff_left]
    · rfl
    · rintro ⟨fields, -, h⟩
      exact assembleFrontMatter_ne_panic h
  rw [parseFrontMatter_of_parts hparts, Except.map_eq_error, hread]
  constructor
  · exact fun h ↦ ⟨yaml, document, rfl, h⟩
  · rintro ⟨_, _, ⟨⟩, h⟩
    exact h

end Document

/-- **Totality of the front matter.** The parser, the reading of a value and the removal of
quotation marks each return unless they come upon a value that is one quotation mark. -/
theorem frontMatter_total_iff (content : List Char) (path : String) (value : List Char) :
    (parseFrontMatter content path ≠ .error .panic ↔
      ¬∃ yaml document, frontMatterParts content = some (yaml, document) ∧
        StumblesIn (lines yaml)) ∧
    (parseYamlListOrScalar value ≠ .error .panic ↔ ¬StumblesAmong (listedValues value)) ∧
    (unquote value ≠ .error .panic ↔ ¬IsLoneMark value) :=
  ⟨not_congr parseFrontMatter_panics_iff, not_congr parseYamlListOrScalar_panics_iff,
    not_congr unquote_panics_iff⟩

/-- An id that is one quotation mark. -/
theorem parseFrontMatter_panics :
    ¬∀ content path, parseFrontMatter content path ≠ .error .panic := by
  intro h
  exact h "---\nid: \"\n---\n# PRD-5: Title\n".toList "PRD-5.md" (by decide +kernel)

end FamiliarAi
