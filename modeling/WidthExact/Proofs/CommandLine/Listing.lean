import WidthExact.CommandLine.Response
import WidthExact.Proofs.Json.Forms
import WidthExact.Proofs.Json.Pretty

/-!
# Both listings are of the same catalogue

`list` shows the primitives of a family as lines or as JSON. Either listing can be read back: a line is
a name up to the first parenthesis, the types between the parentheses and the one behind the arrow, and
an item of the JSON array is an object with the name, the parameter types and the result type. What is
read from both is the catalogue itself, as far as its names begin with the text that was given, in its
order.

## Main results

* `Entry.ofLine?_line`, `Entry.ofJson?_jsonEntry` — one primitive.
* `entriesOfText?_listText`, `entriesOfJson?_listJson` — both listings.
* `respond_listArgs` — on the command line.
* `list_catalogue` — the two listings agree, and a longer text lists less.
-/

namespace WidthExact.CommandLine

/-! ## Reading a listing -/

/-- What a listing tells of a primitive. -/
structure Entry where
  name : String
  signature : Signature

/-- The scalar type that a text is the written form of, with blanks before it. -/
def readType? (text : List Char) : Option ScalarType :=
  ScalarType.all.find? fun type => type.text.toList = text.dropWhile (· = ' ')

/-- The types in a list with commas. -/
def readTypes? (text : List Char) : Option (List ScalarType) :=
  if text.isEmpty then some [] else (text.splitOn ',').mapM readType?

namespace Entry

/-- What a primitive's entry is to tell. -/
def of (p : Primitive) : Entry := ⟨p.name, p.signature⟩

/-- Reads a line. -/
def ofLine? (line : List Char) : Option Entry :=
  match line.span (· ≠ '(') with
  | (name, '(' :: rest) =>
    match rest.span (· ≠ ')') with
    | (params, ')' :: ' ' :: '-' :: '>' :: result) =>
      (readTypes? params).bind fun params => (readType? result).map fun result =>
        ⟨String.ofList name, params, result⟩
    | _ => none
  | _ => none

/-- Reads an item of the JSON array, an object with its three fields. -/
def ofJson? : Json → Option Entry
  | .object fields =>
    match (Json.object fields).fields? ["name", "params", "result"] with
    | some [.string name, params, result] =>
      name.text?.bind fun name => (Signature.typesOfJson? params).bind fun params =>
        (ScalarType.ofJson? result).map fun result => ⟨name, params, result⟩
    | _ => none
  | _ => none

end Entry

/-- The lines of a text in which each line is ended. -/
def linesOf (text : String) : List (List Char) := (text.toList.splitOn '\n').dropLast

/-- The entries of a listing in lines. -/
def entriesOfText? (text : String) : Option (List Entry) := (linesOf text).mapM Entry.ofLine?

/-- The entries of a JSON listing. -/
def entriesOfJson? (text : String) : Option (List Entry) :=
  match Json.read? text.toList with
  | some (.array items) => items.mapM Entry.ofJson?
  | _ => none

/-! ## Types in lines -/

/-- Types consist of letters and digits. -/
theorem not_mem_type (type : ScalarType) {c : Char} (hc : c.isAlphanum = false) :
    c ∉ type.text.toList := by
  have hAll : type.text.toList.all Char.isAlphanum = true := by
    cases type with
    | bool => rfl
    | int w => cases w <;> rfl
    | float f => cases f <;> rfl
  intro hMem
  rw [List.all_eq_true.mp hAll c hMem] at hc
  cases hc

theorem readType?_text (type : ScalarType) : readType? type.text.toList = some type := by
  cases type with
  | bool => rfl
  | int w => cases w <;> rfl
  | float f => cases f <;> rfl

theorem readType?_blank (text : List Char) : readType? (' ' :: text) = readType? text := rfl

/-- The blank behind a comma belongs to the part that follows. -/
theorem intercalate_comma (text : List Char) (texts : List (List Char)) :
    [',', ' '].intercalate (text :: texts) = [','].intercalate (text :: texts.map (' ' :: ·)) := by
  induction texts generalizing text with
  | nil => rfl
  | cons next texts ih =>
      have hBlank : ∀ rest, ' ' :: [','].intercalate (next :: rest) =
          [','].intercalate ((' ' :: next) :: rest) := by
        rintro (_ | _) <;> rfl
      rw [List.intercalate_cons_cons, ih, List.map_cons, List.intercalate_cons_cons, ← hBlank,
        List.append_assoc, List.append_assoc]
      rfl

theorem text_ne_empty (type : ScalarType) : type.text ≠ "" := by
  cases type with
  | bool => decide
  | int w => cases w <;> decide
  | float f => cases f <;> decide

theorem readTypes?_text (types : List ScalarType) :
    readTypes? (", ".intercalate (types.map ScalarType.text)).toList = some types := by
  have hText : (", ".intercalate (types.map ScalarType.text)).toList =
      [',', ' '].intercalate (types.map (·.text.toList)) := by
    rw [String.toList_intercalate, List.map_map]
    rfl
  rw [hText]
  cases types with
  | nil => rfl
  | cons type types =>
      have hNonempty : ([',', ' '].intercalate
          (type.text.toList :: types.map (·.text.toList))).isEmpty = false := by
        cases types <;> simp [List.intercalate_cons_cons, text_ne_empty]
      have hParts : ∀ part ∈ type.text.toList :: (types.map (·.text.toList)).map (' ' :: ·),
          ',' ∉ part := by
        intro part hPart
        rcases List.mem_cons.mp hPart with rfl | hPart
        · exact not_mem_type type (by decide)
        · obtain ⟨_, hText, rfl⟩ := List.mem_map.mp hPart
          obtain ⟨other, -, rfl⟩ := List.mem_map.mp hText
          exact List.not_mem_cons_of_ne_of_not_mem (by decide) (not_mem_type other (by decide))
      rw [List.map_cons, readTypes?, hNonempty, intercalate_comma,
        List.splitOn_intercalate ',' hParts (List.cons_ne_nil _ _), if_neg Bool.false_ne_true,
        mapM_eq_some_iff, List.map_map]
      refine .cons (readType?_text type)
        (List.forall₂_map_left_iff.mpr (List.forall₂_same.mpr fun other _ => ?_))
      exact (readType?_blank _).trans (readType?_text other)

/-! ## One primitive -/

/-- A text ends where a character first occurs. -/
theorem span_ne_append {c : Char} {before : List Char} (h : c ∉ before) (after : List Char) :
    (before ++ c :: after).span (· ≠ c) = (before, c :: after) := by
  have hBefore : ∀ d ∈ before, decide (d ≠ c) = true := by
    rintro d hd
    exact decide_eq_true fun hSame => h (hSame ▸ hd)
  rw [List.span_eq_takeWhile_dropWhile, List.takeWhile_append_of_pos hBefore,
    List.dropWhile_append_of_pos hBefore]
  simp

theorem toList_line (p : Primitive) : (line p).toList = p.name.toList ++ '(' ::
    ((", ".intercalate (p.signature.params.map ScalarType.text)).toList ++
      ')' :: ' ' :: '-' :: '>' :: ' ' :: p.signature.result.text.toList) := by
  rw [line, Signature.text]
  simp only [String.toList_append, List.append_assoc]
  rfl

theorem not_mem_types {c : Char} (hc : c.isAlphanum = false) (hSeparator : c ∉ [',', ' '])
    (types : List ScalarType) : c ∉ (", ".intercalate (types.map ScalarType.text)).toList := by
  rw [String.toList_intercalate, List.map_map]
  induction types with
  | nil => exact List.not_mem_nil
  | cons type types ih =>
      have hType := not_mem_type type hc
      cases types with
      | nil => simpa using hType
      | cons next types =>
          rw [List.map_cons, List.map_cons, List.intercalate_cons_cons, ← List.map_cons]
          simp only [List.mem_append, not_or]
          exact ⟨⟨hType, hSeparator⟩, ih⟩

theorem not_mem_line (p : Primitive) : '\n' ∉ (line p).toList := by
  have hName := p.not_mem_name (c := '\n') (by decide)
  have hTypes := not_mem_types (c := '\n') (by decide) (by decide) p.signature.params
  have hResult := not_mem_type (c := '\n') p.signature.result (by decide)
  rw [toList_line]
  simp only [List.mem_append, List.mem_cons, not_or]
  exact ⟨hName, by decide, hTypes, by decide, by decide, by decide, by decide, by decide, hResult⟩

/-- **A line tells a primitive's name and signature.** -/
theorem Entry.ofLine?_line (p : Primitive) : ofLine? (line p).toList = some (of p) := by
  have hTypes := not_mem_types (c := ')') (by decide) (by decide) p.signature.params
  rw [toList_line, ofLine?, span_ne_append (p.not_mem_name (by decide))]
  simp only [span_ne_append hTypes, readTypes?_text, readType?_blank, readType?_text,
    Option.bind_some, Option.map_some, String.ofList_toList]
  rfl

/-- **And so does an item.** -/
theorem Entry.ofJson?_jsonEntry (p : Primitive) : ofJson? (jsonEntry p) = some (of p) := by
  have hParts : (jsonEntry p).fields? ["name", "params", "result"] =
      some [.ofText p.name, .array (p.signature.params.map ScalarType.toJson),
        p.signature.result.toJson] :=
    Json.fields?_eq_some_iff.mpr
      (Json.spellsParts_record (by decide : ["name", "params", "result"].Nodup))
  have hTypes : Signature.typesOfJson? (.array (p.signature.params.map ScalarType.toJson)) =
      some p.signature.params := by
    refine Signature.typesOfJson?_eq_some_iff.mpr ⟨_, rfl, List.forall₂_map_left_iff.mpr ?_⟩
    exact List.forall₂_same.mpr fun _ _ => .inl rfl
  have hResult : ScalarType.ofJson? p.signature.result.toJson = some p.signature.result :=
    ScalarType.ofJson?_eq_some_iff.mpr (.inl rfl)
  rw [jsonEntry, Json.record] at hParts ⊢
  rw [ofJson?, hParts]
  simp only [Json.ofText, JsonString.text?_ofText, hTypes, hResult, Option.bind_some,
    Option.map_some]
  rfl

theorem wellFormed_jsonEntry (p : Primitive) : (jsonEntry p).WellFormed := by
  have hTypes : (Json.array (p.signature.params.map ScalarType.toJson)).WellFormed := by
    refine .array fun item hItem => ?_
    obtain ⟨type, -, rfl⟩ := List.mem_map.mp hItem
    exact Json.wellFormed_ofText type.text
  refine Json.wellFormed_record fun field hField => ?_
  simp only [List.mem_cons, List.not_mem_nil, or_false] at hField
  rcases hField with rfl | rfl | rfl
  · exact Json.wellFormed_ofText p.name
  · exact hTypes
  · exact Json.wellFormed_ofText p.signature.result.text

/-! ## Listings -/

/-- Lines that are ended are taken apart again. -/
theorem splitOn_lines {texts : List String} (h : ∀ text ∈ texts, '\n' ∉ text.toList) :
    (String.join (texts.map (· ++ "\n"))).toList.splitOn '\n' = texts.map String.toList ++ [[]] := by
  rw [String.toList_join]
  induction texts with
  | nil => exact List.splitOn_nil _
  | cons text texts ih =>
      have hEnd : (text ++ "\n").toList = text.toList ++ ['\n'] := String.toList_append
      rw [List.map_cons, List.flatMap_cons, hEnd, List.append_assoc, List.singleton_append,
        List.splitOn_append_cons_self_of_not_mem (h text List.mem_cons_self),
        ih fun other hOther => h other (List.mem_cons_of_mem text hOther)]
      rfl

theorem splitOn_listText (family : Option String) :
    (listText family).toList.splitOn '\n' =
      ((listed family).map fun p => (line p).toList) ++ [[]] := by
  have hNoBreak : ∀ text ∈ (listed family).map line, '\n' ∉ text.toList := by
    intro text hText
    obtain ⟨p, -, rfl⟩ := List.mem_map.mp hText
    exact not_mem_line p
  have hLines := splitOn_lines hNoBreak
  rw [List.map_map, List.map_map] at hLines
  exact hLines

theorem linesOf_listText (family : Option String) :
    linesOf (listText family) = (listed family).map fun p => (line p).toList := by
  rw [linesOf, splitOn_listText, List.dropLast_concat]

theorem entriesOfText?_listText (family : Option String) :
    entriesOfText? (listText family) = some ((listed family).map Entry.of) := by
  rw [entriesOfText?, linesOf_listText, mapM_eq_some_iff, List.forall₂_map_left_iff,
    List.forall₂_map_right_iff]
  exact List.forall₂_same.mpr fun p _ => Entry.ofLine?_line p

theorem entriesOfJson?_listJson (family : Option String) :
    entriesOfJson? (listJson family) = some ((listed family).map Entry.of) := by
  have hForm : (Json.array ((listed family).map jsonEntry)).WellFormed := by
    refine .array fun item hItem => ?_
    obtain ⟨p, -, rfl⟩ := List.mem_map.mp hItem
    exact wellFormed_jsonEntry p
  rw [entriesOfJson?, listJson, String.toList_ofList, Json.read?_pretty hForm (by decide)]
  show List.mapM Entry.ofJson? _ = _
  rw [mapM_eq_some_iff, List.forall₂_map_left_iff, List.forall₂_map_right_iff]
  exact List.forall₂_same.mpr fun p _ => Entry.ofJson?_jsonEntry p

/-! ## The command line -/

/-- The arguments for a listing of a family. -/
def listArgs (family : Option String) (json : Bool) : List String :=
  "list" :: (family.elim [] fun start => ["--family=" ++ start]) ++ if json then ["--json"] else []

/-- Whatever stands behind the equals sign is the family, also with a hyphen in front. -/
theorem shape_family (start : String) :
    shape ("--family=" ++ start) = .long "family" (some start) := by
  have hText : ("--family=" ++ start).toList = '-' :: '-' :: ("family".toList ++ '=' :: start.toList) :=
    String.toList_append
  have hNo : '=' ∉ "family".toList := by decide
  have hSpan := span_ne_append hNo start.toList
  rw [List.span_eq_takeWhile_dropWhile, Prod.mk.injEq] at hSpan
  rw [shape, hText]
  show longShape ("family".toList ++ '=' :: start.toList) = _
  rw [longShape, hSpan.1, hSpan.2]
  show Shape.long (String.ofList "family".toList) (some (String.ofList start.toList)) = _
  rw [String.ofList_toList, String.ofList_toList]

theorem respond_listArgs (program : String) (family : Option String) (json : Bool) :
    respond (listArgs family json) program = (Command.list family json).respond program := by
  have hJson : ∀ family, readList family false (if json then ["--json"] else []) =
      .command (.list family json) := by
    intro family
    cases json <;> rfl
  cases family with
  | none => exact congrArg (Invocation.respond program) (hJson none)
  | some start =>
      have hFamily : readList none false
          (("--family=" ++ start) :: if json then ["--json"] else []) =
            readList (some start) false (if json then ["--json"] else []) := by
        rw [readList.eq_def]
        simp only [shape_family]
        rfl
      exact congrArg (Invocation.respond program) (hFamily.trans (hJson (some start)))

/-! ## The catalogue -/

/-- Whether a text is begun by the one that is given, if one is given. -/
def BeginsWith (family : Option String) (name : String) : Prop :=
  ∀ start ∈ family, start.toList <+: name.toList

instance (family : Option String) (name : String) : Decidable (BeginsWith family name) :=
  inferInstanceAs (Decidable (∀ start ∈ family, start.toList <+: name.toList))

theorem listed_eq (family : Option String) :
    listed family = Primitive.all.filter fun p => BeginsWith family p.name := by
  refine List.filter_congr fun p _ => ?_
  cases family with
  | none => simp [inFamily, BeginsWith]
  | some start => simp [inFamily, BeginsWith, ← List.isPrefixOf_iff_prefix]

/-- A text that is given begins another one that is given. -/
def Shortens (shorter family : Option String) : Prop :=
  ∀ start ∈ shorter, ∃ longer ∈ family, start.toList <+: longer.toList

/-- A shorter text lists more. -/
theorem listed_sublist {shorter family : Option String} (h : Shortens shorter family) :
    (listed family).Sublist (listed shorter) := by
  rw [listed_eq, listed_eq]
  refine List.monotone_filter_right _ fun p hp => decide_eq_true fun start hStart => ?_
  obtain ⟨longer, hLonger, hPrefix⟩ := h start hStart
  exact hPrefix.trans (of_decide_eq_true hp longer hLonger)

/-- The program succeeds with the given listings of a family. -/
structure Outputs (program : String) (family : Option String) (text json : String) : Prop where
  text : respond (listArgs family false) program = ⟨0, text, none⟩
  json : respond (listArgs family true) program = ⟨0, json, none⟩

theorem outputs_iff {program : String} {family : Option String} {text json : String} :
    Outputs program family text json ↔ text = listText family ∧ json = listJson family := by
  have hText : respond (listArgs family false) program = ⟨0, listText family, none⟩ :=
    respond_listArgs program family false
  have hJson : respond (listArgs family true) program = ⟨0, listJson family, none⟩ :=
    respond_listArgs program family true
  constructor
  · rintro ⟨hText', hJson'⟩
    rw [hText] at hText'
    rw [hJson] at hJson'
    exact ⟨(Response.mk.inj hText').2.1.symm, (Response.mk.inj hJson').2.1.symm⟩
  · rintro ⟨rfl, rfl⟩
    exact ⟨hText, hJson⟩

/-- `text` and `json` list the primitives `ps`. -/
structure Lists (ps : List Primitive) (text json : String) : Prop where
  /-- There is a line for each of them, and nothing behind the end of the last one. -/
  lines : text.toList.splitOn '\n' = (ps.map fun p => (p.name ++ p.signature.text).toList) ++ [[]]
  /-- The name before the first parenthesis on each line resolves to its primitive. -/
  resolved : (linesOf text).map
    (fun line => Primitive.parse (String.ofList (line.takeWhile (· ≠ '(')))) = ps.map .ok
  /-- What is read from both is the same. -/
  entries : entriesOfText? text = some (ps.map Entry.of) ∧
    entriesOfJson? json = some (ps.map Entry.of)
  empty : ps = [] → json = "[]\n"

theorem lists_listed (family : Option String) :
    Lists (listed family) (listText family) (listJson family) where
  lines := splitOn_listText family
  resolved := by
    rw [linesOf_listText, List.map_map]
    refine List.map_congr_left fun p _ => ?_
    have hName : (line p).toList.takeWhile (· ≠ '(') = p.name.toList := by
      rw [toList_line]
      exact congrArg Prod.fst ((List.span_eq_takeWhile_dropWhile ..).symm.trans
        (span_ne_append (p.not_mem_name (by decide)) _))
    show Primitive.parse (String.ofList ((line p).toList.takeWhile (· ≠ '('))) = .ok p
    rw [hName, String.ofList_toList, Primitive.parse_name]
  entries := ⟨entriesOfText?_listText family, entriesOfJson?_listJson family⟩
  empty := by
    intro hEmpty
    rw [listJson, hEmpty]
    rfl

/-- **The two listings agree.** On the command line, whatever the name of the program and whatever
text is given for the names to begin with, or none, both listings succeed and list the same primitives: those of the catalogue whose names
begin with the text, in its order. Of a text that begins another one, the listings hold those of the
other one in order. -/
theorem list_catalogue (program : String) (family : Option String) :
    ∃ text json, Outputs program family text json ∧
      Lists (Primitive.all.filter fun p => BeginsWith family p.name) text json ∧
      ∀ shorter text' json', Shortens shorter family → Outputs program shorter text' json' →
        (linesOf text).Sublist (linesOf text') ∧
        ∃ entries entries', entriesOfJson? json = some entries ∧
          entriesOfJson? json' = some entries' ∧ entries.Sublist entries' := by
  refine ⟨listText family, listJson family, outputs_iff.mpr ⟨rfl, rfl⟩,
    listed_eq family ▸ lists_listed family, fun shorter text' json' hShorter hOutputs => ?_⟩
  obtain ⟨rfl, rfl⟩ := outputs_iff.mp hOutputs
  have hSublist := listed_sublist hShorter
  rw [linesOf_listText, linesOf_listText]
  exact ⟨hSublist.map _, _, _, entriesOfJson?_listJson family, entriesOfJson?_listJson shorter,
    hSublist.map _⟩

end WidthExact.CommandLine
