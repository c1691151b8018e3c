import Mathlib.Data.List.Forall2
import Mathlib.Data.List.Nodup
import WidthExact.Json.PrimitiveCodec
import WidthExact.Proofs.Json.Text
import WidthExact.Proofs.Word.Readings

/-!
# Spellings of tags, named parts and integers

A reader of JSON forms takes more than the one spelling that the writer gives. Each building block
of a form has its spellings described here without a reader: a tag is a string or the name of `null`,
named parts are an array or the fields of an object in any order and among others, an integer is a
literal without point and exponent. The reader of the block takes its spellings and nothing else.

## Main results

* `Json.readTag?_eq_some_iff` — tags.
* `Json.fields?_eq_some_iff` — named parts.
* `JsonNumber.int?_eq_some_iff`, `Json.word?_eq_some_iff` — integers.
-/

namespace WidthExact

/-- Elements read one by one, all of them. -/
theorem mapM_eq_some_iff {α β : Type} {f : α → Option β} {xs : List α} :
    ∀ {ys : List β}, xs.mapM f = some ys ↔ List.Forall₂ (fun x y => f x = some y) xs ys := by
  induction xs with
  | nil =>
      intro ys
      rw [List.mapM_nil, List.forall₂_nil_left_iff]
      exact ⟨fun h => (Option.some.inj h).symm, fun h => congrArg some h.symm⟩
  | cons x xs ih =>
      intro ys
      simp only [List.mapM_cons, List.forall₂_cons_left_iff, ← ih, bind, pure,
        Option.bind_eq_some_iff, Option.some.injEq]
      constructor
      · rintro ⟨y, hy, ys', hys', rfl⟩
        exact ⟨y, ys', hy, hys', rfl⟩
      · rintro ⟨y, ys', hy, hys', rfl⟩
        exact ⟨y, hy, ys', hys', rfl⟩

/-! ## Strings -/

theorem JsonString.text?_ofText (text : String) : (ofText text).text? = some text := by
  have hChars : (ofText text).mapM JsonChar.char? = some text.toList := by
    rw [mapM_eq_some_iff, ofText, List.forall₂_map_left_iff]
    exact List.forall₂_same.mpr fun _ _ => rfl
  rw [text?, hChars, Option.map_some, String.ofList_toList]

theorem JsonChar.eq_of_char? {part : JsonChar} {c : Char} (h : part.char? = some c) :
    part = .char c := by
  cases part with
  | char c' => exact congrArg char (Option.some.inj h)
  | surrogate code => cases h

/-- Only one string holds a text. -/
theorem JsonString.text?_eq_some_iff {s : JsonString} {text : String} :
    s.text? = some text ↔ s = ofText text := by
  constructor
  · intro h
    obtain ⟨chars, hChars, hText⟩ := Option.map_eq_some_iff.mp h
    have hParts := mapM_eq_some_iff.mp hChars
    rw [← hText, ofText, String.toList_ofList]
    clear h hChars hText
    induction hParts with
    | nil => rfl
    | cons hPart _ ih => rw [JsonChar.eq_of_char? hPart, ih, List.map_cons]
  · rintro rfl
    exact text?_ofText text

theorem JsonString.ofText_injective {text text' : String} (h : ofText text = ofText text') :
    text = text' := by
  have hTexts := text?_ofText text'
  rw [← h, text?_ofText] at hTexts
  exact Option.some.inj hTexts

namespace Json

/-! ## Tags -/

/-- The spellings of a tag without data. -/
def SpellsTag (tag : String) (json : Json) : Prop := json = ofText tag ∨ json = tagged tag null

theorem tag?_ofText (tag : String) : (ofText tag).tag? = some (tag, none) := by
  rw [ofText, tag?, JsonString.text?_ofText, Option.map_some]

theorem tag?_tagged (tag : String) (data : Json) :
    (tagged tag data).tag? = some (tag, some data) := by
  rw [tagged, tag?, JsonString.text?_ofText, Option.map_some]

theorem tag?_eq_none_iff {json : Json} {tag : String} :
    json.tag? = some (tag, none) ↔ json = ofText tag := by
  constructor
  · intro h
    unfold tag? at h
    split at h
    · obtain ⟨text, hText, hTag⟩ := Option.map_eq_some_iff.mp h
      rw [JsonString.text?_eq_some_iff.mp hText, (Prod.mk.inj hTag).1, ofText]
    · obtain ⟨_, _, hTag⟩ := Option.map_eq_some_iff.mp h
      cases (Prod.mk.inj hTag).2
    · cases h
  · rintro rfl
    exact tag?_ofText tag

theorem tag?_eq_some_iff {json data : Json} {tag : String} :
    json.tag? = some (tag, some data) ↔ json = tagged tag data := by
  constructor
  · intro h
    unfold tag? at h
    split at h
    · obtain ⟨_, _, hTag⟩ := Option.map_eq_some_iff.mp h
      cases (Prod.mk.inj hTag).2
    · obtain ⟨text, hText, hTag⟩ := Option.map_eq_some_iff.mp h
      rw [JsonString.text?_eq_some_iff.mp hText, (Prod.mk.inj hTag).1,
        Option.some.inj (Prod.mk.inj hTag).2, tagged]
    · cases h
  · rintro rfl
    exact tag?_tagged tag data

theorem isNoData_eq_true_iff {data : Option Json} :
    isNoData data = true ↔ data = none ∨ data = some null := by
  cases data with
  | none => simp [isNoData]
  | some data => cases data <;> simp [isNoData]

/-- A tag without data is spelled in two ways. -/
theorem spellsTag_iff {json : Json} {tag : String} :
    SpellsTag tag json ↔ ∃ data, json.tag? = some (tag, data) ∧ isNoData data = true := by
  constructor
  · rintro (rfl | rfl)
    · exact ⟨none, tag?_ofText tag, rfl⟩
    · exact ⟨some null, tag?_tagged tag null, rfl⟩
  · rintro ⟨data, hJson, hData⟩
    rcases isNoData_eq_true_iff.mp hData with rfl | rfl
    · exact .inl (tag?_eq_none_iff.mp hJson)
    · exact .inr (tag?_eq_some_iff.mp hJson)

section

variable {α : Type} {values : List α} {tag : α → String}

/-- A value is found by its tag in a list of all values, no two of which share a tag. -/
theorem find?_tag_eq_some_iff (hAll : ∀ value, value ∈ values)
    (hTags : (values.map tag).Nodup) {found : String} {value : α} :
    (values.find? fun value => tag value = found) = some value ↔ tag value = found := by
  constructor
  · intro h
    exact of_decide_eq_true (List.find?_some (p := fun value => decide (tag value = found)) h)
  · rintro rfl
    cases hFind : values.find? fun value' => tag value' = tag value with
    | none =>
        have hNone := List.find?_eq_none.mp hFind value (hAll value)
        exact absurd (decide_eq_true rfl) hNone
    | some value' =>
        have hSame := List.find?_some (p := fun value' => decide (tag value' = tag value)) hFind
        rw [List.inj_on_of_nodup_map hTags (hAll value') (hAll value) (of_decide_eq_true hSame)]

/-- **Tags are read in their spellings**, if every value is listed and no two share a tag. -/
theorem readTag?_eq_some_iff (hAll : ∀ value, value ∈ values)
    (hTags : (values.map tag).Nodup) {json : Json} {value : α} :
    json.readTag? values tag = some value ↔ SpellsTag (tag value) json := by
  rw [spellsTag_iff, readTag?, Option.bind_eq_some_iff]
  constructor
  · rintro ⟨⟨found, data⟩, hJson, hRead⟩
    obtain ⟨hData, hFind⟩ := Option.ite_none_right_eq_some.mp hRead
    rw [(find?_tag_eq_some_iff hAll hTags).mp hFind]
    exact ⟨data, hJson, hData⟩
  · rintro ⟨data, hJson, hData⟩
    have hFind : (values.find? fun other => tag other = tag value) = some value :=
      (find?_tag_eq_some_iff hAll hTags).mpr rfl
    exact ⟨(tag value, data), hJson, Option.ite_none_right_eq_some.mpr ⟨hData, hFind⟩⟩

end

/-! ## Named parts -/

/-- The spellings of named parts: in order without their names, or each under its name, which stands
once among the names of the object. -/
def SpellsParts (names : List String) (parts : List Json) : Json → Prop
  | array items => items.length = names.length ∧ items = parts
  | object fields =>
    (∀ field ∈ fields, ∃ name, field.1 = .ofText name) ∧
      List.Forall₂ (fun name part =>
        fields.filter (fun field => field.1 = .ofText name) = [(.ofText name, part)]) names parts
  | _ => False

/-- A field with its name as a string. -/
def ofNamed (field : String × Json) : JsonString × Json := (.ofText field.1, field.2)

theorem namedField?_eq_some_iff {field : JsonString × Json} {named : String × Json} :
    namedField? field = some named ↔ field = ofNamed named := by
  obtain ⟨name, value⟩ := field
  obtain ⟨text, value'⟩ := named
  simp only [namedField?, Option.map_eq_some_iff, JsonString.text?_eq_some_iff, Prod.mk.injEq,
    ofNamed]
  constructor
  · rintro ⟨text', hName, rfl, rfl⟩
    exact ⟨hName, rfl⟩
  · rintro ⟨hName, rfl⟩
    exact ⟨text, hName, rfl, rfl⟩

theorem mapM_namedField?_eq_some_iff {fields : List (JsonString × Json)}
    {named : List (String × Json)} :
    fields.mapM namedField? = some named ↔ fields = named.map ofNamed := by
  rw [mapM_eq_some_iff]
  constructor
  · intro h
    induction h with
    | nil => rfl
    | cons hField _ ih => rw [namedField?_eq_some_iff.mp hField, ih, List.map_cons]
  · rintro rfl
    rw [List.forall₂_map_left_iff]
    exact List.forall₂_same.mpr fun _ _ => namedField?_eq_some_iff.mpr rfl

/-- Names are texts if and only if the fields can be named. -/
theorem exists_named_iff {fields : List (JsonString × Json)} :
    (∃ named : List (String × Json), fields = named.map ofNamed) ↔
      ∀ field ∈ fields, ∃ name, field.1 = .ofText name := by
  constructor
  · rintro ⟨named, rfl⟩ field hField
    obtain ⟨⟨name, value⟩, _, rfl⟩ := List.mem_map.mp hField
    exact ⟨name, rfl⟩
  · intro h
    induction fields with
    | nil => exact ⟨[], rfl⟩
    | cons field fields ih =>
        obtain ⟨name, hName⟩ := h field List.mem_cons_self
        obtain ⟨named, rfl⟩ := ih fun field hField => h field (List.mem_cons_of_mem _ hField)
        exact ⟨(name, field.2) :: named, by rw [List.map_cons, ofNamed, ← hName]⟩

theorem filter_ofNamed (name : String) (named : List (String × Json)) :
    (named.map ofNamed).filter (fun field => field.1 = .ofText name) =
      (named.filter fun field => field.1 = name).map ofNamed := by
  rw [List.filter_map]
  congr 2
  funext field
  have hSame : JsonString.ofText field.1 = JsonString.ofText name ↔ field.1 = name :=
    ⟨JsonString.ofText_injective, congrArg JsonString.ofText⟩
  exact decide_eq_decide.mpr hSame

/-- A field is read if no other field has its name. -/
theorem field?_eq_some_iff {name : String} {named : List (String × Json)} {part : Json} :
    field? name named = some part ↔
      (named.map ofNamed).filter (fun field => field.1 = .ofText name) = [(.ofText name, part)] := by
  have hNames : ∀ field ∈ named.filter (fun field => field.1 = name), field.1 = name :=
    fun field hField => of_decide_eq_true (List.mem_filter.mp hField).2
  rw [filter_ofNamed, field?]
  generalize named.filter (fun field => field.1 = name) = found at hNames
  match found, hNames with
  | [], _ => simp
  | [(text, value)], hNames =>
      obtain rfl : text = name := hNames (text, value) List.mem_cons_self
      simp [ofNamed]
  | _ :: _ :: _, _ => simp

/-- **Named parts are read in their spellings.** -/
theorem fields?_eq_some_iff {names : List String} {json : Json} {parts : List Json} :
    json.fields? names = some parts ↔ SpellsParts names parts json := by
  cases json with
  | array items =>
      simp only [fields?, SpellsParts]
      split <;> simp_all
  | object fields =>
      simp only [fields?, SpellsParts, Option.bind_eq_some_iff, mapM_namedField?_eq_some_iff,
        ← exists_named_iff]
      simp only [mapM_eq_some_iff, field?_eq_some_iff]
      constructor
      · rintro ⟨named, rfl, hParts⟩
        exact ⟨⟨named, rfl⟩, hParts⟩
      · rintro ⟨⟨named, rfl⟩, hParts⟩
        exact ⟨named, rfl, hParts⟩
  | null => simp [fields?, SpellsParts]
  | bool value => simp [fields?, SpellsParts]
  | number value => simp [fields?, SpellsParts]
  | string value => simp [fields?, SpellsParts]

theorem filter_name_eq_singleton {fields : List (String × Json)}
    (hNames : (fields.map Prod.fst).Nodup) {field : String × Json} (hField : field ∈ fields) :
    (fields.filter fun other => other.1 = field.1) = [field] := by
  induction fields with
  | nil => cases hField
  | cons first fields ih =>
      obtain ⟨hFirst, hRest⟩ := List.nodup_cons.mp hNames
      rcases List.mem_cons.mp hField with rfl | hField
      · have hNone : (fields.filter fun other => other.1 = field.1) = [] := by
          refine List.filter_eq_nil_iff.mpr fun other hOther hSame => hFirst ?_
          rw [← of_decide_eq_true hSame]
          exact List.mem_map_of_mem hOther
        rw [List.filter_cons_of_pos (by simp), hNone]
      · have hOther : first.1 ≠ field.1 := fun h => hFirst (h ▸ List.mem_map_of_mem hField)
        rw [List.filter_cons_of_neg (by simpa using hOther), ih hRest hField]

/-- Named parts as they are written. -/
theorem spellsParts_record {fields : List (String × Json)} (hNames : (fields.map Prod.fst).Nodup) :
    SpellsParts (fields.map Prod.fst) (fields.map Prod.snd) (record fields) := by
  refine ⟨exists_named_iff.mp ⟨fields, rfl⟩, ?_⟩
  rw [List.forall₂_map_left_iff, List.forall₂_map_right_iff]
  refine List.forall₂_same.mpr fun field hField => ?_
  show (fields.map ofNamed).filter _ = _
  rw [filter_ofNamed, filter_name_eq_singleton hNames hField]
  rfl

end Json

/-! ## Integers -/

namespace JsonNumber

/-- The integer that an integer literal denotes, however great. -/
def literal (n : JsonNumber) : Int :=
  if n.negative then -(Nat.ofDigitChars 10 n.whole 0 : Int) else Nat.ofDigitChars 10 n.whole 0

/-- An integer literal in the range of the words of a width. -/
structure Fits (w : IntWidth) (n : JsonNumber) : Prop where
  isIntegerLiteral : n.isIntegerLiteral = true
  least_le : -(2 ^ (w.bits - 1) : Int) ≤ n.literal
  lt : n.literal < (2 ^ (w.bits - 1) : Int)

/-- **Integers are read from integer literals in range**, other than `-0`, as what they denote. -/
theorem int?_eq_some_iff {n : JsonNumber} {i : Int} :
    n.int? = some i ↔ n.isIntegerLiteral = true ∧ n.literal = i ∧ (n.negative = true → i ≠ 0) ∧
      -2 ^ 63 ≤ i ∧ i < 2 ^ 64 := by
  have hSigned : twoPow 63 = 2 ^ 63 := rfl
  have hUnsigned : twoPow 64 = 2 ^ 64 := rfl
  simp only [int?, literal, hSigned, hUnsigned]
  cases hLiteral : n.isIntegerLiteral <;> cases hNegative : n.negative <;>
    simp only [Bool.not_false, Bool.not_true, Bool.false_eq_true, if_false, if_true, reduceCtorEq,
      false_and, true_and, forall_const, false_implies, Option.ite_none_right_eq_some,
      Option.some.injEq]
  · omega
  · omega

theorem literal_ofInt (i : Int) : (ofInt i).literal = i := by
  rw [literal, ofInt, Text.ofDigitChars_decimal]
  by_cases hNegative : i < 0
  · rw [decide_eq_true hNegative, if_pos rfl]
    omega
  · rw [decide_eq_false hNegative, if_neg Bool.false_ne_true]
    omega

theorem wellFormed_ofInt (i : Int) : (ofInt i).WellFormed where
  whole := Text.allDigits_decimal _
  whole_ne_nil := Text.decimal_ne_nil _
  whole_lead := Text.decimal_lead _
  fraction := fun _ hc => nomatch hc
  exponent := fun _ _ h => nomatch h

end JsonNumber

namespace Json

/-- The spellings of an integer. -/
def SpellsInt (i : Int) (json : Json) : Prop :=
  ∃ n : JsonNumber, json = number n ∧ n.isIntegerLiteral = true ∧ n.literal = i ∧
    (n.negative = true → i ≠ 0)

theorem spellsInt_ofInt (i : Int) : SpellsInt i (ofInt i) := by
  refine ⟨.ofInt i, rfl, rfl, JsonNumber.literal_ofInt i, ?_⟩
  intro hNegative
  exact Int.ne_of_lt (of_decide_eq_true hNegative)

theorem twoPow_bits (w : IntWidth) : 2 * (twoPow (w.bits - 1) : Int) = 2 ^ w.bits := by
  cases w <;> rfl

theorem two_pow_bits_le (w : IntWidth) : (2 ^ w.bits : Int) ≤ 2 ^ 64 := by
  cases w <;> decide

/-- **Words are read from spellings of their signed readings**, never wrapped. -/
theorem word?_eq_some_iff {w : IntWidth} {json : Json} {x : Word w} :
    json.word? w = some x ↔ SpellsInt x.signed json := by
  have hPow := twoPow_bits w
  have hMost := two_pow_bits_le w
  have hLow := x.le_two_mul_signed
  have hHigh := x.two_mul_signed_lt
  rw [word?, Option.map_eq_some_iff]
  constructor
  · rintro ⟨i, hRead, rfl⟩
    cases json with
    | number n =>
        obtain ⟨hInt, hRange⟩ := Option.filter_eq_some_iff.mp hRead
        have hBounds := of_decide_eq_true hRange
        obtain ⟨hLiteral, hValue, hZero, _⟩ := JsonNumber.int?_eq_some_iff.mp hInt
        rw [Word.signed_ofSigned (by omega) (by omega)]
        exact ⟨n, rfl, hLiteral, hValue, hZero⟩
    | null | bool _ | string _ | array _ | object _ => cases hRead
  · rintro ⟨n, rfl, hLiteral, hValue, hZero⟩
    have hInt := JsonNumber.int?_eq_some_iff.mpr
      ⟨hLiteral, hValue, hZero, by omega, by omega⟩
    refine ⟨x.signed, Option.filter_eq_some_iff.mpr ⟨hInt, decide_eq_true ⟨?_, ?_⟩⟩,
      x.ofSigned_signed⟩
    · omega
    · omega

/-- The word of a literal is what the literal denotes. -/
theorem signed_of_word?_number {w : IntWidth} {n : JsonNumber} {x : Word w}
    (h : (number n).word? w = some x) : x.signed = n.literal := by
  obtain ⟨n', hNumber, _, hValue, _⟩ := word?_eq_some_iff.mp h
  rw [← hValue, Json.number.inj hNumber]

/-- A literal that does not fit a width is none of its words. -/
theorem word?_number_eq_none {w : IntWidth} {n : JsonNumber} (h : ¬ n.Fits w) :
    (number n).word? w = none := by
  cases hRead : (number n).word? w with
  | none => rfl
  | some x =>
      obtain ⟨n', hNumber, hLiteral, hValue, _⟩ := word?_eq_some_iff.mp hRead
      obtain rfl := Json.number.inj hNumber
      have hPow : (2 * 2 ^ (w.bits - 1) : Int) = 2 ^ w.bits := by
        cases w <;> rfl
      have hLow := x.le_two_mul_signed
      have hHigh := x.two_mul_signed_lt
      exact absurd ⟨hLiteral, by omega, by omega⟩ h

/-! ## Written forms -/

theorem wellFormed_ofText (text : String) : (ofText text).WellFormed := .string text

theorem wellFormed_ofInt (i : Int) : (ofInt i).WellFormed := .number (JsonNumber.wellFormed_ofInt i)

theorem wellFormed_tagged (tag : String) {data : Json} (h : data.WellFormed) :
    (tagged tag data).WellFormed := by
  refine .object ?_ ?_
  · rintro field hField
    obtain rfl := List.mem_singleton.mp hField
    exact ⟨tag, rfl⟩
  · rintro field hField
    obtain rfl := List.mem_singleton.mp hField
    exact h

theorem wellFormed_record {fields : List (String × Json)}
    (h : ∀ field ∈ fields, field.2.WellFormed) : (record fields).WellFormed := by
  refine .object ?_ ?_
  · rintro field hField
    obtain ⟨named, _, rfl⟩ := List.mem_map.mp hField
    exact ⟨named.1, rfl⟩
  · rintro field hField
    obtain ⟨named, hNamed, rfl⟩ := List.mem_map.mp hField
    exact h named hNamed

theorem wellFormed_tags (parts : List (String × String)) :
    (record (parts.map fun (name, tag) => (name, ofText tag))).WellFormed := by
  refine wellFormed_record fun field hField => ?_
  obtain ⟨part, _, rfl⟩ := List.mem_map.mp hField
  exact wellFormed_ofText part.2

end Json

end WidthExact
