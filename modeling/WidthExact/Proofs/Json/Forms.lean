import WidthExact.Proofs.Json.Spelling
import WidthExact.Proofs.Primitive.Names

/-!
# Spellings of the JSON forms

For each type its spellings are put together from those of tags, named parts and integers. The
reader of the type takes these and nothing else, and what the writer writes is one of them.

## Main results

* `Primitive.ofJson?_eq_some_iff` and its like for the other types — the spellings that are read.
* `Primitive.spells_toJson` and its like — what is written is among them.
-/

namespace WidthExact

open Json

/-! ## Widths and scalar types -/

theorem IntWidth.ofJson?_eq_some_iff {json : Json} {w : IntWidth} :
    ofJson? json = some w ↔ SpellsTag w.tag json :=
  readTag?_eq_some_iff mem_all (by decide)

theorem FloatWidth.ofJson?_eq_some_iff {json : Json} {f : FloatWidth} :
    ofJson? json = some f ↔ SpellsTag f.tag json :=
  readTag?_eq_some_iff mem_all (by decide)

theorem ScalarType.mem_all (type : ScalarType) : type ∈ all := by
  cases type with
  | bool => decide
  | int w => cases w <;> decide
  | float f => cases f <;> decide

theorem ScalarType.ofJson?_eq_some_iff {json : Json} {type : ScalarType} :
    ofJson? json = some type ↔ SpellsTag type.text json :=
  readTag?_eq_some_iff mem_all (by decide)

/-! ## Scalars -/

namespace Scalar

theorem type_of_valueOfJson? {type : ScalarType} {data : Json} {s : Scalar}
    (h : valueOfJson? type data = some s) : s.type = type := by
  cases type with
  | bool =>
      obtain ⟨_, _, rfl⟩ := Option.map_eq_some_iff.mp h
      rfl
  | int w =>
      obtain ⟨_, _, rfl⟩ := Option.map_eq_some_iff.mp h
      rfl
  | float f =>
      obtain ⟨_, _, rfl⟩ := Option.map_eq_some_iff.mp h
      rfl

theorem find?_tag_iff {tag : String} {type : ScalarType} :
    (ScalarType.all.find? fun type => type.tag = tag) = some type ↔ type.tag = tag :=
  find?_tag_eq_some_iff ScalarType.mem_all (by decide)

theorem ofJson?_tagged (type : ScalarType) (data : Json) :
    ofJson? (tagged type.tag data) = valueOfJson? type data := by
  have hFind : (ScalarType.all.find? fun type' => type'.tag = type.tag) = some type :=
    find?_tag_iff.mpr rfl
  rw [ofJson?, tag?_tagged]
  simp only [hFind, Option.bind_some]

/-- A scalar stands behind the tag of its type. -/
theorem ofJson?_iff_valueOfJson? {json : Json} {s : Scalar} :
    ofJson? json = some s ↔
      ∃ data, json = tagged s.type.tag data ∧ valueOfJson? s.type data = some s := by
  constructor
  · intro h
    unfold ofJson? at h
    split at h
    · next tag data hTag =>
        obtain ⟨type, hType, hValue⟩ := Option.bind_eq_some_iff.mp h
        obtain rfl := type_of_valueOfJson? hValue
        rw [← find?_tag_iff.mp hType] at hTag
        exact ⟨data, tag?_eq_some_iff.mp hTag, hValue⟩
    · cases h
  · rintro ⟨data, rfl, hValue⟩
    rw [ofJson?_tagged, hValue]

/-- The spellings of a scalar. -/
def Spells (json : Json) : Scalar → Prop
  | bool value => json = tagged "Bool" (.bool value)
  | int w x => ∃ data, json = tagged (ScalarType.int w).tag data ∧ SpellsInt x.signed data
  | float f x => ∃ data, json = tagged (ScalarType.float f).tag data ∧ data.binary? f = some x

theorem valueOfJson?_bool_iff {data : Json} {value : Bool} :
    valueOfJson? .bool data = some (bool value) ↔ data = .bool value := by
  cases data with
  | bool value' => simp [valueOfJson?, bool?]
  | null | number _ | string _ | array _ | object _ => simp [valueOfJson?, bool?]

theorem valueOfJson?_int_iff {w : IntWidth} {data : Json} {x : Word w} :
    valueOfJson? (.int w) data = some (int w x) ↔ SpellsInt x.signed data := by
  rw [← word?_eq_some_iff, valueOfJson?, Option.map_eq_some_iff]
  constructor
  · rintro ⟨x', hWord, hSame⟩
    rw [hWord, eq_of_heq (int.inj hSame).2]
  · intro hWord
    exact ⟨x, hWord, rfl⟩

theorem valueOfJson?_float_iff {f : FloatWidth} {data : Json} {x : Binary f} :
    valueOfJson? (.float f) data = some (float f x) ↔ data.binary? f = some x := by
  rw [valueOfJson?, Option.map_eq_some_iff]
  constructor
  · rintro ⟨x', hBinary, hSame⟩
    rw [hBinary, eq_of_heq (float.inj hSame).2]
  · intro hBinary
    exact ⟨x, hBinary, rfl⟩

theorem ofJson?_eq_some_iff {json : Json} {s : Scalar} : ofJson? json = some s ↔ s.Spells json := by
  rw [ofJson?_iff_valueOfJson?]
  cases s with
  | bool value =>
      simp only [type, valueOfJson?_bool_iff, exists_eq_right]
      rfl
  | int w x => exact exists_congr fun _ => and_congr Iff.rfl valueOfJson?_int_iff
  | float f x => exact exists_congr fun _ => and_congr Iff.rfl valueOfJson?_float_iff

theorem spells_toJson {s : Scalar} (hType : ∀ f, s.type ≠ .float f) : s.Spells s.toJson := by
  cases s with
  | bool value => rfl
  | int w x => exact ⟨_, rfl, spellsInt_ofInt x.signed⟩
  | float f x => exact absurd rfl (hType f)

end Scalar

/-! ## Signatures -/

namespace Signature

/-- The spellings of a signature. -/
def Spells (signature : Signature) (json : Json) : Prop :=
  ∃ items result, SpellsParts ["params", "result"] [.array items, result] json ∧
    List.Forall₂ (fun item type => SpellsTag (ScalarType.text type) item) items signature.params ∧
    SpellsTag signature.result.text result

theorem typesOfJson?_eq_some_iff {json : Json} {types : List ScalarType} :
    typesOfJson? json = some types ↔ ∃ items, json = .array items ∧
      List.Forall₂ (fun item type => SpellsTag (ScalarType.text type) item) items types := by
  cases json with
  | array items =>
      simp only [typesOfJson?, mapM_eq_some_iff, ScalarType.ofJson?_eq_some_iff, Json.array.injEq,
        exists_eq_left']
  | null | bool _ | number _ | string _ | object _ => simp [typesOfJson?]

theorem ofJson?_eq_some_iff {json : Json} {signature : Signature} :
    ofJson? json = some signature ↔ signature.Spells json := by
  constructor
  · intro h
    unfold ofJson? at h
    split at h
    · next params result hParts =>
        obtain ⟨types, hTypes, hSignature⟩ := Option.bind_eq_some_iff.mp h
        obtain ⟨type, hType, rfl⟩ := Option.map_eq_some_iff.mp hSignature
        obtain ⟨items, rfl, hItems⟩ := typesOfJson?_eq_some_iff.mp hTypes
        exact ⟨items, result, fields?_eq_some_iff.mp hParts, hItems,
          ScalarType.ofJson?_eq_some_iff.mp hType⟩
    · cases h
  · rintro ⟨items, result, hParts, hItems, hResult⟩
    have hTypes := typesOfJson?_eq_some_iff.mpr ⟨items, rfl, hItems⟩
    rw [ofJson?, fields?_eq_some_iff.mpr hParts]
    simp only [hTypes, Option.bind_some, ScalarType.ofJson?_eq_some_iff.mpr hResult,
      Option.map_some]

theorem spells_toJson (signature : Signature) : signature.Spells signature.toJson := by
  refine ⟨signature.params.map ScalarType.toJson, signature.result.toJson,
    spellsParts_record (by decide : ["params", "result"].Nodup), ?_, .inl rfl⟩
  rw [List.forall₂_map_left_iff]
  exact List.forall₂_same.mpr fun _ _ => .inl rfl

end Signature

/-! ## Policies -/

namespace ZeroDivisionPolicy

/-- The spellings of a policy. -/
def Spells (json : Json) : ZeroDivisionPolicy → Prop
  | error => SpellsTag "Error" json
  | fatal exitCode => ∃ data payload, json = tagged "Fatal" data ∧
      SpellsParts ["exit_code"] [payload] data ∧ SpellsInt exitCode.signed payload

theorem ofJson?_fatal {data payload : Json} (h : SpellsParts ["exit_code"] [payload] data) :
    ofJson? (tagged "Fatal" data) = (payload.word? .w32).map fatal := by
  rw [ofJson?, tag?_tagged]
  simp only [fields?_eq_some_iff.mpr h]

theorem ofJson?_eq_some_iff {json : Json} {policy : ZeroDivisionPolicy} :
    ofJson? json = some policy ↔ policy.Spells json := by
  constructor
  · intro h
    unfold ofJson? at h
    split at h
    · next data hTag =>
        obtain ⟨hData, hPolicy⟩ := Option.ite_none_right_eq_some.mp h
        obtain rfl := Option.some.inj hPolicy
        exact spellsTag_iff.mpr ⟨data, hTag, hData⟩
    · next data hTag =>
        split at h
        · next payload hParts =>
            obtain ⟨code, hCode, rfl⟩ := Option.map_eq_some_iff.mp h
            exact ⟨data, payload, tag?_eq_some_iff.mp hTag, fields?_eq_some_iff.mp hParts,
              word?_eq_some_iff.mp hCode⟩
        · cases h
    · cases h
  · cases policy with
    | error =>
        intro h
        obtain ⟨data, hTag, hData⟩ := spellsTag_iff.mp h
        rw [ofJson?, hTag]
        exact if_pos hData
    | fatal code =>
        rintro ⟨data, payload, rfl, hParts, hPayload⟩
        rw [ofJson?_fatal hParts, word?_eq_some_iff.mpr hPayload, Option.map_some]

theorem spells_toJson (policy : ZeroDivisionPolicy) : policy.Spells policy.toJson := by
  cases policy with
  | error => exact .inl rfl
  | fatal code =>
      exact ⟨_, .ofInt code.signed, rfl, spellsParts_record (List.nodup_singleton "exit_code"),
        spellsInt_ofInt _⟩

end ZeroDivisionPolicy

/-! ## Primitives -/

namespace Json

/-- The spellings of named parts that are tags. -/
def SpellsTags (parts : List (String × String)) (json : Json) : Prop :=
  ∃ spelled, SpellsParts (parts.map Prod.fst) spelled json ∧
    List.Forall₂ (fun part item => SpellsTag part.2 item) parts spelled

theorem spellsTags_record {parts : List (String × String)} (hNames : (parts.map Prod.fst).Nodup) :
    SpellsTags parts (record (parts.map fun (name, tag) => (name, ofText tag))) := by
  have hFirst : (parts.map fun (name, tag) => (name, ofText tag)).map Prod.fst =
      parts.map Prod.fst := by
    rw [List.map_map]
    rfl
  have hParts := spellsParts_record (hFirst ▸ hNames)
  rw [hFirst, List.map_map] at hParts
  refine ⟨_, hParts, ?_⟩
  rw [List.forall₂_map_right_iff]
  exact List.forall₂_same.mpr fun _ _ => .inl rfl

section

variable {α β γ δ : Type} {op? : Json → Option α} {opTag : α → String}
  (hOp : ∀ {json op}, op? json = some op ↔ SpellsTag (opTag op) json)

include hOp

theorem readAtWidth?_eq_some_iff {width? : Json → Option β} {widthTag : β → String}
    (hWidth : ∀ {json width}, width? json = some width ↔ SpellsTag (widthTag width) json)
    {make : α → β → γ} {data : Json} {value : γ} :
    data.readAtWidth? op? width? make = some value ↔
      ∃ op width, make op width = value ∧
        data.SpellsTags [("op", opTag op), ("width", widthTag width)] := by
  constructor
  · intro h
    unfold readAtWidth? at h
    split at h
    · next opData widthData hParts =>
        obtain ⟨op, hReadOp, hMake⟩ := Option.bind_eq_some_iff.mp h
        obtain ⟨width, hReadWidth, rfl⟩ := Option.map_eq_some_iff.mp hMake
        exact ⟨op, width, rfl, _, fields?_eq_some_iff.mp hParts,
          .cons (hOp.mp hReadOp) (.cons (hWidth.mp hReadWidth) .nil)⟩
    · cases h
  · rintro ⟨op, width, rfl, spelled, hParts, hTags⟩
    obtain _ | ⟨hReadOp, _ | ⟨hReadWidth, _ | _⟩⟩ := hTags
    have hFields := fields?_eq_some_iff.mpr hParts
    simp only [List.map_cons, List.map_nil] at hFields
    simp only [readAtWidth?, hFields, hOp.mpr hReadOp, hWidth.mpr hReadWidth, Option.bind_some,
      Option.map_some]

theorem readBetween?_eq_some_iff {source? : Json → Option β} {sourceTag : β → String}
    (hSource : ∀ {json source}, source? json = some source ↔ SpellsTag (sourceTag source) json)
    {target? : Json → Option γ} {targetTag : γ → String}
    (hTarget : ∀ {json target}, target? json = some target ↔ SpellsTag (targetTag target) json)
    {make : α → β → γ → δ} {data : Json} {value : δ} :
    data.readBetween? op? source? target? make = some value ↔
      ∃ op source target, make op source target = value ∧ data.SpellsTags
        [("op", opTag op), ("from", sourceTag source), ("to", targetTag target)] := by
  constructor
  · intro h
    unfold readBetween? at h
    split at h
    · next opData sourceData targetData hParts =>
        obtain ⟨op, hReadOp, hRest⟩ := Option.bind_eq_some_iff.mp h
        obtain ⟨source, hReadSource, hMake⟩ := Option.bind_eq_some_iff.mp hRest
        obtain ⟨target, hReadTarget, rfl⟩ := Option.map_eq_some_iff.mp hMake
        exact ⟨op, source, target, rfl, _, fields?_eq_some_iff.mp hParts, .cons (hOp.mp hReadOp)
          (.cons (hSource.mp hReadSource) (.cons (hTarget.mp hReadTarget) .nil))⟩
    · cases h
  · rintro ⟨op, source, target, rfl, spelled, hParts, hTags⟩
    obtain _ | ⟨hReadOp, _ | ⟨hReadSource, _ | ⟨hReadTarget, _ | _⟩⟩⟩ := hTags
    have hFields := fields?_eq_some_iff.mpr hParts
    simp only [List.map_cons, List.map_nil] at hFields
    simp only [readBetween?, hFields, hOp.mpr hReadOp, hSource.mpr hReadSource,
      hTarget.mpr hReadTarget, Option.bind_some, Option.map_some]

end

theorem readFormats?_eq_some_iff {α β : Type} {width? : Json → Option α} {widthTag : α → String}
    (hWidth : ∀ {json width}, width? json = some width ↔ SpellsTag (widthTag width) json)
    {make : α → α → β} {data : Json} {value : β} :
    data.readFormats? width? make = some value ↔
      ∃ source target, make source target = value ∧
        data.SpellsTags [("from", widthTag source), ("to", widthTag target)] := by
  constructor
  · intro h
    unfold readFormats? at h
    split at h
    · next sourceData targetData hParts =>
        obtain ⟨source, hReadSource, hMake⟩ := Option.bind_eq_some_iff.mp h
        obtain ⟨target, hReadTarget, rfl⟩ := Option.map_eq_some_iff.mp hMake
        exact ⟨source, target, rfl, _, fields?_eq_some_iff.mp hParts,
          .cons (hWidth.mp hReadSource) (.cons (hWidth.mp hReadTarget) .nil)⟩
    · cases h
  · rintro ⟨source, target, rfl, spelled, hParts, hTags⟩
    obtain _ | ⟨hReadSource, _ | ⟨hReadTarget, _ | _⟩⟩ := hTags
    have hFields := fields?_eq_some_iff.mpr hParts
    simp only [List.map_cons, List.map_nil] at hFields
    simp only [readFormats?, hFields, hWidth.mpr hReadSource, hWidth.mpr hReadTarget,
      Option.bind_some, Option.map_some]

end Json

/-! ## Operations -/

theorem IntBinaryOp.readTag?_iff {json : Json} {op : IntBinaryOp} :
    json.readTag? all tag = some op ↔ SpellsTag op.tag json :=
  readTag?_eq_some_iff mem_all (by decide)

theorem IntCompareOp.readTag?_iff {json : Json} {op : IntCompareOp} :
    json.readTag? all tag = some op ↔ SpellsTag op.tag json :=
  readTag?_eq_some_iff mem_all (by decide)

theorem IntUnaryOp.readTag?_iff {json : Json} {op : IntUnaryOp} :
    json.readTag? all tag = some op ↔ SpellsTag op.tag json :=
  readTag?_eq_some_iff mem_all (by decide)

theorem BoolCompareOp.readTag?_iff {json : Json} {op : BoolCompareOp} :
    json.readTag? all tag = some op ↔ SpellsTag op.tag json :=
  readTag?_eq_some_iff mem_all (by decide)

theorem IntConvertOp.readTag?_iff {json : Json} {op : IntConvertOp} :
    json.readTag? all tag = some op ↔ SpellsTag op.tag json :=
  readTag?_eq_some_iff mem_all (by decide)

theorem IntToFloatOp.readTag?_iff {json : Json} {op : IntToFloatOp} :
    json.readTag? all tag = some op ↔ SpellsTag op.tag json :=
  readTag?_eq_some_iff mem_all (by decide)

theorem FloatToIntOp.readTag?_iff {json : Json} {op : FloatToIntOp} :
    json.readTag? all tag = some op ↔ SpellsTag op.tag json :=
  readTag?_eq_some_iff mem_all (by decide)

theorem FloatUnaryOp.readTag?_iff {json : Json} {op : FloatUnaryOp} :
    json.readTag? all tag = some op ↔ SpellsTag op.tag json :=
  readTag?_eq_some_iff mem_all (by decide)

theorem FloatBinaryOp.readTag?_iff {json : Json} {op : FloatBinaryOp} :
    json.readTag? all tag = some op ↔ SpellsTag op.tag json :=
  readTag?_eq_some_iff mem_all (by decide)

theorem FloatPredicateOp.readTag?_iff {json : Json} {op : FloatPredicateOp} :
    json.readTag? all tag = some op ↔ SpellsTag op.tag json :=
  readTag?_eq_some_iff mem_all (by decide)

namespace Primitive

/-- The tag of the family. -/
def familyTag : Primitive → String
  | intBinary _ _ => "IntBinary"
  | intCompare _ _ => "IntCompare"
  | intUnary _ _ => "IntUnary"
  | boolCompare _ => "BoolCompare"
  | intConvert _ _ _ => "IntConvert"
  | intToFloat _ _ _ => "IntToFloat"
  | floatToInt _ _ _ => "FloatToInt"
  | fpconv _ _ => "FpConv"
  | toBits _ => "ToBits"
  | fromBits _ => "FromBits"
  | floatUnary _ _ => "FloatUnary"
  | floatBinary _ _ => "FloatBinary"
  | floatPredicate _ _ => "FloatPredicate"

/-- The spellings of the operation and the widths. -/
def SpellsData (data : Json) : Primitive → Prop
  | intBinary op width => data.SpellsTags [("op", op.tag), ("width", width.tag)]
  | intCompare op width => data.SpellsTags [("op", op.tag), ("width", width.tag)]
  | intUnary op width => data.SpellsTags [("op", op.tag), ("width", width.tag)]
  | boolCompare op => SpellsTag op.tag data
  | intConvert op source target =>
    data.SpellsTags [("op", op.tag), ("from", source.tag), ("to", target.tag)]
  | intToFloat op source target =>
    data.SpellsTags [("op", op.tag), ("from", source.tag), ("to", target.tag)]
  | floatToInt op source target =>
    data.SpellsTags [("op", op.tag), ("from", source.tag), ("to", target.tag)]
  | fpconv source target => data.SpellsTags [("from", source.tag), ("to", target.tag)]
  | toBits width => SpellsTag width.tag data
  | fromBits width => SpellsTag width.tag data
  | floatUnary op width => data.SpellsTags [("op", op.tag), ("width", width.tag)]
  | floatBinary op width => data.SpellsTags [("op", op.tag), ("width", width.tag)]
  | floatPredicate op width => data.SpellsTags [("op", op.tag), ("width", width.tag)]

/-- **The data behind a family's tag are read in their spellings.** -/
theorem dataOfJson?_eq_some_iff {family : String} {data : Json} {p : Primitive} :
    dataOfJson? family data = some p ↔ p.familyTag = family ∧ p.SpellsData data := by
  constructor
  · intro h
    unfold dataOfJson? at h
    split at h
    · obtain ⟨op, width, rfl, hData⟩ := (readAtWidth?_eq_some_iff
        IntBinaryOp.readTag?_iff IntWidth.ofJson?_eq_some_iff).mp h
      exact ⟨rfl, hData⟩
    · obtain ⟨op, width, rfl, hData⟩ := (readAtWidth?_eq_some_iff
        IntCompareOp.readTag?_iff IntWidth.ofJson?_eq_some_iff).mp h
      exact ⟨rfl, hData⟩
    · obtain ⟨op, width, rfl, hData⟩ := (readAtWidth?_eq_some_iff
        IntUnaryOp.readTag?_iff IntWidth.ofJson?_eq_some_iff).mp h
      exact ⟨rfl, hData⟩
    · obtain ⟨op, hData, rfl⟩ := Option.map_eq_some_iff.mp h
      exact ⟨rfl, BoolCompareOp.readTag?_iff.mp hData⟩
    · obtain ⟨op, source, target, rfl, hData⟩ := (readBetween?_eq_some_iff
        IntConvertOp.readTag?_iff IntWidth.ofJson?_eq_some_iff IntWidth.ofJson?_eq_some_iff).mp h
      exact ⟨rfl, hData⟩
    · obtain ⟨op, source, target, rfl, hData⟩ := (readBetween?_eq_some_iff
        IntToFloatOp.readTag?_iff IntWidth.ofJson?_eq_some_iff FloatWidth.ofJson?_eq_some_iff).mp h
      exact ⟨rfl, hData⟩
    · obtain ⟨op, source, target, rfl, hData⟩ := (readBetween?_eq_some_iff
        FloatToIntOp.readTag?_iff FloatWidth.ofJson?_eq_some_iff IntWidth.ofJson?_eq_some_iff).mp h
      exact ⟨rfl, hData⟩
    · obtain ⟨source, target, rfl, hData⟩ :=
        (readFormats?_eq_some_iff FloatWidth.ofJson?_eq_some_iff).mp h
      exact ⟨rfl, hData⟩
    · obtain ⟨width, hData, rfl⟩ := Option.map_eq_some_iff.mp h
      exact ⟨rfl, FloatWidth.ofJson?_eq_some_iff.mp hData⟩
    · obtain ⟨width, hData, rfl⟩ := Option.map_eq_some_iff.mp h
      exact ⟨rfl, FloatWidth.ofJson?_eq_some_iff.mp hData⟩
    · obtain ⟨op, width, rfl, hData⟩ := (readAtWidth?_eq_some_iff
        FloatUnaryOp.readTag?_iff FloatWidth.ofJson?_eq_some_iff).mp h
      exact ⟨rfl, hData⟩
    · obtain ⟨op, width, rfl, hData⟩ := (readAtWidth?_eq_some_iff
        FloatBinaryOp.readTag?_iff FloatWidth.ofJson?_eq_some_iff).mp h
      exact ⟨rfl, hData⟩
    · obtain ⟨op, width, rfl, hData⟩ := (readAtWidth?_eq_some_iff
        FloatPredicateOp.readTag?_iff FloatWidth.ofJson?_eq_some_iff).mp h
      exact ⟨rfl, hData⟩
    · cases h
  · rintro ⟨rfl, h⟩
    cases p with
    | intBinary op width =>
        exact (readAtWidth?_eq_some_iff IntBinaryOp.readTag?_iff
          IntWidth.ofJson?_eq_some_iff).mpr ⟨op, width, rfl, h⟩
    | intCompare op width =>
        exact (readAtWidth?_eq_some_iff IntCompareOp.readTag?_iff
          IntWidth.ofJson?_eq_some_iff).mpr ⟨op, width, rfl, h⟩
    | intUnary op width =>
        exact (readAtWidth?_eq_some_iff IntUnaryOp.readTag?_iff
          IntWidth.ofJson?_eq_some_iff).mpr ⟨op, width, rfl, h⟩
    | boolCompare op =>
        exact Option.map_eq_some_iff.mpr ⟨op, BoolCompareOp.readTag?_iff.mpr h, rfl⟩
    | intConvert op source target =>
        exact (readBetween?_eq_some_iff IntConvertOp.readTag?_iff IntWidth.ofJson?_eq_some_iff
          IntWidth.ofJson?_eq_some_iff).mpr ⟨op, source, target, rfl, h⟩
    | intToFloat op source target =>
        exact (readBetween?_eq_some_iff IntToFloatOp.readTag?_iff IntWidth.ofJson?_eq_some_iff
          FloatWidth.ofJson?_eq_some_iff).mpr ⟨op, source, target, rfl, h⟩
    | floatToInt op source target =>
        exact (readBetween?_eq_some_iff FloatToIntOp.readTag?_iff FloatWidth.ofJson?_eq_some_iff
          IntWidth.ofJson?_eq_some_iff).mpr ⟨op, source, target, rfl, h⟩
    | fpconv source target =>
        exact (readFormats?_eq_some_iff FloatWidth.ofJson?_eq_some_iff).mpr ⟨source, target, rfl, h⟩
    | toBits width =>
        exact Option.map_eq_some_iff.mpr ⟨width, FloatWidth.ofJson?_eq_some_iff.mpr h, rfl⟩
    | fromBits width =>
        exact Option.map_eq_some_iff.mpr ⟨width, FloatWidth.ofJson?_eq_some_iff.mpr h, rfl⟩
    | floatUnary op width =>
        exact (readAtWidth?_eq_some_iff FloatUnaryOp.readTag?_iff
          FloatWidth.ofJson?_eq_some_iff).mpr ⟨op, width, rfl, h⟩
    | floatBinary op width =>
        exact (readAtWidth?_eq_some_iff FloatBinaryOp.readTag?_iff
          FloatWidth.ofJson?_eq_some_iff).mpr ⟨op, width, rfl, h⟩
    | floatPredicate op width =>
        exact (readAtWidth?_eq_some_iff FloatPredicateOp.readTag?_iff
          FloatWidth.ofJson?_eq_some_iff).mpr ⟨op, width, rfl, h⟩

/-- The spellings of a primitive. -/
def Spells (p : Primitive) (json : Json) : Prop :=
  ∃ data, json = tagged p.familyTag data ∧ p.SpellsData data

theorem ofJson?_eq_some_iff {json : Json} {p : Primitive} :
    ofJson? json = some p ↔ p.Spells json := by
  constructor
  · intro h
    unfold ofJson? at h
    split at h
    · next family data hTag =>
        obtain ⟨rfl, hData⟩ := dataOfJson?_eq_some_iff.mp h
        exact ⟨data, tag?_eq_some_iff.mp hTag, hData⟩
    · cases h
  · rintro ⟨data, rfl, hData⟩
    rw [ofJson?, tag?_tagged]
    exact dataOfJson?_eq_some_iff.mpr ⟨rfl, hData⟩

theorem spells_toJson (p : Primitive) : p.Spells p.toJson := by
  have hAtWidth : ["op", "width"].Nodup := by decide
  have hBetween : ["op", "from", "to"].Nodup := by decide
  have hFormats : ["from", "to"].Nodup := by decide
  cases p with
  | intBinary op width => exact ⟨_, rfl, spellsTags_record hAtWidth⟩
  | intCompare op width => exact ⟨_, rfl, spellsTags_record hAtWidth⟩
  | intUnary op width => exact ⟨_, rfl, spellsTags_record hAtWidth⟩
  | boolCompare op => exact ⟨_, rfl, .inl rfl⟩
  | intConvert op source target => exact ⟨_, rfl, spellsTags_record hBetween⟩
  | intToFloat op source target => exact ⟨_, rfl, spellsTags_record hBetween⟩
  | floatToInt op source target => exact ⟨_, rfl, spellsTags_record hBetween⟩
  | fpconv source target => exact ⟨_, rfl, spellsTags_record hFormats⟩
  | toBits width => exact ⟨_, rfl, .inl rfl⟩
  | fromBits width => exact ⟨_, rfl, .inl rfl⟩
  | floatUnary op width => exact ⟨_, rfl, spellsTags_record hAtWidth⟩
  | floatBinary op width => exact ⟨_, rfl, spellsTags_record hAtWidth⟩
  | floatPredicate op width => exact ⟨_, rfl, spellsTags_record hAtWidth⟩

end Primitive

end WidthExact
