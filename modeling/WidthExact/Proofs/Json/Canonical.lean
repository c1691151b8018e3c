import WidthExact.Proofs.Json.Forms

/-!
# The JSON forms lose nothing

A value that is written is read back, and a text in whatever spelling comes to the one text of its
value: the tree that is written is one of the spellings that are read, and the text of a tree is
read as the tree. Floating-point scalars are left out here.

## Main results

* `Json.canonical_of_spells` — from spellings of trees to texts.
* `json_forms` — nothing is lost, one text is left for each value, and no integer is wrapped.
-/

namespace WidthExact

open Json

/-! ## Written forms are trees that can be written -/

theorem Primitive.wellFormed_toJson (p : Primitive) : p.toJson.WellFormed := by
  have hAtWidth : ∀ family op width, (Json.atWidth family op width).WellFormed :=
    fun family op width => wellFormed_tagged family (wellFormed_tags [("op", op), ("width", width)])
  have hBetween : ∀ family op source target,
      (Json.between family op source target).WellFormed :=
    fun family op source target =>
      wellFormed_tagged family (wellFormed_tags [("op", op), ("from", source), ("to", target)])
  cases p with
  | intBinary op width | intCompare op width | intUnary op width => exact hAtWidth _ _ _
  | floatUnary op width | floatBinary op width | floatPredicate op width => exact hAtWidth _ _ _
  | intConvert op source target | intToFloat op source target | floatToInt op source target =>
      exact hBetween _ _ _ _
  | boolCompare op => exact wellFormed_tagged _ (wellFormed_ofText _)
  | toBits width | fromBits width => exact wellFormed_tagged _ (wellFormed_ofText _)
  | fpconv source target =>
      exact wellFormed_tagged _ (wellFormed_tags [("from", source.tag), ("to", target.tag)])

theorem Scalar.wellFormed_toJson {s : Scalar} (hType : ∀ f, s.type ≠ .float f) :
    s.toJson.WellFormed := by
  cases s with
  | bool value => exact wellFormed_tagged _ (.bool value)
  | int w x => exact wellFormed_tagged _ (wellFormed_ofInt _)
  | float f x => exact absurd rfl (hType f)

theorem Signature.wellFormed_toJson (signature : Signature) : signature.toJson.WellFormed := by
  have hParams : (Json.array (signature.params.map ScalarType.toJson)).WellFormed := by
    refine .array fun item hItem => ?_
    obtain ⟨type, _, rfl⟩ := List.mem_map.mp hItem
    exact wellFormed_ofText _
  refine wellFormed_record ?_
  simp only [List.forall_mem_cons, ScalarType.toJson, wellFormed_ofText, hParams, List.not_mem_nil,
    false_implies, implies_true, and_self]

theorem ZeroDivisionPolicy.wellFormed_toJson (policy : ZeroDivisionPolicy) :
    policy.toJson.WellFormed := by
  cases policy with
  | error => exact wellFormed_ofText _
  | fatal code =>
      refine wellFormed_tagged _ (wellFormed_record ?_)
      simp only [List.forall_mem_cons, wellFormed_ofInt, List.not_mem_nil, false_implies,
        implies_true, and_self]

/-! ## Texts -/

namespace Json

section

variable {α : Type} (toJson : α → Json) (ofJson? : Json → Option α)

/-- Reads a text as a value. -/
def readText? (text : List Char) : Option α := (read? text).bind ofJson?

/-- The text that is written for the value which a text is read as. -/
def rewritten? (text : List Char) : Option (List Char) :=
  (readText? ofJson? text).map fun value => (toJson value).compact

/-- A value whose texts come to one. The texts that are read as it are those of its spellings; the
one that is written is among them, and any of them is rewritten to it. -/
structure Canonical (Spells : Json → Prop) (value : α) : Prop where
  readText?_iff : ∀ text, readText? ofJson? text = some value ↔
    ∃ json, read? text = some json ∧ Spells json
  readText?_written : readText? ofJson? (toJson value).compact = some value
  rewritten : ∀ text, readText? ofJson? text = some value →
    rewritten? toJson ofJson? text = some (toJson value).compact ∧
      rewritten? toJson ofJson? (toJson value).compact = some (toJson value).compact

variable {toJson ofJson?}

/-- A value is canonical if the reader takes its spellings and the writer gives one of them. -/
theorem canonical_of_spells {Spells : Json → Prop} {value : α}
    (hReader : ∀ {json}, ofJson? json = some value ↔ Spells json) (hWritten : Spells (toJson value))
    (hForm : (toJson value).WellFormed) : Canonical toJson ofJson? Spells value := by
  have hRead : readText? ofJson? (toJson value).compact = some value := by
    rw [readText?, read?_compact hForm, Option.bind_some]
    exact hReader.mpr hWritten
  refine ⟨fun text => ?_, hRead, fun text hText => ⟨?_, ?_⟩⟩
  · simp only [readText?, Option.bind_eq_some_iff, hReader]
  · rw [rewritten?, hText, Option.map_some]
  · rw [rewritten?, hRead, Option.map_some]

end

end Json

/-- **The JSON forms lose nothing.** Every width, scalar type, primitive, signature and policy, and
every scalar other than a floating-point one is read back from the text that is written for it, and
every text that is read as it, which are those of its spellings, is rewritten to that one text. A
number that does not fit the width of a payload is refused, and one that is accepted is the signed
reading as it stands. -/
theorem json_forms :
    (∀ w : IntWidth, Canonical IntWidth.toJson IntWidth.ofJson? (SpellsTag w.tag) w) ∧
    (∀ f : FloatWidth, Canonical FloatWidth.toJson FloatWidth.ofJson? (SpellsTag f.tag) f) ∧
    (∀ type : ScalarType,
      Canonical ScalarType.toJson ScalarType.ofJson? (SpellsTag type.text) type) ∧
    (∀ p : Primitive, Canonical Primitive.toJson Primitive.ofJson? p.Spells p) ∧
    (∀ signature : Signature,
      Canonical Signature.toJson Signature.ofJson? signature.Spells signature) ∧
    (∀ policy : ZeroDivisionPolicy, Canonical ZeroDivisionPolicy.toJson ZeroDivisionPolicy.ofJson?
      (fun json => policy.Spells json) policy) ∧
    (∀ s : Scalar, (∀ f, s.type ≠ .float f) →
      Canonical Scalar.toJson Scalar.ofJson? (fun json => s.Spells json) s) ∧
    (∀ w text n, read? text = some (tagged (ScalarType.int w).tag (.number n)) →
      (¬ n.Fits w → readText? Scalar.ofJson? text = none) ∧
      ∀ s, readText? Scalar.ofJson? text = some s → ∃ x, s = .int w x ∧ x.signed = n.literal) ∧
    (∀ text data n, read? text = some (tagged "Fatal" data) →
      SpellsParts ["exit_code"] [.number n] data →
      (¬ n.Fits .w32 → readText? ZeroDivisionPolicy.ofJson? text = none) ∧
      ∀ policy, readText? ZeroDivisionPolicy.ofJson? text = some policy →
        ∃ code, policy = .fatal code ∧ code.signed = n.literal) := by
  refine ⟨fun w => ?_, fun f => ?_, fun type => ?_, fun p => ?_, fun signature => ?_,
    fun policy => ?_, fun s hType => ?_, fun w text n hText => ?_,
    fun text data n hText hParts => ?_⟩
  · exact canonical_of_spells IntWidth.ofJson?_eq_some_iff (.inl rfl) (wellFormed_ofText _)
  · exact canonical_of_spells FloatWidth.ofJson?_eq_some_iff (.inl rfl) (wellFormed_ofText _)
  · exact canonical_of_spells ScalarType.ofJson?_eq_some_iff (.inl rfl) (wellFormed_ofText _)
  · exact canonical_of_spells Primitive.ofJson?_eq_some_iff p.spells_toJson p.wellFormed_toJson
  · exact canonical_of_spells Signature.ofJson?_eq_some_iff signature.spells_toJson
      signature.wellFormed_toJson
  · exact canonical_of_spells ZeroDivisionPolicy.ofJson?_eq_some_iff policy.spells_toJson
      policy.wellFormed_toJson
  · exact canonical_of_spells Scalar.ofJson?_eq_some_iff (Scalar.spells_toJson hType)
      (Scalar.wellFormed_toJson hType)
  · have hRead : readText? Scalar.ofJson? text = ((number n).word? w).map (Scalar.int w) := by
      rw [readText?, hText, Option.bind_some, Scalar.ofJson?_tagged]
      rfl
    refine ⟨fun hFits => ?_, fun s hs => ?_⟩
    · rw [hRead, word?_number_eq_none hFits, Option.map_none]
    · obtain ⟨x, hWord, rfl⟩ := Option.map_eq_some_iff.mp (hRead.symm.trans hs)
      exact ⟨x, rfl, signed_of_word?_number hWord⟩
  · have hRead : readText? ZeroDivisionPolicy.ofJson? text =
        ((number n).word? .w32).map ZeroDivisionPolicy.fatal := by
      rw [readText?, hText, Option.bind_some, ZeroDivisionPolicy.ofJson?_fatal hParts]
    refine ⟨fun hFits => ?_, fun policy hPolicy => ?_⟩
    · rw [hRead, word?_number_eq_none hFits, Option.map_none]
    · obtain ⟨code, hWord, rfl⟩ := Option.map_eq_some_iff.mp (hRead.symm.trans hPolicy)
      exact ⟨code, rfl, signed_of_word?_number hWord⟩

/-- An addition of bytes with its parts in the other order, an unknown field, `null` behind a tag
and white space is rewritten; `128` is no byte, and `2 ^ 31` no exit code. -/
theorem json_forms_respelled :
    rewritten? Primitive.toJson Primitive.ofJson?
      "\x7b\"IntBinary\": \x7b\"x\":0,\"width\":\x7b\"W8\":null\x7d,\"op\":\"Add\"\x7d\x7d ".toList =
      some "\x7b\"IntBinary\":\x7b\"op\":\"Add\",\"width\":\"W8\"\x7d\x7d".toList ∧
    readText? Scalar.ofJson? (Scalar.int .w8 (-128)).toJson.compact = some (.int .w8 (-128)) ∧
    readText? Scalar.ofJson? "\x7b\"I8\":128\x7d".toList = none ∧
    readText? ZeroDivisionPolicy.ofJson?
      "\x7b\"Fatal\":\x7b\"exit_code\":2147483648\x7d\x7d".toList = none := by
  obtain ⟨-, -, -, hPrimitive, -, -, hScalar, hPayload, hExitCode⟩ := json_forms
  have hByte : ¬ (JsonNumber.ofInt 128).Fits .w8 := fun h => absurd h.lt (by decide)
  have hCode : ¬ (JsonNumber.ofInt 2147483648).Fits .w32 := fun h => absurd h.lt (by decide)
  refine ⟨?_, ?_, ?_, ?_⟩
  · exact ((hPrimitive (.intBinary .add .w8)).rewritten _ (by decide)).1
  · exact (hScalar (.int .w8 (-128)) (fun _ => nofun)).readText?_written
  · exact (hPayload .w8 _ (.ofInt 128) rfl).1 hByte
  · exact (hExitCode _ (record [("exit_code", .ofInt 2147483648)]) (.ofInt 2147483648) rfl
      (spellsParts_record (List.nodup_singleton "exit_code"))).1 hCode

end WidthExact
