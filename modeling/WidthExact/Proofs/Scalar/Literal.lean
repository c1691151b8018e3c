import WidthExact.Proofs.Binary.Literal
import WidthExact.Scalar.Literal

/-!
# Written scalars

The written form of a scalar is a literal and the type behind it. The literal reads back, at that
type and with any white space around it, as the scalar that was written, bit for bit; only of a NaN
the payload is lost. The types are told apart by their ends, so no two scalars are written alike.

## Main results

* `Word.read?_text` — words.
* `Scalar.read?_literal` — all scalars.
* `Scalar.parse_text` — with white space, and that writing is injective.
-/

namespace WidthExact

open Text

/-! ## Words -/

/-- Integers that begin with no sign are natural numbers. -/
theorem Decimal.readInt?_unsigned {c : Char} {rest : List Char} (hMinus : c ≠ '-') (hPlus : c ≠ '+') :
    readInt? (c :: rest) = (readDecimal? (c :: rest)).map fun n => (n : Int) := by
  unfold readInt?
  split
  · next hText => exact absurd (List.cons.inj hText).1 hMinus
  · next hText => exact absurd (List.cons.inj hText).1 hPlus
  · rfl

theorem Decimal.readInt?_decimalInt (n : Int) : readInt? (decimalInt n) = some n := by
  unfold decimalInt
  by_cases hNegative : n < 0
  · rw [if_pos hNegative, readInt?, readDecimal?_decimal]
    show some (-(n.natAbs : Int)) = some n
    exact congrArg some (by omega)
  · rw [if_neg hNegative]
    obtain ⟨c, rest, hText⟩ := List.exists_cons_of_ne_nil (decimal_ne_nil n.natAbs)
    have hDigit : c.isDigit = true := allDigits_decimal n.natAbs c (hText ▸ List.mem_cons_self)
    rw [hText, readInt?_unsigned (by rintro rfl; cases hDigit) (by rintro rfl; cases hDigit),
      ← hText, readDecimal?_decimal]
    show some (n.natAbs : Int) = some n
    exact congrArg some (by omega)

namespace Word

variable {w : IntWidth}

/-- A text without an `x` is no hexadecimal literal. -/
theorem read?_decimal {text : List Char} (hLower : 'x' ∉ text) (hUpper : 'X' ∉ text) :
    (read? text : Option (Word w)) = (Decimal.readInt? text).bind exactly? := by
  unfold read?
  split
  · exact absurd (by simp) hLower
  · exact absurd (by simp) hUpper
  · rfl

theorem exactly?_signed (x : Word w) : exactly? x.signed = some x := by
  have hPow : ∀ n, ((twoPow n : Nat) : Int) = 2 ^ n := fun n => Nat.cast_pow 2 n
  have hLow : -(2 ^ (w.bits - 1) : Int) ≤ x.toInt := by
    have := BitVec.le_toInt x
    exact_mod_cast this
  have hHigh : x.toInt < (2 ^ (w.bits - 1) : Int) := by
    have := BitVec.toInt_lt (x := x)
    exact_mod_cast this
  unfold exactly?
  rw [hPow, if_pos ⟨hLow, hHigh⟩, ofSigned_signed]

theorem text_chars (x : Word w) : ∀ c ∈ x.text, c = '-' ∨ c.isDigit = true := by
  intro c hc
  unfold text decimalInt at hc
  split at hc
  · rcases List.mem_cons.mp hc with rfl | hDigit
    · exact Or.inl rfl
    · exact Or.inr (allDigits_decimal _ c hDigit)
  · exact Or.inr (allDigits_decimal _ c hc)

theorem text_ne_nil (x : Word w) : x.text ≠ [] := by
  unfold text decimalInt
  split
  · exact List.cons_ne_nil _ _
  · exact decimal_ne_nil _

/-- A written word reads back. -/
theorem read?_text (x : Word w) : read? x.text = some x := by
  have hNo : ∀ c, c ≠ '-' → c.isDigit = false → c ∉ x.text := by
    intro c hMinus hDigit hc
    rcases x.text_chars c hc with rfl | hDigit'
    · exact hMinus rfl
    · rw [hDigit] at hDigit'
      cases hDigit'
  rw [read?_decimal (hNo 'x' (by decide) rfl) (hNo 'X' (by decide) rfl), text,
    Decimal.readInt?_decimalInt, Option.bind_some, exactly?_signed]

theorem noBlank_text (x : Word w) : NoBlank x.text := by
  intro c hc
  rcases x.text_chars c hc with rfl | hDigit
  · decide
  · exact isBlank_digit hDigit

end Word

/-! ## Scalars -/

theorem readBool?_literal (value : Bool) : readBool? (Scalar.bool value).literal = some value := by
  cases value <;> rfl

namespace Scalar

/-- Whether the scalar is not a number. -/
def isNaN : Scalar → Bool
  | float _ value => value.isNaN
  | _ => false

/-- The scalar that is read for what is written: the scalar itself, or the NaN that stands for all
NaNs of its type. -/
def canonical : Scalar → Scalar
  | float width value => float width (if value.isNaN then .nan false else value)
  | s => s

theorem canonical_of_number {s : Scalar} (hNumber : s.isNaN = false) : s.canonical = s := by
  cases s with
  | float width value =>
      have hValue : value.isNaN = false := hNumber
      rw [canonical, hValue]
      rfl
  | _ => rfl

@[simp] theorem isNaN_canonical (s : Scalar) : s.canonical.isNaN = s.isNaN := by
  cases s with
  | float width value =>
      show (if value.isNaN then Binary.nan false else value).isNaN = value.isNaN
      cases hValue : value.isNaN with
      | true => exact Binary.isNaN_nan false
      | false => exact hValue
  | _ => rfl

@[simp] theorem type_canonical (s : Scalar) : s.canonical.type = s.type := by
  cases s <;> rfl

/-- **A written scalar reads back at its type.** -/
theorem read?_literal (s : Scalar) : read? s.type s.literal = some s.canonical := by
  cases s with
  | bool value =>
      show (readBool? (bool value).literal).map bool = _
      rw [readBool?_literal]
      rfl
  | int width value =>
      show (Word.read? value.text).map (int width) = _
      rw [value.read?_text]
      rfl
  | float width value =>
      show (Binary.read? value.text).map (float width) = _
      cases hValue : value.isNaN with
      | true =>
          rw [value.read?_text_nan hValue, canonical, hValue]
          rfl
      | false =>
          rw [value.read?_text hValue, canonical, hValue]
          rfl

theorem noBlank_literal (s : Scalar) : NoBlank s.literal := by
  cases s with
  | bool value =>
      cases value <;> decide
  | int width value => exact value.noBlank_text
  | float width value => exact value.noBlank_text

theorem literal_ne_nil (s : Scalar) : s.literal ≠ [] := by
  cases s with
  | bool value => cases value <;> exact List.cons_ne_nil _ _
  | int width value => exact value.text_ne_nil
  | float width value => exact value.text_ne_nil

/-! ## Types at the ends of written scalars -/

/-- The type of a written scalar, seen from its end. -/
def typeAtEnd? : List Char → Option ScalarType
  | 'e' :: _ => some .bool
  | '8' :: 'i' :: _ => some (.int .w8)
  | '6' :: '1' :: 'i' :: _ => some (.int .w16)
  | '2' :: '3' :: 'i' :: _ => some (.int .w32)
  | '4' :: '6' :: 'i' :: _ => some (.int .w64)
  | '2' :: '3' :: 'f' :: _ => some (.float .f32)
  | '4' :: '6' :: 'f' :: _ => some (.float .f64)
  | _ => none

theorem typeAtEnd?_text (s : Scalar) : typeAtEnd? s.text.toList.reverse = some s.type := by
  rw [text, String.toList_ofList, List.reverse_append]
  cases s with
  | bool value => cases value <;> rfl
  | int width value => cases width <;> rfl
  | float width value => cases width <;> rfl

theorem suffix_eq_of_type {s t : Scalar} (h : s.type = t.type) : s.suffix = t.suffix := by
  cases s <;> cases t <;> cases h <;> rfl

/-- Scalars that are written alike are of one type, and are the same or both no numbers. -/
theorem canonical_eq_of_text {s t : Scalar} (h : s.text = t.text) :
    s.type = t.type ∧ s.canonical = t.canonical := by
  have hType : s.type = t.type := by
    have hEnd := s.typeAtEnd?_text
    rw [h, t.typeAtEnd?_text] at hEnd
    exact (Option.some.inj hEnd).symm
  have hText : s.literal ++ s.suffix = t.literal ++ t.suffix := String.ofList_injective h
  rw [suffix_eq_of_type hType] at hText
  have hRead := s.read?_literal
  rw [hType, List.append_cancel_right hText, t.read?_literal] at hRead
  exact ⟨hType, (Option.some.inj hRead).symm⟩

/-! ## White space -/

theorem parse_literal (s : Scalar) {before after : String} (hBefore : AllBlank before.toList)
    (hAfter : AllBlank after.toList) :
    parse s.type (before ++ String.ofList s.literal ++ after) = .ok s.canonical := by
  have hTrim : trim (before ++ String.ofList s.literal ++ after).toList = s.literal := by
    rw [String.toList_append, String.toList_append, String.toList_ofList]
    exact trim_around hBefore hAfter s.noBlank_literal s.literal_ne_nil
  rw [parse, hTrim, read?_literal]

/-- **Writing and reading are inverse.** The written form of a scalar less the type behind it, between
any two texts of white space, is read at its type as the scalar itself, or as a NaN if the scalar
is one. So scalars that are written alike are of one type, and are the same or both NaNs. -/
theorem parse_text :
    (∀ (s : Scalar) (body before after : String), s.text = body ++ String.ofList s.suffix →
      AllBlank before.toList → AllBlank after.toList →
        (s.isNaN = false → parse s.type (before ++ body ++ after) = .ok s) ∧
        (s.isNaN = true → ∃ t, parse s.type (before ++ body ++ after) = .ok t ∧
          t.type = s.type ∧ t.isNaN = true)) ∧
    ∀ s t : Scalar, s.text = t.text →
      s.type = t.type ∧ (s = t ∨ (s.isNaN = true ∧ t.isNaN = true)) := by
  constructor
  · intro s body before after hText hBefore hAfter
    obtain rfl : body = String.ofList s.literal := by
      have hLists : s.literal ++ s.suffix = body.toList ++ s.suffix := by
        rw [← String.toList_ofList (l := s.suffix), ← String.toList_append, ← hText, text,
          String.toList_ofList, String.toList_ofList]
      rw [List.append_cancel_right hLists, String.ofList_toList]
    have hParse := s.parse_literal hBefore hAfter
    constructor
    · intro hNumber
      rw [hParse, canonical_of_number hNumber]
    · intro hNaN
      exact ⟨s.canonical, hParse, s.type_canonical, s.isNaN_canonical.trans hNaN⟩
  · intro s t hText
    obtain ⟨hType, hCanonical⟩ := canonical_eq_of_text hText
    refine ⟨hType, ?_⟩
    have hNaN : s.isNaN = t.isNaN := by
      rw [← s.isNaN_canonical, hCanonical, t.isNaN_canonical]
    cases hValue : t.isNaN with
    | true => exact Or.inr ⟨hNaN.trans hValue, rfl⟩
    | false =>
        rw [canonical_of_number (hNaN.trans hValue), canonical_of_number hValue] at hCanonical
        exact Or.inl hCanonical

/-- The value next to one tenth, between a tab and a no-break space. -/
theorem parse_text_tenth :
    (float .f32 ⟨0x3dcccccd#32⟩).text = "0.1" ++ String.ofList (float .f32 ⟨0x3dcccccd#32⟩).suffix ∧
      parse (.float .f32) ("\t" ++ "0.1" ++ "\u00a0") = .ok (float .f32 ⟨0x3dcccccd#32⟩) := by
  have hText : (float .f32 ⟨0x3dcccccd#32⟩).text =
      "0.1" ++ String.ofList (float .f32 ⟨0x3dcccccd#32⟩).suffix := by decide +kernel
  exact ⟨hText, (parse_text.1 (float .f32 ⟨0x3dcccccd#32⟩) "0.1" "\t" "\u00a0" hText
    (by decide) (by decide)).1 (by decide)⟩

end Scalar

end WidthExact
