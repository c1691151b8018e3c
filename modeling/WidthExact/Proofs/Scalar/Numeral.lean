import Mathlib.Tactic.FieldSimp
import WidthExact.Proofs.Scalar.Literal

/-!
# Decimal numerals in their parts

What decimal numerals are, said apart from their reader. A `Numeral` is the digits before the point,
those behind it and the exponent, each of any length; its value is put together from the numbers that
the parts write.

The reader accepts numerals and nothing else, and reads a numeral as a decimal of its value. The point
and the letter of the exponent are no digits, so that no digit is read into the wrong part.

## Main results

* `Decimal.readInt?_eq_some_iff`, `Decimal.readExponent?_eq_some_iff` — signs and exponents.
* `Decimal.read?_eq_some_iff` — the reader accepts the numerals.
* `Numeral.value_decimal` — and reads their values.
-/

namespace WidthExact

open Text

/-! ## Signs -/

/-- How the sign of a number is written. -/
inductive WrittenSign where
  | none | plus | minus
  deriving DecidableEq

namespace WrittenSign

/-- The characters of a sign. -/
def text : WrittenSign → List Char
  | none => []
  | plus => ['+']
  | minus => ['-']

/-- Whether the number is negative. -/
def negative (sign : WrittenSign) : Bool := sign = minus

/-- A natural number with the sign. -/
def apply (sign : WrittenSign) (n : Nat) : Int := if sign.negative then -n else n

end WrittenSign

/-! ## Numerals -/

/-- An exponent: its letter, a sign and digits. -/
structure WrittenExponent where
  letter : Char
  sign : WrittenSign
  digits : List Char

namespace WrittenExponent

variable (e : WrittenExponent)

/-- The characters of an exponent. -/
def text : List Char := e.letter :: (e.sign.text ++ e.digits)

/-- The letter is `e` in either case, and there is a digit. -/
structure WellFormed : Prop where
  letter : e.letter = 'e' ∨ e.letter = 'E'
  digits : AllDigits e.digits
  nonempty : e.digits ≠ []

/-- The exponent. -/
def value : Int := e.sign.apply (Nat.ofDigitChars 10 e.digits 0)

end WrittenExponent

/-- A decimal numeral without a sign, in its parts. There may be a point with no digits behind it. -/
structure Numeral where
  whole : List Char
  fraction : Option (List Char)
  exponent : Option WrittenExponent

namespace Numeral

variable (n : Numeral)

/-- The digits behind the point. -/
def places : List Char := n.fraction.getD []

/-- The point and the digits behind it. -/
def fractionText : List Char := n.fraction.elim [] ('.' :: ·)

/-- The characters of the exponent. -/
def exponentText : List Char := n.exponent.elim [] WrittenExponent.text

/-- The characters of a numeral. -/
def text : List Char := n.whole ++ (n.fractionText ++ n.exponentText)

/-- There are digits only, and at least one on some side of the point. -/
structure WellFormed : Prop where
  whole : AllDigits n.whole
  places : AllDigits n.places
  nonempty : n.whole ++ n.places ≠ []
  exponent : ∀ e, n.exponent = some e → e.WellFormed

/-- The power of ten that the digits are scaled by. -/
def exponentValue : Int := n.exponent.elim 0 WrittenExponent.value

/-- The number that a numeral writes. -/
def value : ℚ :=
  (Nat.ofDigitChars 10 n.whole 0 + Nat.ofDigitChars 10 n.places 0 / 10 ^ n.places.length) *
    10 ^ n.exponentValue

/-- The decimal that a numeral is read as. -/
def decimal : Decimal :=
  ⟨Nat.ofDigitChars 10 (n.whole ++ n.places) 0, n.exponentValue - n.places.length⟩

theorem value_nonneg : 0 ≤ n.value := by
  unfold value
  positivity

/-- The point only moves the exponent. -/
theorem value_decimal : n.decimal.value = n.value := by
  have hTen : (10 : ℚ) ≠ 0 := by norm_num
  have hSplit : ((Nat.ofDigitChars 10 (n.whole ++ n.places) 0 : Nat) : ℚ) =
      Nat.ofDigitChars 10 n.whole 0 * 10 ^ n.places.length + Nat.ofDigitChars 10 n.places 0 := by
    rw [Nat.ofDigitChars_append, Nat.ofDigitChars_eq_ofDigitChars_zero]
    push_cast
    ring
  rw [Decimal.value, decimal, value, hSplit, zpow_sub₀ hTen, zpow_natCast]
  field_simp

end Numeral

/-! ## Reading numerals -/

namespace Decimal

/-- The digits of an integer, to which the reader may put a sign. -/
theorem signed_eq_some_iff {digits : List Char} {sign : Int → Int} {value : Int} :
    ((readDecimal? digits).bind fun n => some (n : Int)).map sign = some value ↔
      AllDigits digits ∧ digits ≠ [] ∧ value = sign (Nat.ofDigitChars 10 digits 0) := by
  rw [Option.map_eq_some_iff]
  constructor
  · rintro ⟨_, hRead, rfl⟩
    obtain ⟨n, hDigits, ⟨⟩⟩ := Option.bind_eq_some_iff.mp hRead
    obtain ⟨hAll, hNonempty, rfl⟩ := readDecimal?_eq_some_iff.mp hDigits
    exact ⟨hAll, hNonempty, rfl⟩
  · rintro ⟨hAll, hNonempty, rfl⟩
    exact ⟨_, Option.bind_eq_some_iff.mpr ⟨_, readDecimal?_of_allDigits hAll hNonempty, rfl⟩, rfl⟩

/-- Integers: a sign, or none, and digits. -/
theorem readInt?_eq_some_iff {text : List Char} {value : Int} :
    readInt? text = some value ↔ ∃ sign digits, AllDigits digits ∧ digits ≠ [] ∧
      text = WrittenSign.text sign ++ digits ∧ value = sign.apply (Nat.ofDigitChars 10 digits 0) := by
  constructor
  · intro h
    unfold readInt? at h
    split at h <;> obtain ⟨hAll, hNonempty, rfl⟩ := signed_eq_some_iff.mp h
    · exact ⟨.minus, _, hAll, hNonempty, rfl, rfl⟩
    · exact ⟨.plus, _, hAll, hNonempty, rfl, rfl⟩
    · exact ⟨.none, _, hAll, hNonempty, rfl, rfl⟩
  · rintro ⟨sign, digits, hAll, hNonempty, rfl, rfl⟩
    cases sign with
    | minus => exact signed_eq_some_iff.mpr ⟨hAll, hNonempty, rfl⟩
    | plus => exact signed_eq_some_iff.mpr ⟨hAll, hNonempty, rfl⟩
    | none =>
        obtain ⟨c, rest, rfl⟩ := List.exists_cons_of_ne_nil hNonempty
        have hDigit : c.isDigit = true := hAll c List.mem_cons_self
        show readInt? (c :: rest) = _
        rw [readInt?_unsigned (by rintro rfl; cases hDigit) (by rintro rfl; cases hDigit),
          readDecimal?_of_allDigits hAll hNonempty]
        rfl

/-- The end of a numeral: nothing, or an exponent. -/
theorem readExponent?_eq_some_iff {text : List Char} {value : Int} :
    readExponent? text = some value ↔ ∃ exponent : Option WrittenExponent,
      (∀ e, exponent = some e → e.WellFormed) ∧ text = exponent.elim [] WrittenExponent.text ∧
      value = exponent.elim 0 WrittenExponent.value := by
  constructor
  · intro h
    cases text with
    | nil => exact ⟨none, nofun, rfl, (Option.some.inj h).symm⟩
    | cons letter rest =>
        rw [readExponent?] at h
        split at h
        · next hLetter =>
            obtain ⟨sign, digits, hAll, hNonempty, rfl, rfl⟩ := readInt?_eq_some_iff.mp h
            refine ⟨some ⟨letter, sign, digits⟩, ?_, rfl, rfl⟩
            rintro e ⟨⟩
            exact ⟨hLetter, hAll, hNonempty⟩
        · cases h
  · rintro ⟨exponent, hForm, rfl, rfl⟩
    cases exponent with
    | none => rfl
    | some e =>
        obtain ⟨hLetter, hAll, hNonempty⟩ := hForm e rfl
        show readExponent? (e.letter :: (e.sign.text ++ e.digits)) = _
        rw [readExponent?, if_pos hLetter]
        exact readInt?_eq_some_iff.mpr ⟨e.sign, e.digits, hAll, hNonempty, rfl, rfl⟩

/-- The point and the digits behind it, if there is one. -/
theorem exists_spanFraction (text : List Char) : ∃ fraction : Option (List Char),
    AllDigits (fraction.getD []) ∧ (spanFraction text).1 = fraction.getD [] ∧
      text = fraction.elim [] ('.' :: ·) ++ (spanFraction text).2 := by
  unfold spanFraction
  split
  · next rest =>
      rw [List.span_eq_takeWhile_dropWhile]
      refine ⟨some (rest.takeWhile Char.isDigit), List.all_eq_true.mp List.all_takeWhile, rfl, ?_⟩
      exact congrArg ('.' :: ·) List.takeWhile_append_dropWhile.symm
  · exact ⟨none, nofun, rfl, rfl⟩

end Decimal

namespace Numeral

variable {n : Numeral}

/-- An exponent is told from the digits before it and from a point by its letter. -/
theorem WellFormed.exponentText_cases (h : n.WellFormed) :
    n.exponentText = [] ∨ ∃ c rest, n.exponentText = c :: rest ∧ (c = 'e' ∨ c = 'E') := by
  cases hExponent : n.exponent with
  | none => exact .inl (by rw [exponentText, hExponent]; rfl)
  | some e =>
      refine .inr ⟨e.letter, e.sign.text ++ e.digits, ?_, (h.exponent e hExponent).letter⟩
      rw [exponentText, hExponent]
      rfl

theorem WellFormed.exponentText_head (h : n.WellFormed) :
    n.exponentText.head?.all (!·.isDigit) = true := by
  rcases h.exponentText_cases with hNone | ⟨c, rest, hText, rfl | rfl⟩
  · rw [hNone]
    rfl
  all_goals
    rw [hText]
    rfl

theorem WellFormed.spanFraction_exponentText (h : n.WellFormed) :
    Decimal.spanFraction n.exponentText = ([], n.exponentText) := by
  rcases h.exponentText_cases with hNone | ⟨c, rest, hText, rfl | rfl⟩
  · rw [hNone]
    rfl
  all_goals
    rw [hText]
    rfl

theorem WellFormed.span_text (h : n.WellFormed) :
    n.text.span Char.isDigit = (n.whole, n.fractionText ++ n.exponentText) := by
  refine span_digits h.whole ?_
  rw [fractionText]
  cases n.fraction with
  | some digits => rfl
  | none => exact h.exponentText_head

theorem WellFormed.spanFraction_text (h : n.WellFormed) :
    Decimal.spanFraction (n.fractionText ++ n.exponentText) = (n.places, n.exponentText) := by
  have hDigits := h.places
  rw [Numeral.places] at hDigits ⊢
  rw [fractionText]
  cases hFraction : n.fraction with
  | some digits =>
      rw [hFraction] at hDigits
      exact span_digits hDigits h.exponentText_head
  | none => exact h.spanFraction_exponentText

end Numeral

/-- **A text is read as a decimal if it is a numeral**, and as the decimal of that numeral. -/
theorem Decimal.read?_eq_some_iff {text : List Char} {d : Decimal} :
    read? text = some d ↔ ∃ n : Numeral, n.WellFormed ∧ text = n.text ∧ d = n.decimal := by
  constructor
  · intro h
    have hSplit : text.takeWhile Char.isDigit ++ text.dropWhile Char.isDigit = text :=
      List.takeWhile_append_dropWhile
    obtain ⟨fraction, hPlaces, hFraction, hAfter⟩ :=
      exists_spanFraction (text.dropWhile Char.isDigit)
    simp only [read?, List.span_eq_takeWhile_dropWhile, hFraction] at h
    obtain ⟨coefficient, hCoefficient, h⟩ := Option.bind_eq_some_iff.mp h
    obtain ⟨value, hExponent, rfl⟩ := Option.map_eq_some_iff.mp h
    obtain ⟨-, hNonempty, rfl⟩ := readDecimal?_eq_some_iff.mp hCoefficient
    obtain ⟨exponent, hForm, hRest, rfl⟩ := readExponent?_eq_some_iff.mp hExponent
    refine ⟨⟨text.takeWhile Char.isDigit, fraction, exponent⟩,
      ⟨List.all_eq_true.mp List.all_takeWhile, hPlaces, hNonempty, hForm⟩, ?_, rfl⟩
    rw [hRest] at hAfter
    rw [Numeral.text, Numeral.fractionText, Numeral.exponentText, ← hAfter, hSplit]
  · rintro ⟨n, hForm, rfl, rfl⟩
    have hExponent : readExponent? n.exponentText = some n.exponentValue :=
      readExponent?_eq_some_iff.mpr ⟨n.exponent, hForm.exponent, rfl, rfl⟩
    simp only [read?, hForm.span_text, hForm.spanFraction_text, hExponent,
      readDecimal?_of_allDigits (hForm.whole.append hForm.places) hForm.nonempty,
      Option.bind_some, Option.map_some]
    rfl

/-! ## Characters of numerals -/

namespace Numeral

variable {n : Numeral}

/-- A numeral begins with a digit or with the point. -/
theorem WellFormed.exists_cons_text (h : n.WellFormed) :
    ∃ c rest, n.text = c :: rest ∧ (c.isDigit = true ∨ c = '.') := by
  cases hWhole : n.whole with
  | cons c rest =>
      refine ⟨c, rest ++ (n.fractionText ++ n.exponentText), by rw [text, hWhole]; rfl, .inl ?_⟩
      exact h.whole c (hWhole ▸ List.mem_cons_self)
  | nil =>
      cases hFraction : n.fraction with
      | some digits =>
          refine ⟨'.', digits ++ n.exponentText, ?_, .inr rfl⟩
          rw [text, fractionText, hWhole, hFraction]
          rfl
      | none =>
          refine absurd ?_ h.nonempty
          rw [hWhole, Numeral.places, hFraction]
          rfl

theorem WellFormed.noBlank_text (h : n.WellFormed) : NoBlank n.text := by
  have hFraction : NoBlank n.fractionText := by
    have hDigits := h.places
    rw [Numeral.places] at hDigits
    rw [fractionText]
    cases hFraction : n.fraction with
    | none => exact nofun
    | some digits =>
        rw [hFraction] at hDigits
        exact .cons (by decide) hDigits.noBlank
  have hExponent : NoBlank n.exponentText := by
    cases hExponent : n.exponent with
    | none =>
        rw [exponentText, hExponent]
        exact nofun
    | some e =>
        obtain ⟨hLetter, hDigits, -⟩ := h.exponent e hExponent
        rw [exponentText, hExponent]
        refine .cons ?_ (.append ?_ hDigits.noBlank)
        · rcases hLetter with hLetter | hLetter <;> rw [hLetter] <;> rfl
        · cases e.sign <;> decide
  exact h.whole.noBlank.append (hFraction.append hExponent)

end Numeral

end WidthExact
