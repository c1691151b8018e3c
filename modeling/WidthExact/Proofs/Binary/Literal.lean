import WidthExact.Binary.Literal
import WidthExact.Proofs.Decimal.Positional

/-!
# Written floating-point values

What is written for a value reads back as the value, bit for bit, the sign of a zero included; what
is written for a NaN reads back as a NaN.

## Main results

* `Binary.ofMagnitude_self` — a pattern is its sign bit and its magnitude.
* `Binary.read?_text`, `Binary.read?_text_nan` — the round trip.
-/

namespace WidthExact.Binary

open Text

variable {f : FloatWidth}

/-! ## Sign and magnitude -/

/-- A pattern has room for a magnitude and a sign bit above it. -/
theorem two_pow_bits (f : FloatWidth) : 2 ^ f.bits = 2 * f.signWeight := by cases f <;> decide

theorem ofMagnitude_self (x : Binary f) : ofMagnitude x.isNegative x.magnitude = x := by
  obtain ⟨pattern⟩ := x
  have hLt : pattern.toNat < 2 * f.signWeight := two_pow_bits f ▸ pattern.isLt
  have hSign : pattern.msb = decide (f.signWeight ≤ pattern.toNat) := BitVec.msb_eq_decide pattern
  have hSum : pattern.toNat % f.signWeight + (if pattern.msb then f.signWeight else 0) =
      pattern.toNat := by
    rw [hSign]
    by_cases hHigh : f.signWeight ≤ pattern.toNat
    · rw [Nat.mod_eq_sub_mod hHigh, Nat.mod_eq_of_lt (by omega), decide_eq_true hHigh, if_pos rfl]
      omega
    · rw [Nat.mod_eq_of_lt (by omega), decide_eq_false hHigh]
      rfl
  unfold ofMagnitude isNegative magnitude
  rw [hSum]
  exact congrArg Binary.mk (Word.ofUnsigned_unsigned pattern)

theorem isNaN_nan (negative : Bool) : (nan negative : Binary f).isNaN = true := by
  cases f <;> cases negative <;> decide

/-! ## Reading -/

theorem toLower_digit {c : Char} (hDigit : c.isDigit = true) : c.toLower = c := by
  obtain ⟨-, hHigh⟩ := Char.isDigit_iff_toNat.mp hDigit
  unfold Char.toLower
  split
  · next hUpper =>
      have hLow : 65 ≤ c.toNat := hUpper.1
      exact absurd (hLow.trans hHigh) (by decide)
  · rfl

/-- A magnitude that begins with a digit is a numeral. -/
theorem readMagnitude?_numeral (negative : Bool) {c : Char} {rest : List Char}
    (hDigit : c.isDigit = true) :
    (readMagnitude? negative (c :: rest) : Option (Binary f)) =
      (Decimal.read? (c :: rest)).map (ofDecimal negative) := by
  have hI : c ≠ 'i' := by
    rintro rfl
    cases hDigit
  have hN : c ≠ 'n' := by
    rintro rfl
    cases hDigit
  unfold readMagnitude?
  rw [List.map_cons, toLower_digit hDigit]
  simp only [List.cons.injEq, hI, hN, false_and, or_self, if_false]

/-- A text that begins with no sign is a magnitude. -/
theorem read?_unsigned {c : Char} {rest : List Char} (hMinus : c ≠ '-') (hPlus : c ≠ '+') :
    (read? (c :: rest) : Option (Binary f)) = readMagnitude? false (c :: rest) := by
  unfold read?
  split
  · next hText => exact absurd (List.cons.inj hText).1 hMinus
  · next hText => exact absurd (List.cons.inj hText).1 hPlus
  · rfl

/-! ## The round trip -/

/-- A written magnitude: of no white space, not empty, and with no sign at its front. -/
theorem magnitudeText_form (x : Binary f) :
    NoBlank x.magnitudeText ∧ ∃ c rest, x.magnitudeText = c :: rest ∧ c ≠ '-' ∧ c ≠ '+' := by
  unfold magnitudeText
  by_cases hInfinite : x.isInfinite = true
  · rw [if_pos hInfinite]
    exact ⟨by decide, 'i', _, rfl, by decide, by decide⟩
  rw [if_neg hInfinite]
  by_cases hZero : x.isZero = true
  · rw [if_pos hZero]
    exact ⟨by decide, '0', _, rfl, by decide, by decide⟩
  rw [if_neg hZero]
  refine ⟨Decimal.noBlank_positional _, ?_⟩
  obtain ⟨c, rest, hText, hDigit⟩ := (Decimal.shortest f .up x.magnitude).exists_digit_cons_positional
  refine ⟨c, rest, hText, ?_, ?_⟩ <;> rintro rfl <;> cases hDigit

theorem readMagnitude?_magnitudeText (x : Binary f) (hNumber : x.isNaN = false) :
    readMagnitude? x.isNegative x.magnitudeText = some x := by
  have hSelf := x.ofMagnitude_self
  have hBound : x.magnitude ≤ f.infinity := by simpa [isNaN] using hNumber
  unfold magnitudeText
  by_cases hInfinite : x.isInfinite = true
  · have hMagnitude : x.magnitude = f.infinity := by simpa [isInfinite] using hInfinite
    have hValue : infinity x.isNegative = x := by rw [infinity, ← hMagnitude, hSelf]
    have hRead : readMagnitude? x.isNegative ['i', 'n', 'f'] =
        some (infinity x.isNegative : Binary f) := rfl
    rw [if_pos hInfinite, hRead, hValue]
  rw [if_neg hInfinite]
  have hFinite : x.magnitude ≠ f.infinity := by simpa [isInfinite] using hInfinite
  by_cases hZero : x.isZero = true
  · have hMagnitude : x.magnitude = 0 := by simpa [isZero] using hZero
    have hRead : Decimal.read? ['0'] = some ⟨0, 0⟩ := rfl
    have hNearest : (⟨0, 0⟩ : Decimal).nearest f = x.magnitude := hMagnitude.symm
    rw [if_pos hZero, readMagnitude?_numeral _ (by decide), hRead, Option.map_some, ofDecimal,
      hNearest, hSelf]
  rw [if_neg hZero]
  obtain ⟨c, rest, hText, hDigit⟩ := (Decimal.shortest f .up x.magnitude).exists_digit_cons_positional
  obtain ⟨d, hRead, hValue⟩ := (Decimal.shortest f .up x.magnitude).read?_positional
  rw [hText] at hRead ⊢
  rw [readMagnitude?_numeral _ hDigit, hRead, Option.map_some, ofDecimal,
    Decimal.nearest_congr hValue, Decimal.nearest_shortest .up (by omega), hSelf]

/-- **A written value reads back**, bit for bit. -/
theorem read?_text (x : Binary f) (hNumber : x.isNaN = false) : read? x.text = some x := by
  have hRead := x.readMagnitude?_magnitudeText hNumber
  obtain ⟨-, c, rest, hText, hMinus, hPlus⟩ := x.magnitudeText_form
  unfold text
  rw [if_neg (by simp [hNumber])]
  cases hSign : x.isNegative with
  | true =>
      rw [hSign] at hRead
      exact hRead
  | false =>
      rw [hSign] at hRead
      rw [if_neg (by decide), hText, read?_unsigned hMinus hPlus, ← hText, hRead]

/-- A written NaN reads back as a NaN. -/
theorem read?_text_nan (x : Binary f) (hNaN : x.isNaN = true) :
    read? x.text = some (nan false : Binary f) := by
  rw [text, if_pos hNaN]
  rfl

theorem noBlank_text (x : Binary f) : NoBlank x.text := by
  have hMagnitude := x.magnitudeText_form.1
  unfold text
  split
  · decide
  · split
    · exact .cons (by decide) hMagnitude
    · exact hMagnitude

theorem text_ne_nil (x : Binary f) : x.text ≠ [] := by
  obtain ⟨-, c, rest, hText, -⟩ := x.magnitudeText_form
  unfold text
  split
  · exact List.cons_ne_nil _ _
  · split
    · exact List.cons_ne_nil _ _
    · rw [hText]
      exact List.cons_ne_nil _ _

end WidthExact.Binary
