import WidthExact.Proofs.Binary.DoubleRounding
import WidthExact.Proofs.Binary.Format
import WidthExact.Proofs.Json.Canonical
import WidthExact.Proofs.Json.Decimal

/-!
# What becomes of a floating-point scalar in JSON

An infinity and a NaN are written as `null`, which no floating-point scalar is read from. Any finite
value is written as a number, and that number is read, but not always as the same value: digits and
power of ten are rounded before one scales the other, so that the last bit may come out wrong. A
number with few digits and a small power of ten is read as the nearest value, which is the one that
was written.

## Main results

* `JsonNumber.binary?_short` — short numbers are read as the nearest value.
* `Json.isSome_binary?_ofBinary` — written numbers are read.
* `float_text` — what is read back from the text of a scalar.
-/

namespace WidthExact

namespace Binary

variable {f : FloatWidth}

theorem isFinite_ofInt {i : Int} (h : i.natAbs ≤ twoPow 64) :
    (ofInt i : Binary .f64).isFinite = true := by
  have hFinite := JsonNumber.isFinite_ofNat h
  rw [isFinite] at hFinite ⊢
  rwa [magnitude_ofInt]

end Binary

namespace JsonNumber

open Binary

/-! ## Short numbers -/

/-- Few enough digits, and a power of ten near enough to one, that a number is read as the nearest
value of a format. -/
def Short (n : JsonNumber) : FloatWidth → Prop
  | .f32 => n.significand < 2 ^ 52 ∧ -12 ≤ n.power ∧ n.power ≤ 0
  | .f64 => n.significand < 2 ^ 53 ∧ -22 ≤ n.power ∧ n.power ≤ 22

instance (n : JsonNumber) (f : FloatWidth) : Decidable (n.Short f) := by
  cases f <;> exact instDecidableAnd

theorem Short.wide {n : JsonNumber} {f : FloatWidth} (h : n.Short f) : n.Short .f64 := by
  cases f with
  | f32 => exact ⟨h.1.trans (by decide), by have := h.2.1; omega, by have := h.2.2; omega⟩
  | f64 => exact h

/-- **A short number is read as the nearest value** of the format. -/
theorem binary?_short {n : JsonNumber} {f : FloatWidth} (hNumber : n.isIntegerLiteral = false)
    (hSize : ∀ digits, n.exponent = some (false, digits) →
      Nat.ofDigitChars 10 digits 0 < twoPow 31)
    (hShort : n.Short f) : n.binary? f = some (ofMagnitude n.negative (n.decimal.nearest f)) := by
  obtain ⟨hDigits, hLow, hHigh⟩ := hShort.wide
  have hRounds := n.decimal.nearest_roundsTo (f := .f64)
  have hLt := lt_infinity_of_lt hRounds (mul_ten_zpow_lt hDigits hHigh)
  rw [binary?_eq hNumber, wide?_exact hDigits hLow hHigh hSize, Option.map_some]
  cases f with
  | f64 => rw [toFormat_self]
  | f32 =>
      obtain ⟨hNum, hTwelve, hDown⟩ := hShort
      have hValue : n.decimal.value = n.significand / 10 ^ (-n.power).toNat := by
        have hPower : n.power = -((-n.power).toNat : Int) := by omega
        rw [div_eq_mul_inv, ← zpow_natCast, ← zpow_neg, ← hPower]
        rfl
      have hNarrow := n.decimal.nearest_roundsTo (f := .f32)
      have hTwice := FloatWidth.RoundsTo.narrow hNum (by omega) hValue hRounds hLt hNarrow
      rw [toFormat_of_finite (isFinite_ofMagnitude n.negative hLt), ofRatio,
        isNegative_ofMagnitude _ hLt.le, units, magnitude_ofMagnitude _ hLt.le,
        (FloatWidth.nearestRatio_eq_iff _ (twoPow_pos _)).mpr hTwice]

/-! ## Numbers of the wide format -/

/-- No number is read as an infinity of the wide format. -/
theorem isFinite_binary? {n : JsonNumber} {x : Binary .f64} (h : n.binary? .f64 = some x) :
    x.isFinite = true := by
  unfold binary? at h
  split at h
  · next i hInt =>
      obtain ⟨-, -, -, hLow, hHigh⟩ := int?_eq_some_iff.mp hInt
      have hSize : i.natAbs ≤ twoPow 64 := by
        rw [show twoPow 64 = 2 ^ 64 from rfl]
        omega
      exact Option.some.inj h ▸ isFinite_ofInt hSize
  · obtain ⟨y, hWide, rfl⟩ := Option.map_eq_some_iff.mp h
    have hFinite := isFinite_wide? hWide
    rw [toFormat_self]
    exact hFinite

/-! ## Written numbers -/

/-- The exponent that is written for a decimal of the wide format has at most three digits. -/
theorem Writes.exponent_lt {n : JsonNumber} {negative : Bool} {d : Decimal}
    (h : n.Writes negative d) (hValue : d.value ≤ twoPow 1024) :
    ∀ digits, n.exponent = some (false, digits) → Nat.ofDigitChars 10 digits 0 < twoPow 31 := by
  intro digits hExponent
  have hPower := (h.exponent_le digits hExponent).trans hValue
  have hGreat : (twoPow 1024 : ℚ) < tenPow 309 := by exact_mod_cast twoPow_1024_lt
  by_contra hMany
  have hLong : 309 ≤ Nat.ofDigitChars 10 digits 0 :=
    (show 309 ≤ twoPow 31 by decide).trans (Nat.not_lt.mp hMany)
  have hTen : (tenPow 309 : ℚ) ≤ 10 ^ Nat.ofDigitChars 10 digits 0 := by
    exact_mod_cast tenPow_le hLong
  linarith

/-- Far enough below infinity, no rounding on the way reaches it. -/
theorem Writes.isSome_binary? {n : JsonNumber} {negative : Bool} {d : Decimal}
    (h : n.Writes negative d) (f : FloatWidth)
    (hValue : d.value ≤ twoPow 1024 - 5 * twoPow 970) : (n.binary? f).isSome = true := by
  have hStep : (0 : ℚ) < twoPow 970 := by exact_mod_cast twoPow_pos 970
  rw [binary?_eq h.not_integer, Option.isSome_map]
  exact isSome_wide? (isSome_magnitude? h.whole_lt (h.exponent_lt (by linarith))
    (h.value_eq ▸ hValue))

end JsonNumber

namespace FloatWidth

/-- The greatest magnitude pattern whose digits can be rounded up and scaled by a power of ten that
is rounded up, and still stay below infinity of the wide format. -/
def safe (f : FloatWidth) : Nat :=
  match f with
  | f32 => f.infinity - 1
  | f64 => f.infinity - 3

theorem safe_lt (f : FloatWidth) : f.safe < f.infinity := by cases f <;> decide

/-- The middle behind a finite pattern is at most `2 ^ top`. -/
theorem midpoint_le_top {f : FloatWidth} {m : Nat} (h : m < f.infinity) :
    (f.midpoint m : ℚ) ≤ 2 * twoPow f.top * twoPow f.scale := by
  have hNext : f.units (m + 1) ≤ twoPow f.top * twoPow f.scale :=
    f.units_infinity ▸ f.strictMono_units.monotone h
  have hMid := (f.midpoint_lt_units m).le.trans (Nat.mul_le_mul_left 2 hNext)
  rw [mul_assoc]
  exact_mod_cast hMid

theorem midpoint_safe_le (f : FloatWidth) :
    (f.midpoint f.safe : ℚ) ≤ 2 * (twoPow 1024 - 5 * twoPow 970) * twoPow f.scale := by
  cases f with
  | f32 =>
      have hRoom : (twoPow f32.top : ℚ) ≤ twoPow 1024 - 5 * twoPow 970 := by
        have hLess : twoPow f32.top ≤ twoPow 970 := twoPow_le (by decide)
        have hSum : twoPow f32.top + 5 * twoPow 970 ≤ twoPow 1024 := by
          rw [JsonNumber.twoPow_1024_eq]
          omega
        rw [le_sub_iff_add_le]
        exact_mod_cast hSum
      refine (midpoint_le_top f32.safe_lt).trans ?_
      exact mul_le_mul_of_nonneg_right (by linarith) (Nat.cast_nonneg _)
  | f64 =>
      have hThird := JsonNumber.midpoint_sub_f64 (k := 2) (by decide)
      have hFive : (2 * (2 : Nat) + 1 : ℚ) = 5 := by norm_num
      rw [hFive] at hThird
      exact hThird.le

end FloatWidth

namespace Json

variable {f : FloatWidth}

/-- A decimal that rounds to a safe pattern is far enough below infinity. -/
theorem value_le_of_safe {d : Decimal} (h : d.nearest f ≤ f.safe) :
    d.value ≤ twoPow 1024 - 5 * twoPow 970 := by
  have hUpper := (d.nearest_roundsTo (f := f)).upper_le h (Nat.lt_of_le_of_lt h f.safe_lt)
  have hRoom := f.midpoint_safe_le
  refine le_of_mul_le_mul_right ?_ (Binary.twoPow_scale_pos f)
  linarith

theorem value_le_of_finite {d : Decimal} (h : d.nearest f < f.infinity) :
    d.value ≤ twoPow 1024 := by
  have hUpper := (d.nearest_roundsTo (f := f)).upper_le (Nat.le_refl _) h
  have hRoom := FloatWidth.midpoint_le_top h
  have hTop : (twoPow f.top : ℚ) ≤ twoPow 1024 := by
    exact_mod_cast twoPow_le (by cases f <;> decide : f.top ≤ 1024)
  refine le_trans (le_of_mul_le_mul_right ?_ (Binary.twoPow_scale_pos f)) hTop
  linarith

/-- The number that is written for a finite value denotes a decimal that rounds to it. -/
theorem exists_writes {x : Binary f} (hFinite : x.isFinite = true) :
    ∃ n d, ofBinary x = number n ∧ n.Writes x.isNegative d ∧ d.nearest f = x.magnitude := by
  have hLt : x.magnitude < f.infinity := of_decide_eq_true hFinite
  by_cases hZero : x.isZero = true
  · have hMagnitude : x.magnitude = 0 := of_decide_eq_true hZero
    refine ⟨_, ⟨0, 0⟩, ?_, JsonNumber.writes_zero x.isNegative, hMagnitude.symm⟩
    rw [ofBinary, hFinite, hZero]
    rfl
  · have hNearest := Decimal.nearest_shortest .even hLt
    have hPos : (Decimal.shortest f .even x.magnitude).coefficient ≠ 0 := by
      intro hNone
      have hNone' : (Decimal.shortest f .even x.magnitude).nearest f = 0 := if_pos hNone
      exact hZero (decide_eq_true (hNearest.symm.trans hNone'))
    refine ⟨_, Decimal.shortest f .even x.magnitude, ?_,
      JsonNumber.ofDecimal_writes f x.isNegative _ hPos, hNearest⟩
    rw [ofBinary, hFinite, if_neg hZero]
    rfl

theorem ofBinary_of_not_finite {x : Binary f} (h : x.isFinite = false) : ofBinary x = null := by
  rw [ofBinary, h]
  rfl

theorem wellFormed_ofBinary (x : Binary f) : (ofBinary x).WellFormed := by
  cases hFinite : x.isFinite with
  | false =>
      rw [ofBinary_of_not_finite hFinite]
      exact .null
  | true =>
      obtain ⟨n, _, hNumber, hWrites, _⟩ := exists_writes hFinite
      rw [hNumber]
      exact .number hWrites.wellFormed

/-- The two patterns below infinity that are not safe. -/
theorem isSome_binary?_of_not_safe {x : Binary f} (hFinite : x.isFinite = true)
    (hHigh : f.safe < x.magnitude) : ((ofBinary x).binary? f).isSome = true := by
  have hLt : x.magnitude < f.infinity := of_decide_eq_true hFinite
  have hSelf := x.ofMagnitude_self
  generalize x.magnitude = m at *
  generalize x.isNegative = negative at *
  subst hSelf
  cases f with
  | f32 => exact absurd hLt (Nat.not_lt.mpr (Nat.le_of_pred_lt hHigh))
  | f64 =>
      have hTwo : m = FloatWidth.f64.infinity - 1 ∨ m = FloatWidth.f64.infinity - 2 := by
        rw [FloatWidth.safe] at hHigh
        omega
      -- The bound does not reach this far; each of the two is read, as evaluation shows.
      rcases hTwo with rfl | rfl <;> cases negative <;> decide +kernel

/-- **What is written for a finite value is read.** -/
theorem isSome_binary?_ofBinary {x : Binary f} (hFinite : x.isFinite = true) :
    ((ofBinary x).binary? f).isSome = true := by
  by_cases hSafe : x.magnitude ≤ f.safe
  · obtain ⟨n, d, hNumber, hWrites, hNearest⟩ := exists_writes hFinite
    rw [hNumber]
    exact hWrites.isSome_binary? f (value_le_of_safe (hNearest ▸ hSafe))
  · exact isSome_binary?_of_not_safe hFinite (Nat.not_le.mp hSafe)

/-- **A value whose number is short is read back.** -/
theorem binary?_ofBinary_short {x : Binary f} {n : JsonNumber} (hNumber : ofBinary x = number n)
    (hShort : n.Short f) : n.binary? f = some x := by
  have hFinite : x.isFinite = true := by
    by_contra hNot
    rw [ofBinary_of_not_finite (Bool.eq_false_of_not_eq_true hNot)] at hNumber
    cases hNumber
  obtain ⟨n', d, hNumber', hWrites, hNearest⟩ := exists_writes hFinite
  obtain rfl := Json.number.inj (hNumber.symm.trans hNumber')
  have hValue : n.decimal.nearest f = x.magnitude :=
    (Decimal.nearest_congr hWrites.value_eq).trans hNearest
  have hLt : d.nearest f < f.infinity := hNearest ▸ of_decide_eq_true hFinite
  rw [JsonNumber.binary?_short hWrites.not_integer (hWrites.exponent_lt (value_le_of_finite hLt))
    hShort, hValue, hWrites.negative_eq, Binary.ofMagnitude_self]

/-- What is read from the text of a scalar is what is read from the number in it. -/
theorem readText?_float (x : Binary f) :
    readText? Scalar.ofJson? (Scalar.float f x).toJson.compact =
      ((ofBinary x).binary? f).map (Scalar.float f) := by
  have hForm : (Scalar.float f x).toJson.WellFormed := wellFormed_tagged _ (wellFormed_ofBinary x)
  rw [readText?, read?_compact hForm, Option.bind_some]
  exact Scalar.ofJson?_tagged (.float f) (ofBinary x)

end Json

open Json

/-- **What is read back from the text of a floating-point scalar.** Something is read if and only if
the scalar is finite; any other is written as `null`. It is the scalar itself if its number is short.
And a text that is read as a scalar of the wide format is rewritten to one that is read, too. -/
theorem float_text (f : FloatWidth) (x : Binary f) :
    (readText? Scalar.ofJson? (Scalar.float f x).toJson.compact).isSome = x.isFinite ∧
    (x.isFinite = false → (Scalar.float f x).toJson = tagged (ScalarType.float f).tag null) ∧
    (∀ n, ofBinary x = number n → n.Short f →
      readText? Scalar.ofJson? (Scalar.float f x).toJson.compact = some (.float f x)) ∧
    (∀ text, f = .f64 → readText? Scalar.ofJson? text = some (.float f x) →
      (readText? Scalar.ofJson? (Scalar.float f x).toJson.compact).isSome = true) := by
  have hRead : (readText? Scalar.ofJson? (Scalar.float f x).toJson.compact).isSome =
      x.isFinite := by
    rw [readText?_float, Option.isSome_map]
    cases hFinite : x.isFinite with
    | false =>
        rw [ofBinary_of_not_finite hFinite]
        rfl
    | true => exact isSome_binary?_ofBinary hFinite
  refine ⟨hRead, fun hFinite => ?_, fun n hNumber hShort => ?_, fun text hWide hText => ?_⟩
  · exact congrArg (tagged (ScalarType.float f).tag) (ofBinary_of_not_finite hFinite)
  · rw [readText?_float, hNumber]
    show (n.binary? f).map (Scalar.float f) = _
    rw [binary?_ofBinary_short hNumber hShort, Option.map_some]
  · subst hWide
    rw [hRead]
    obtain ⟨json, _, hScalar⟩ := Option.bind_eq_some_iff.mp hText
    obtain ⟨data, _, hData⟩ := Scalar.ofJson?_eq_some_iff.mp hScalar
    cases data with
    | number n => exact JsonNumber.isFinite_binary? hData
    | null | bool _ | string _ | array _ | object _ => cases hData

/-- The narrow value nearest to a tenth is read back, a wide infinity is not written as a number,
and `1e22` is rewritten to what is read. -/
theorem float_text_tenth :
    readText? Scalar.ofJson? (Scalar.float .f32 ⟨0x3dcccccd⟩).toJson.compact =
      some (.float .f32 ⟨0x3dcccccd⟩) ∧
    (Scalar.float .f64 (.infinity true)).toJson = tagged "F64" null ∧
    (readText? Scalar.ofJson? (Scalar.float .f64 ⟨0x4480f0cf064dd592⟩).toJson.compact).isSome =
      true := by
  have hTenth : JsonNumber.ofDecimal .f32 false (Decimal.shortest .f32 .even 0x3dcccccd) =
      ⟨false, ['0'], ['1'], none⟩ := by
    decide +kernel
  have hNumber : ofBinary (⟨0x3dcccccd⟩ : Binary .f32) = number ⟨false, ['0'], ['1'], none⟩ :=
    congrArg number hTenth
  refine ⟨(float_text .f32 _).2.2.1 _ hNumber (by decide), (float_text .f64 _).2.1 (by decide), ?_⟩
  exact (float_text .f64 _).2.2.2 "\x7b\"F64\":1e22\x7d".toList rfl (by decide +kernel)

/-- **What is lost.** A narrow infinity is read from a number beyond the narrow format, and written
as `null`, which is refused; a finite wide value is read back as its neighbour. -/
theorem float_text_lost :
    readText? Scalar.ofJson? "\x7b\"F32\":1e39\x7d".toList =
      some (.float .f32 (.infinity false)) ∧
    (Scalar.float .f32 (.infinity false)).toJson.compact = "\x7b\"F32\":null\x7d".toList ∧
    readText? Scalar.ofJson? "\x7b\"F32\":null\x7d".toList = none ∧
    (Scalar.float .f64 (.ofNat 7205759403792796)).toJson.compact =
      "\x7b\"F64\":7205759403792796.0\x7d".toList ∧
    readText? Scalar.ofJson? "\x7b\"F64\":7205759403792796.0\x7d".toList =
      some (.float .f64 (.ofNat 7205759403792797)) := by
  refine ⟨?_, ?_, ?_, ?_, ?_⟩ <;> decide +kernel

end WidthExact
