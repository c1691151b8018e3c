import WidthExact.Binary.Convert
import WidthExact.Proofs.Binary.Order
import WidthExact.Proofs.HalfEven

/-!
# Rounding to integral values, ties to even

`Binary.round` takes the magnitude of a finite value to the nearest natural number, which is then
rounded to the format. That second rounding never moves anything. Either the value has no fraction, and
is the number itself, or it lies below `2 ^ (precision - 1)`, and no number up to there has more bits
than a significand, the one that a carry leads to included.

So the number denoted is rounded half to even, and the sign bit stays apart from it: a value that
rounds to zero keeps its sign.

## Main results

* `Binary.isHalfEven_nearestNat` — the number computed is the one specified.
* `Binary.dvd_units_or_lt`, `Binary.exists_units_eq_nearestNat` — a format holds it.
* `Binary.round_half_even` — rounding, of every value.
-/

namespace WidthExact

variable {f : FloatWidth}

namespace Binary

/-! ## The nearest natural number -/

/-- The number computed is nearest, and even on a tie. -/
theorem isHalfEven_nearestNat (num : Nat) {den : Nat} (hDen : 0 < den) :
    IsHalfEven ((num : ℚ) / den) (nearestNat num den : Int) := by
  have hLess : num % den < den := Nat.mod_lt num hDen
  have hSplit : num / den * den + num % den = num := Nat.div_add_mod' num den
  rw [nearestNat]
  split
  · next hUp =>
      have hNext : (num / den + 1) * den = num / den * den + den := Nat.succ_mul _ _
      exact .of_ratio hDen (by omega) (by omega) (by omega)
  · next hDown => exact .of_ratio hDen (by omega) (by omega) (by omega)

/-- A natural number is nearest to itself. -/
theorem nearestNat_mul (n : Nat) {den : Nat} (hDen : 0 < den) : nearestNat (n * den) den = n := by
  have hDen' : (den : ℚ) ≠ 0 := by exact_mod_cast hDen.ne'
  have hNearest := isHalfEven_nearestNat (n * den) hDen
  rw [Nat.cast_mul, mul_div_cancel_right₀ _ hDen'] at hNearest
  exact Int.ofNat.inj (hNearest.unique (.intCast n))

/-- A ratio that is not above a natural number does not come out above it. -/
theorem nearestNat_le {num den n : Nat} (hDen : 0 < den) (h : num ≤ n * den) :
    nearestNat num den ≤ n := by
  have hDen' : (0 : ℚ) < den := by exact_mod_cast hDen
  have hLe : (num : ℚ) / den ≤ (n : Int) := by
    rw [div_le_iff₀ hDen', Int.cast_natCast]
    exact_mod_cast h
  exact Int.ofNat_le.mp ((isHalfEven_nearestNat num hDen).mono (.intCast n) hLe)

/-! ## What is rounded is a value of the format -/

/-- A value with a fraction lies below `2 ^ (precision - 1)`. -/
theorem dvd_units_or_lt (x : Binary f) :
    twoPow f.scale ∣ x.units ∨ x.units < f.fieldWeight * twoPow f.scale := by
  obtain ⟨c, j, hc, hUnits⟩ := f.exists_eq_units x.magnitude
  rw [← units] at hUnits
  by_cases hWhole : f.scale ≤ j
  · obtain ⟨k, rfl⟩ := Nat.exists_eq_add_of_le' hWhole
    left
    rw [hUnits, twoPow_add, ← Nat.mul_assoc]
    exact Nat.dvd_mul_left _ _
  · right
    calc x.units = c * twoPow j := hUnits
      _ < twoPow f.precision * twoPow j := Nat.mul_lt_mul_of_pos_right hc (twoPow_pos _)
      _ = f.fieldWeight * twoPow (j + 1) := by
          rw [f.twoPow_precision, twoPow_succ, Nat.mul_comm 2, Nat.mul_assoc, Nat.mul_comm 2]
      _ ≤ f.fieldWeight * twoPow f.scale :=
          Nat.mul_le_mul_left _ (twoPow_le (Nat.lt_of_not_le hWhole))

/-- So a format holds the integers that its values are rounded to. -/
theorem exists_units_eq_nearestNat {x : Binary f} (hFinite : x.isFinite = true) :
    ∃ m < f.infinity,
      f.units m = nearestNat x.units (twoPow f.scale) * twoPow f.scale := by
  have hScale := twoPow_pos f.scale
  rcases x.dvd_units_or_lt with ⟨n, hn⟩ | hSmall
  · refine ⟨x.magnitude, of_decide_eq_true hFinite, ?_⟩
    show x.units = _
    rw [hn, Nat.mul_comm _ n, nearestNat_mul n hScale]
  · have hWeight : f.fieldWeight < twoPow f.precision := by
      have hPos := f.fieldWeight_pos
      rw [f.twoPow_precision]
      omega
    have hTop : f.fieldWeight < twoPow f.top :=
      Nat.pow_lt_pow_right (by decide) (by cases f <;> decide)
    have hLe := nearestNat_le hScale hSmall.le
    obtain ⟨m, hm⟩ := FloatWidth.exists_units_eq f.scale (hLe.trans_lt hWeight)
    refine ⟨m, f.strictMono_units.lt_iff_lt.mp ?_, hm⟩
    rw [hm, f.units_infinity]
    exact Nat.mul_lt_mul_of_pos_right (hLe.trans_lt hTop) hScale

/-! ## Rounding -/

theorem round_of_not_isFinite {x : Binary f} (h : x.isFinite = false) : x.round = x := by
  rw [round, h]
  rfl

section

variable {x : Binary f} (hFinite : x.isFinite = true)

include hFinite

theorem round_of_isFinite :
    x.round = ofRatio x.isNegative (nearestNat x.units (twoPow f.scale)) 1 := if_pos hFinite

theorem isNegative_round : x.round.isNegative = x.isNegative := by
  rw [round_of_isFinite hFinite, isNegative_ofRatio _ _ Nat.one_pos]

/-- The integer is a value, so it is what it is rounded to. -/
theorem units_round : x.round.magnitude < f.infinity ∧
    x.round.units = nearestNat x.units (twoPow f.scale) * twoPow f.scale := by
  obtain ⟨m, hm, hUnits⟩ := exists_units_eq_nearestNat hFinite
  have hMagnitude : x.round.magnitude = m := by
    rw [round_of_isFinite hFinite]
    exact magnitude_ofRatio_one _ hm.le hUnits
  rw [units, hMagnitude]
  exact ⟨hm, hUnits⟩

theorem isFinite_round : x.round.isFinite = true := decide_eq_true (units_round hFinite).1

/-- **A finite value is rounded half to even.** -/
theorem exists_value_round : ∃ n : Int, x.round.value = n ∧ IsHalfEven x.value n := by
  have hNearest := isHalfEven_nearestNat x.units (twoPow_pos f.scale)
  have hSize := size_of_units (units_round hFinite).2
  rw [x.round.value_eq, x.value_eq, isNegative_round hFinite, hSize]
  cases x.isNegative with
  | false => exact ⟨_, (Int.cast_natCast _).symm, hNearest⟩
  | true => exact ⟨_, by rw [Int.cast_neg, Int.cast_natCast]; rfl, hNearest.neg⟩

/-- A value without a fraction stays as it is. -/
theorem round_of_dvd (h : twoPow f.scale ∣ x.units) : x.round = x := by
  obtain ⟨n, hn⟩ := h
  have hMagnitude : x.round.magnitude = x.magnitude := by
    refine f.strictMono_units.injective ?_
    show x.round.units = x.units
    rw [(units_round hFinite).2, hn, Nat.mul_comm _ n, nearestNat_mul n (twoPow_pos _)]
  rw [eq_ofMagnitude (isNegative_round hFinite) hMagnitude, ofMagnitude_self]

end

theorem isNaN_round (x : Binary f) : x.round.isNaN = x.isNaN := by
  cases hFinite : x.isFinite with
  | false => rw [round_of_not_isFinite hFinite]
  | true => rw [isNaN_of_isFinite (isFinite_round hFinite), isNaN_of_isFinite hFinite]

theorem round_of_isInfinite {x : Binary f} (h : x.isInfinite = true) : x.round = x :=
  round_of_not_isFinite (isFinite_of_isInfinite h)

/-! ## What follows -/

theorem round_round (x : Binary f) : x.round.round = x.round := by
  cases hFinite : x.isFinite with
  | false => rw [round_of_not_isFinite hFinite, round_of_not_isFinite hFinite]
  | true =>
      refine round_of_dvd (isFinite_round hFinite) ?_
      rw [(units_round hFinite).2]
      exact Nat.dvd_mul_left _ _

/-- From `2 ^ (precision - 1)` on there are no fractions. -/
theorem round_of_le_abs {x : Binary f} (hFinite : x.isFinite = true)
    (h : 2 ^ (f.precision - 1) ≤ |x.value|) : x.round = x := by
  rcases x.dvd_units_or_lt with hDvd | hSmall
  · exact round_of_dvd hFinite hDvd
  · have hSmall' : (x.units : ℚ) < 2 ^ (f.precision - 1) * twoPow f.scale := by exact_mod_cast hSmall
    rw [x.abs_value, size, le_div_iff₀ (twoPow_scale_pos f)] at h
    exact absurd h (not_le.mpr hSmall')

/-- Rounding is monotone. Between finite values it is that of the numbers denoted; an infinity is at
its place already. -/
theorem round_le {x y : Binary f} (h : le x y = true) : le x.round y.round = true := by
  obtain ⟨hx, hy, hKey⟩ := le_iff.mp h
  refine le_iff.mpr ⟨x.isNaN_round.trans hx, y.isNaN_round.trans hy, ?_⟩
  have hOrder := x.natAbs_orderKey
  have hOrder' := y.natAbs_orderKey
  rcases isFinite_or_isInfinite hx with hLeft | hLeft <;>
    rcases isFinite_or_isInfinite hy with hRight | hRight
  · obtain ⟨m, hm, hNearest⟩ := exists_value_round hLeft
    obtain ⟨n, hn, hNearest'⟩ := exists_value_round hRight
    rw [orderKey_le_iff, hm, hn, Int.cast_le]
    exact hNearest.mono hNearest' ((orderKey_le_iff x y).mp hKey)
  · have hRounded := x.round.natAbs_orderKey
    have hBelow : x.magnitude < f.infinity := of_decide_eq_true hLeft
    have hBelow' := (units_round hLeft).1
    have hAt : y.magnitude = f.infinity := of_decide_eq_true hRight
    rw [round_of_isInfinite hRight]
    omega
  · have hRounded := y.round.natAbs_orderKey
    have hBelow : y.magnitude < f.infinity := of_decide_eq_true hRight
    have hBelow' := (units_round hRight).1
    have hAt : x.magnitude = f.infinity := of_decide_eq_true hLeft
    rw [round_of_isInfinite hLeft]
    omega
  · rw [round_of_isInfinite hLeft, round_of_isInfinite hRight]
    exact hKey

theorem round_negate (x : Binary f) : x.negate.round = x.round.negate := by
  cases hFinite : x.isFinite with
  | false =>
      rw [round_of_not_isFinite hFinite, round_of_not_isFinite (x.isFinite_negate.trans hFinite)]
  | true =>
      rw [round_of_isFinite (x.isFinite_negate.trans hFinite), isNegative_negate, units,
        magnitude_negate, negate, isNegative_round hFinite, round_of_isFinite hFinite,
        magnitude_ofRatio _ _ Nat.one_pos]
      rfl

/-- **Rounding is half to even on every value.** A finite value becomes the integral value nearest to
it, the even one on a tie, with the same sign bit also on a zero. An infinity stays, and a NaN stays a
NaN. So rounding again does nothing, the order of numbers is kept, a finite value from
`2 ^ (precision - 1)` on stays, and rounding does not care for the sign. -/
theorem round_half_even (x : Binary f) :
    (x.isFinite = true → x.round.isFinite = true ∧ x.round.isNegative = x.isNegative ∧
      ∃ n : Int, x.round.value = n ∧ IsHalfEven x.value n) ∧
    (x.isInfinite = true → x.round = x) ∧
    (x.isNaN = true → x.round.isNaN = true) ∧
    x.round.round = x.round ∧
    (∀ y : Binary f, le x y = true → le x.round y.round = true) ∧
    (x.isFinite = true → 2 ^ (f.precision - 1) ≤ |x.value| → x.round = x) ∧
    x.negate.round = x.round.negate :=
  ⟨fun hFinite => ⟨isFinite_round hFinite, isNegative_round hFinite, exists_value_round hFinite⟩,
    round_of_isInfinite, x.isNaN_round.trans, x.round_round, fun _ => round_le, round_of_le_abs,
    x.round_negate⟩

/-- A half below zero keeps its sign, one and a half and two and a half keep their order, and the
greatest odd number of the narrow format stays. -/
theorem round_half_even_ends :
    (⟨0xbf000000#32⟩ : Binary .f32).round.isNegative = true ∧
      le (⟨0x3fc00000#32⟩ : Binary .f32).round (⟨0x40200000#32⟩ : Binary .f32).round = true ∧
      (⟨0x4b7fffff#32⟩ : Binary .f32).round = ⟨0x4b7fffff#32⟩ ∧
      (⟨0x7f800000#32⟩ : Binary .f32).round = ⟨0x7f800000#32⟩ ∧
      (⟨0x7fc00000#32⟩ : Binary .f32).round.isNaN = true := by
  obtain ⟨hHalf, -⟩ := round_half_even (⟨0xbf000000#32⟩ : Binary .f32)
  obtain ⟨-, -, -, -, hOrder, -⟩ := round_half_even (⟨0x3fc00000#32⟩ : Binary .f32)
  obtain ⟨-, -, -, -, -, hGreat, -⟩ := round_half_even (⟨0x4b7fffff#32⟩ : Binary .f32)
  obtain ⟨-, hInfinite, -⟩ := round_half_even (⟨0x7f800000#32⟩ : Binary .f32)
  obtain ⟨-, -, hNaN, -⟩ := round_half_even (⟨0x7fc00000#32⟩ : Binary .f32)
  exact ⟨(hHalf (by decide)).2.1.trans (by decide), hOrder _ (by decide),
    hGreat (by decide) (by decide +kernel), hInfinite (by decide), hNaN (by decide)⟩

/-- One and a half goes up to two, two and a half goes down to it, and minus a half becomes minus
zero. -/
example : (⟨0x3fc00000#32⟩ : Binary .f32).round = ⟨0x40000000#32⟩ ∧
    (⟨0x40200000#32⟩ : Binary .f32).round = ⟨0x40000000#32⟩ ∧
    (⟨0xbf000000#32⟩ : Binary .f32).round = zero true := by decide +kernel

end Binary

end WidthExact
