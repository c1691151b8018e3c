import WidthExact.Proofs.Binary.Format
import WidthExact.Proofs.Truncated

/-!
# Truncation toward zero

Truncation drops the fraction of a value. Where the fraction starts depends on the exponent: a value
may have no fraction, or nothing but one. What is left is a value of the same format in any case, so
that `Binary.truncate`, which rounds the whole part to the format, rounds nothing.

## Main results

* `Binary.truncated_value` — the whole part with its sign is the value rounded toward zero.
* `Binary.exists_wholePart_eq`, `Binary.exists_units_eq_wholePart` — a format holds the whole parts of
  its values.
* `Binary.isFinite_truncate`, `Binary.value_truncate` — truncation is exact.
-/

namespace WidthExact

variable {f : FloatWidth}

namespace Binary

/-! ## Whole parts -/

theorem floor_size (x : Binary f) : ⌊x.size⌋ = x.wholePart := by
  rw [size, Rat.floor_natCast_div_natCast]
  rfl

/-- The whole part, with the sign of the value, is the value rounded toward zero. -/
theorem truncated_value (x : Binary f) :
    truncated x.value = if x.isNegative then -(x.wholePart : Int) else x.wholePart := by
  rw [x.value_eq, ← floor_size]
  cases x.isNegative with
  | false => exact truncated_of_nonneg x.size_nonneg
  | true => exact truncated_neg x.size_nonneg

/-- The whole part of a value has no more bits than the value, but for zeros behind them. -/
theorem exists_wholePart_eq (x : Binary f) :
    ∃ c j, c < twoPow f.precision ∧ x.wholePart = c * twoPow j := by
  obtain ⟨kept, drop, hKept, hUnits⟩ := f.exists_eq_units x.magnitude
  rw [← units] at hUnits
  by_cases hWhole : f.scale ≤ drop
  · -- There is no fraction.
    obtain ⟨j, rfl⟩ := Nat.exists_eq_add_of_le' hWhole
    refine ⟨kept, j, hKept, ?_⟩
    rw [wholePart, hUnits, twoPow_add, ← Nat.mul_assoc]
    exact Nat.mul_div_cancel _ (twoPow_pos _)
  · -- The whole part is what is left of the kept bits.
    refine ⟨x.wholePart, 0, lt_of_le_of_lt ?_ hKept, (Nat.mul_one _).symm⟩
    rw [wholePart, hUnits]
    refine Nat.div_le_of_le_mul ?_
    rw [Nat.mul_comm kept]
    exact Nat.mul_le_mul_right _ (twoPow_le (Nat.le_of_not_le hWhole))

/-- So a format holds the whole parts of its values. -/
theorem exists_units_eq_wholePart {x : Binary f} (hFinite : x.isFinite = true) :
    ∃ m < f.infinity, f.units m = x.wholePart * twoPow f.scale := by
  obtain ⟨c, j, hc, hWhole⟩ := x.exists_wholePart_eq
  obtain ⟨m, hm⟩ := FloatWidth.exists_units_eq (j + f.scale) hc
  rw [twoPow_add, ← Nat.mul_assoc, ← hWhole] at hm
  have hLess : f.units m ≤ f.units x.magnitude := by
    rw [hm]
    exact Nat.div_mul_le_self x.units (twoPow f.scale)
  exact ⟨m, (f.strictMono_units.le_iff_le.mp hLess).trans_lt (of_decide_eq_true hFinite), hm⟩

/-! ## Truncation -/

theorem truncate_of_not_isFinite {x : Binary f} (h : x.isFinite = false) : x.truncate = x := by
  rw [truncate, h]
  rfl

section

variable {x : Binary f} (hFinite : x.isFinite = true)

include hFinite

theorem truncate_of_isFinite : x.truncate = ofRatio x.isNegative x.wholePart 1 := if_pos hFinite

theorem isNegative_truncate : x.truncate.isNegative = x.isNegative := by
  rw [truncate_of_isFinite hFinite, isNegative_ofRatio _ _ Nat.one_pos]

/-- The whole part is a value, so it is what it is rounded to. -/
theorem units_truncate :
    x.truncate.magnitude < f.infinity ∧ x.truncate.units = x.wholePart * twoPow f.scale := by
  obtain ⟨m, hm, hUnits⟩ := exists_units_eq_wholePart hFinite
  have hMagnitude : x.truncate.magnitude = m := by
    rw [truncate_of_isFinite hFinite]
    exact magnitude_ofRatio_one _ hm.le hUnits
  rw [units, hMagnitude]
  exact ⟨hm, hUnits⟩

theorem isFinite_truncate : x.truncate.isFinite = true := decide_eq_true (units_truncate hFinite).1

theorem size_truncate : x.truncate.size = x.wholePart := size_of_units (units_truncate hFinite).2

/-- **A finite value is truncated without rounding.** -/
theorem value_truncate : x.truncate.value = truncated x.value := by
  rw [x.truncate.value_eq, isNegative_truncate hFinite, size_truncate hFinite,
    x.truncated_value]
  cases x.isNegative with
  | false => exact (Int.cast_natCast _).symm
  | true =>
      show -(x.wholePart : ℚ) = ((-(x.wholePart : Int) : Int) : ℚ)
      rw [Int.cast_neg, Int.cast_natCast]

end

end Binary

end WidthExact
