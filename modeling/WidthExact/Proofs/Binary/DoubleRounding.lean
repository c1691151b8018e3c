import Mathlib.Tactic.LinearCombination
import WidthExact.Proofs.Binary.Exact

/-!
# Rounding twice

A number that is rounded to the wide format and from there to the narrow one may come out wrong if
the first rounding moves it onto the middle between two narrow values. It cannot move a fraction
`num / 10 ^ k` with `num < 2 ^ 52` and `k ≤ 12` there: all narrow midpoints are wide values, and a
fraction of this kind is a midpoint itself or differs from it by more than rounding to the wide
format does.

## Main results

* `FloatWidth.RoundsTo.abs_sub_le` — how far rounding goes.
* `FloatWidth.RoundsTo.narrow` — rounding twice is rounding once.
-/

namespace WidthExact.FloatWidth

/-! ## How far rounding goes -/

theorem fieldWeight_mul_step_le {f : FloatWidth} {step units most : Nat}
    (hSmall : step = 1 ∨ f.fieldWeight * step ≤ units) (hUnits : units ≤ most)
    (hNormal : f.fieldWeight ≤ most) : (f.fieldWeight * step : ℚ) ≤ most := by
  rcases hSmall with rfl | hSmall
  · rw [Nat.cast_one, mul_one]
    exact_mod_cast hNormal
  · exact_mod_cast hSmall.trans hUnits

/-- Rounding moves a number by one part in `2 ^ precision` of the result at most, unless the result
is below the normal values. -/
theorem RoundsTo.abs_sub_le {f : FloatWidth} {x : ℚ} {m : Nat} (h : f.RoundsTo x m)
    (hFinite : m < f.infinity) (hNormal : f.fieldWeight ≤ f.units m) :
    2 * f.fieldWeight * |x - f.units m| ≤ f.units m := by
  have hWeight : (0 : ℚ) < f.fieldWeight := by exact_mod_cast f.fieldWeight_pos
  obtain ⟨k, rfl⟩ : ∃ k, m = k + 1 := by
    refine Nat.exists_eq_succ_of_ne_zero fun hZero => ?_
    have hNone : f.units m = 0 := hZero ▸ f.units_zero
    exact absurd (hNone ▸ hNormal) (Nat.not_le.mpr f.fieldWeight_pos)
  obtain ⟨below, hBelow, hBelowSmall⟩ := f.exists_step k
  obtain ⟨above, hAbove, hAboveSmall⟩ := f.exists_step (k + 1)
  have hLower : (f.units k + f.units (k + 1) : ℚ) ≤ 2 * x := by
    exact_mod_cast h.lower_le (Nat.lt_succ_self k)
  have hUpper : 2 * x ≤ f.units (k + 1) + f.units (k + 2) := by
    exact_mod_cast h.upper_le (Nat.le_refl _) hFinite
  have hBelow' : (f.units (k + 1) : ℚ) = f.units k + below := by exact_mod_cast hBelow
  have hAbove' : (f.units (k + 2) : ℚ) = f.units (k + 1) + above := by exact_mod_cast hAbove
  have hBelowPart := fieldWeight_mul_step_le hBelowSmall (f.units_lt_succ k).le hNormal
  have hAbovePart := fieldWeight_mul_step_le hAboveSmall (Nat.le_refl _) hNormal
  have hUp : f.fieldWeight * (2 * (x - f.units (k + 1))) ≤ f.fieldWeight * (above : ℚ) :=
    mul_le_mul_of_nonneg_left (by linarith) hWeight.le
  have hDown : f.fieldWeight * (2 * (f.units (k + 1) - x)) ≤ f.fieldWeight * (below : ℚ) :=
    mul_le_mul_of_nonneg_left (by linarith) hWeight.le
  rcases abs_choice (x - f.units (k + 1)) with hSign | hSign <;>
  · rw [hSign]
    linarith

/-! ## Midpoints of the narrow format -/

/-- The narrow format ends far below the wide one. -/
theorem units_infinity_wide : 2 * f32.units f32.infinity * twoPow 924 ≤ f64.units f64.infinity := by
  rw [f32.units_infinity, f64.units_infinity, Nat.mul_comm 2, ← twoPow_add, ← twoPow_add,
    ← twoPow_succ, ← twoPow_add]
  exact twoPow_le (by decide)

/-- A midpoint has one more bit than a value, so that it is a wide value. -/
theorem exists_units_eq_midpoint {j : Nat} (hj : j < f32.infinity) :
    ∃ m, m < f64.infinity ∧ f64.units m = f32.midpoint j * twoPow 924 := by
  obtain ⟨drop, kept, hMid, hKept, -⟩ := f32.exists_midpoint_eq j
  have hSmall : 2 * kept + 1 < twoPow 53 := by
    have hBits : 2 * (2 * f32.fieldWeight) < twoPow 53 := by decide
    omega
  obtain ⟨m, hm⟩ := exists_units_eq (f := f64) (drop + 924) hSmall
  rw [twoPow_add, ← Nat.mul_assoc, ← hMid] at hm
  refine ⟨m, ?_, hm⟩
  have hBelow : f32.midpoint j < 2 * f32.units f32.infinity :=
    (f32.midpoint_lt_units j).trans_le
      (Nat.mul_le_mul_left 2 (f32.strictMono_units.monotone hj))
  rw [← f64.strictMono_units.lt_iff_lt, hm]
  exact (Nat.mul_lt_mul_of_pos_right hBelow (twoPow_pos 924)).trans_le units_infinity_wide

/-! ## Fractions near a midpoint -/

/-- Two different natural numbers that differ by a small part of themselves are great. -/
theorem great_of_close {a b : Nat} (hNe : a ≠ b) (hClose : 2 ^ 53 * |(a : ℚ) - b| ≤ b) :
    2 ^ 53 ≤ b ∧ b ≤ 2 * a := by
  have hApart : (1 : ℚ) ≤ |(a : ℚ) - b| := by
    have hInt : (1 : Int) ≤ |(a : Int) - b| := Int.one_le_abs (by omega)
    exact_mod_cast hInt
  have hGreat : (2 ^ 53 : ℚ) ≤ b := by linarith
  have hHalf : (b : ℚ) ≤ 2 * a := by
    have hBelow := neg_abs_le ((a : ℚ) - b)
    linarith
  exact ⟨by exact_mod_cast hGreat, by exact_mod_cast hHalf⟩

/-- The same of numbers that become natural ones over a common denominator. -/
theorem great_of_scaled {a b : Nat} {v p scale : ℚ} (hScale : 0 < scale) (ha : v * scale = a)
    (hb : p * scale = b) (hNe : v ≠ p) (hClose : 2 ^ 53 * |v - p| ≤ p) :
    2 ^ 53 ≤ b ∧ b ≤ 2 * a := by
  refine great_of_close ?_ ?_
  · rintro rfl
    exact hNe (mul_right_cancel₀ hScale.ne' (ha.trans hb.symm))
  · have hDistance : |(a : ℚ) - b| = |v - p| * scale := by
      rw [← ha, ← hb, ← sub_mul, abs_mul, abs_of_pos hScale]
    rw [hDistance, ← hb, ← mul_assoc]
    exact mul_le_mul_of_nonneg_right hClose hScale.le

/-- Closeness in wide units is closeness of the numbers themselves. -/
theorem close_of_scaled {v twice scale : ℚ} (hScale : 0 < scale)
    (h : 2 ^ 53 * |v * 2 ^ 150 * scale - twice * scale| ≤ twice * scale) :
    2 ^ 53 * |v - twice / 2 ^ 150| ≤ twice / 2 ^ 150 := by
  have hFactor : v * 2 ^ 150 * scale - twice * scale =
      (v - twice / 2 ^ 150) * (2 ^ 150 * scale) := by
    field_simp
  rw [hFactor, abs_mul, abs_of_pos (mul_pos (by positivity) hScale)] at h
  rw [le_div_iff₀ (by positivity)]
  refine le_of_mul_le_mul_right ?_ hScale
  linarith

/-- **A short fraction is a midpoint or clearly apart from it.** -/
theorem eq_of_close {num k kept drop : Nat} (hNum : num < 2 ^ 52) (hk : k ≤ 12)
    (hKept : kept < twoPow 24) {v p : ℚ} (hv : v = num / 10 ^ k)
    (hp : p = ((2 * kept + 1 : Nat) : ℚ) * 2 ^ drop / 2 ^ 150)
    (hClose : 2 ^ 53 * |v - p| ≤ p) : v = p := by
  have hTen : (10 : ℚ) ^ k = 2 ^ k * 5 ^ k := by
    rw [← mul_pow]
    norm_num
  by_contra hNe
  by_cases hFine : drop + k ≤ 150
  · -- Both are whole numbers of the midpoint's last bit over `5 ^ k`.
    obtain ⟨j, hj⟩ := Nat.exists_eq_add_of_le hFine
    have hBits : (2 : ℚ) ^ 150 = 2 ^ drop * (2 ^ k * 2 ^ j) := by
      rw [← pow_add, ← pow_add, ← Nat.add_assoc, ← hj]
    have hFraction : v * (5 ^ k * (2 ^ k * 2 ^ j)) = (num * 2 ^ j : Nat) := by
      rw [hv, hTen]
      push_cast
      field_simp
    have hMid : p * (5 ^ k * (2 ^ k * 2 ^ j)) = ((2 * kept + 1) * 5 ^ k : Nat) := by
      rw [hp, hBits]
      push_cast
      field_simp
    have hGreat := (great_of_scaled (by positivity) hFraction hMid hNe hClose).1
    have hFive : 5 ^ k ≤ 5 ^ 12 := Nat.pow_le_pow_right (by decide) hk
    have hSmall : (2 * kept + 1) * 5 ^ k ≤ (2 * twoPow 24) * 5 ^ 12 :=
      Nat.mul_le_mul (by omega) hFive
    exact absurd (hGreat.trans hSmall) (by decide)
  · -- The midpoint is a whole number of the fraction's last digit.
    obtain ⟨j, hj⟩ := Nat.exists_eq_add_of_le (Nat.le_of_not_le hFine)
    have hBits : (2 : ℚ) ^ drop * 2 ^ k = 2 ^ 150 * 2 ^ j := by
      rw [← pow_add, ← pow_add, hj]
    have hFraction : v * 10 ^ k = num := by
      rw [hv]
      field_simp
    have hMid : p * 10 ^ k = ((2 * kept + 1) * 5 ^ k * 2 ^ j : Nat) := by
      rw [hp, hTen, div_mul_eq_mul_div, div_eq_iff (by positivity)]
      push_cast
      linear_combination (2 * (kept : ℚ) + 1) * 5 ^ k * hBits
    have hGreat := great_of_scaled (by positivity) hFraction hMid hNe hClose
    omega

/-! ## Rounding twice -/

theorem twoPow_scale_eq : (twoPow f64.scale : ℚ) = 2 * twoPow f32.scale * twoPow 924 := by
  have hScale : twoPow f64.scale = 2 * twoPow f32.scale * twoPow 924 := by
    rw [Nat.mul_comm 2, ← twoPow_succ, ← twoPow_add]
    rfl
  exact_mod_cast hScale

section

variable {v : ℚ} {n j : Nat} (hWide : f64.RoundsTo (v * twoPow f64.scale) n)
  (hj : j < f32.infinity)

include hWide hj

/-- The first rounding does not move a number over a midpoint. -/
theorem midpoint_le_units (h : (f32.midpoint j : ℚ) ≤ 2 * (v * twoPow f32.scale)) :
    (f32.midpoint j : ℚ) * twoPow 924 ≤ f64.units n := by
  obtain ⟨m, hm, hUnits⟩ := exists_units_eq_midpoint hj
  have hUnits' : (f64.units m : ℚ) = f32.midpoint j * twoPow 924 := by exact_mod_cast hUnits
  have hBelow : (f64.units m : ℚ) ≤ v * twoPow f64.scale := by
    rw [hUnits', twoPow_scale_eq]
    have hScaled := mul_le_mul_of_nonneg_right h (Nat.cast_nonneg (twoPow 924) : (0 : ℚ) ≤ _)
    linarith
  have hOrder := (RoundsTo.units hm.le).mono hWide hBelow
  rw [← hUnits']
  exact_mod_cast f64.strictMono_units.monotone hOrder

/-- Nor the other way. -/
theorem units_le_midpoint (h : 2 * (v * twoPow f32.scale) ≤ f32.midpoint j) :
    (f64.units n : ℚ) ≤ f32.midpoint j * twoPow 924 := by
  obtain ⟨m, hm, hUnits⟩ := exists_units_eq_midpoint hj
  have hUnits' : (f64.units m : ℚ) = f32.midpoint j * twoPow 924 := by exact_mod_cast hUnits
  have hAbove : v * twoPow f64.scale ≤ f64.units m := by
    rw [hUnits', twoPow_scale_eq]
    have hScaled := mul_le_mul_of_nonneg_right h (Nat.cast_nonneg (twoPow 924) : (0 : ℚ) ≤ _)
    linarith
  have hOrder := hWide.mono (RoundsTo.units hm.le) hAbove
  rw [← hUnits']
  exact_mod_cast f64.strictMono_units.monotone hOrder

end

/-- And it moves a short fraction onto a midpoint only if the fraction is the midpoint. -/
theorem eq_midpoint_of_units_eq {v : ℚ} {num k n j : Nat} (hNum : num < 2 ^ 52) (hk : k ≤ 12)
    (hv : v = num / 10 ^ k) (hWide : f64.RoundsTo (v * twoPow f64.scale) n)
    (hFinite : n < f64.infinity)
    (h : (f64.units n : ℚ) = f32.midpoint j * twoPow 924) :
    2 * (v * twoPow f32.scale) = f32.midpoint j := by
  obtain ⟨drop, kept, hMid, hKept, -⟩ := f32.exists_midpoint_eq j
  rw [← f32.twoPow_precision] at hKept
  have hScale : (0 : ℚ) < twoPow 924 := by exact_mod_cast twoPow_pos 924
  have hNormal : f64.fieldWeight ≤ f64.units n := by
    have hUnits : f64.units n = f32.midpoint j * twoPow 924 := by exact_mod_cast h
    have hPos : 0 < f32.midpoint j := (Nat.zero_le _).trans_lt (f32.units_lt_midpoint j)
    rw [hUnits]
    have hWeight : f64.fieldWeight ≤ twoPow 924 := twoPow_le (by decide)
    exact hWeight.trans (Nat.le_mul_of_pos_left _ hPos)
  have hNear := hWide.abs_sub_le hFinite hNormal
  have hWeight : (2 * f64.fieldWeight : ℚ) = 2 ^ 53 := by
    exact_mod_cast (show 2 * f64.fieldWeight = 2 ^ 53 by decide)
  have hUnit : (2 * twoPow f32.scale : ℚ) = 2 ^ 150 := by
    exact_mod_cast (show 2 * twoPow f32.scale = 2 ^ 150 by decide)
  have hMid' : (f32.midpoint j : ℚ) = (2 * kept + 1 : Nat) * 2 ^ drop := by
    rw [hMid, Nat.cast_mul]
    exact congrArg _ (Nat.cast_pow 2 drop)
  have hSame : v * twoPow f64.scale = v * 2 ^ 150 * twoPow 924 := by
    rw [twoPow_scale_eq, hUnit, mul_assoc]
  rw [h, hSame, hWeight] at hNear
  have hClose := close_of_scaled hScale hNear
  have hEq := eq_of_close hNum hk hKept hv (by rw [hMid']) hClose
  rw [mul_left_comm, hUnit, hEq]
  exact div_mul_cancel₀ _ (by positivity)

/-- **Rounding twice is rounding once**, for a fraction with fewer than 53 bits above the bar and a
power of ten up to 12 below it. -/
theorem RoundsTo.narrow {v : ℚ} {num k m n : Nat} (hNum : num < 2 ^ 52) (hk : k ≤ 12)
    (hv : v = num / 10 ^ k) (hWide : f64.RoundsTo (v * twoPow f64.scale) n)
    (hFinite : n < f64.infinity) (hNarrow : f32.RoundsTo (v * twoPow f32.scale) m) :
    f32.RoundsTo ((f64.units n : ℚ) / twoPow f64.scale * twoPow f32.scale) m := by
  have hScale : (0 : ℚ) < twoPow 924 := by exact_mod_cast twoPow_pos 924
  have hUnit : (0 : ℚ) < twoPow f32.scale := by exact_mod_cast twoPow_pos f32.scale
  have hDouble : 2 * ((f64.units n : ℚ) / twoPow f64.scale * twoPow f32.scale) =
      f64.units n / twoPow 924 := by
    rw [twoPow_scale_eq]
    field_simp
  have hEqual (j : Nat) := eq_midpoint_of_units_eq (j := j) hNum hk hv hWide hFinite
  refine ⟨hNarrow.le_infinity, ?_, ?_⟩
  · rintro j rfl
    have hj : j < f32.infinity := hNarrow.le_infinity
    rw [hDouble, lt_div_iff₀ hScale, eq_div_iff hScale.ne']
    rcases hNarrow.lower j rfl with hLt | ⟨hEq, hEven⟩
    · refine .inl (lt_of_le_of_ne (midpoint_le_units hWide hj hLt.le) fun hOn => ?_)
      exact hLt.ne' (hEqual j hOn.symm)
    · exact .inr ⟨le_antisymm (midpoint_le_units hWide hj hEq.le)
        (units_le_midpoint hWide hj hEq.ge), hEven⟩
  · intro hm
    rw [hDouble, div_lt_iff₀ hScale, div_eq_iff hScale.ne']
    rcases hNarrow.upper hm with hLt | ⟨hEq, hEven⟩
    · refine .inl (lt_of_le_of_ne (units_le_midpoint hWide hm hLt.le) fun hOn => ?_)
      exact hLt.ne (hEqual m hOn)
    · exact .inr ⟨le_antisymm (units_le_midpoint hWide hm hEq.le)
        (midpoint_le_units hWide hm hEq.ge), hEven⟩

end WidthExact.FloatWidth
