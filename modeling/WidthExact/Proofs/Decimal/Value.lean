import Mathlib.Algebra.Order.Field.Power
import Mathlib.Tactic.FieldSimp
import Mathlib.Tactic.Positivity
import WidthExact.Decimal.Shortest
import WidthExact.Proofs.Binary.Rounding

/-!
# Decimals round by their value

`Decimal.nearest` recognises very large and very small decimals by their size alone. It gives the
pattern that the value of the decimal rounds to all the same, so decimals of one value round alike.
Hence a decimal that `Decimal.shortest` finds rounds back to the pattern that it was made for.

## Main results

* `Decimal.nearest_eq_iff` — the rounding of a decimal.
* `Decimal.nearest_shortest` — back from the shortest decimal.
-/

namespace WidthExact

namespace Decimal

variable {f : FloatWidth}

/-- The number that a decimal denotes. -/
def value (d : Decimal) : ℚ := d.coefficient * 10 ^ d.exponent

/-! ## Powers of ten -/

theorem ten_zpow_eq_div (e : Int) :
    (10 : ℚ) ^ e = (tenPow e.toNat : ℚ) / tenPow (-e).toNat := by
  have hTen (n : Nat) : ((tenPow n : Nat) : ℚ) = 10 ^ n := Nat.cast_pow 10 n
  rw [hTen, hTen, ← zpow_natCast, ← zpow_natCast, ← zpow_sub₀ (by norm_num)]
  congr 1
  omega

theorem value_eq_div (d : Decimal) :
    d.value = ((d.coefficient * tenPow d.exponent.toNat : Nat) : ℚ) /
      (tenPow (-d.exponent).toNat : Nat) := by
  rw [value, ten_zpow_eq_div, Nat.cast_mul, mul_div_assoc]

/-- Zeros at the end of a coefficient are part of the exponent. -/
theorem value_zeros (c k : Nat) (e : Int) :
    (⟨c * 10 ^ k, e⟩ : Decimal).value = (⟨c, e + k⟩ : Decimal).value := by
  rw [value, value, Nat.cast_mul, Nat.cast_pow, zpow_add₀ (by norm_num), zpow_natCast]
  push_cast
  ring

/-- A coefficient with `size + 1` bits is at least `10 ^ (size / 4)`. -/
theorem ten_pow_le_coefficient {c : Nat} (hc : c ≠ 0) : 10 ^ (c.log2 / 4) ≤ c := by
  calc 10 ^ (c.log2 / 4) ≤ (2 ^ 4) ^ (c.log2 / 4) := Nat.pow_le_pow_left (by decide) _
    _ = 2 ^ (4 * (c.log2 / 4)) := (Nat.pow_mul 2 4 _).symm
    _ ≤ 2 ^ c.log2 := Nat.pow_le_pow_right (by decide) (Nat.mul_div_le _ 4)
    _ ≤ c := Nat.log2_self_le hc

/-- And it is less than `10 ^ ((size + 3) / 3)`. -/
theorem coefficient_lt_ten_pow (c : Nat) : c < 10 ^ ((c.log2 + 3) / 3) := by
  calc c < 2 ^ (c.log2 + 1) := Nat.lt_log2_self
    _ ≤ 2 ^ (3 * ((c.log2 + 3) / 3)) := Nat.pow_le_pow_right (by decide) (by omega)
    _ = (2 ^ 3) ^ ((c.log2 + 3) / 3) := Nat.pow_mul 2 3 _
    _ ≤ 10 ^ ((c.log2 + 3) / 3) := Nat.pow_le_pow_left (by decide) _

/-! ## Rounding -/

/-- The powers at which rounding looks no closer lie far outside of either format. -/
theorem units_infinity_le (f : FloatWidth) : f.units f.infinity ≤ 10 ^ 400 * twoPow f.scale := by
  cases f <;> decide +kernel

theorem two_twoPow_scale_lt (f : FloatWidth) : 2 * twoPow f.scale < 10 ^ 400 := by
  cases f <;> decide +kernel

theorem roundsTo_of_large {d : Decimal} (hc : d.coefficient ≠ 0)
    (hLarge : 400 ≤ d.exponent + (d.coefficient.log2 / 4 : Nat)) :
    f.RoundsTo (d.value * twoPow f.scale) f.infinity := by
  have hCoefficient : (10 : ℚ) ^ ((d.coefficient.log2 / 4 : Nat) : Int) ≤ d.coefficient := by
    rw [zpow_natCast]
    exact_mod_cast ten_pow_le_coefficient hc
  have hValue : (10 : ℚ) ^ 400 ≤ d.value := by
    calc (10 : ℚ) ^ 400 = 10 ^ ((400 : Nat) : Int) := (zpow_natCast 10 400).symm
      _ ≤ 10 ^ (((d.coefficient.log2 / 4 : Nat) : Int) + d.exponent) :=
        zpow_le_zpow_right₀ (by norm_num) (by omega)
      _ = 10 ^ ((d.coefficient.log2 / 4 : Nat) : Int) * 10 ^ d.exponent :=
        zpow_add₀ (by norm_num) _ _
      _ ≤ d.value := mul_le_mul_of_nonneg_right hCoefficient (by positivity)
  have hInfinity : (f.units f.infinity : ℚ) ≤ 10 ^ 400 * twoPow f.scale := by
    exact_mod_cast units_infinity_le f
  exact .infinity (hInfinity.trans (mul_le_mul_of_nonneg_right hValue (Nat.cast_nonneg _)))

theorem roundsTo_of_small {d : Decimal}
    (hSmall : d.exponent + ((d.coefficient.log2 + 3) / 3 : Nat) < -400) :
    f.RoundsTo (d.value * twoPow f.scale) 0 := by
  have hCoefficient : (d.coefficient : ℚ) < 10 ^ (((d.coefficient.log2 + 3) / 3 : Nat) : Int) := by
    rw [zpow_natCast]
    exact_mod_cast coefficient_lt_ten_pow d.coefficient
  have hValue : d.value < (10 ^ 400)⁻¹ := by
    calc d.value < 10 ^ (((d.coefficient.log2 + 3) / 3 : Nat) : Int) * 10 ^ d.exponent :=
        mul_lt_mul_of_pos_right hCoefficient (by positivity)
      _ = 10 ^ ((((d.coefficient.log2 + 3) / 3 : Nat) : Int) + d.exponent) :=
        (zpow_add₀ (by norm_num) _ _).symm
      _ ≤ 10 ^ (-((400 : Nat) : Int)) := zpow_le_zpow_right₀ (by norm_num) (by omega)
      _ = (10 ^ 400)⁻¹ := by rw [zpow_neg, zpow_natCast]
  have hScale : (2 * twoPow f.scale : ℚ) < 10 ^ 400 := by
    exact_mod_cast two_twoPow_scale_lt f
  have hScalePos : (0 : ℚ) < twoPow f.scale := by exact_mod_cast twoPow_pos f.scale
  apply FloatWidth.RoundsTo.zero
  calc 2 * (d.value * twoPow f.scale) = d.value * (2 * twoPow f.scale) := by ring
    _ < (10 ^ 400)⁻¹ * (2 * twoPow f.scale) := mul_lt_mul_of_pos_right hValue (by positivity)
    _ < (10 ^ 400)⁻¹ * 10 ^ 400 := mul_lt_mul_of_pos_left hScale (by positivity)
    _ = 1 := inv_mul_cancel₀ (by positivity)

/-- **A decimal is rounded by its value**, however large or small. -/
theorem nearest_roundsTo (d : Decimal) : f.RoundsTo (d.value * twoPow f.scale) (d.nearest f) := by
  unfold nearest
  simp only
  by_cases hc : d.coefficient = 0
  · rw [if_pos hc]
    apply FloatWidth.RoundsTo.zero
    rw [value, hc, Nat.cast_zero, zero_mul, zero_mul, mul_zero]
    exact one_pos
  rw [if_neg hc]
  by_cases hLarge : 400 ≤ d.exponent + (d.coefficient.log2 / 4 : Nat)
  · rw [if_pos hLarge]
    exact roundsTo_of_large hc hLarge
  rw [if_neg hLarge]
  by_cases hSmall : d.exponent + ((d.coefficient.log2 + 3) / 3 : Nat) < -400
  · rw [if_pos hSmall]
    exact roundsTo_of_small hSmall
  · rw [if_neg hSmall, value_eq_div]
    exact f.nearestRatio_roundsTo _ (tenPow_pos _)

theorem nearest_eq_iff {d : Decimal} {m : Nat} :
    d.nearest f = m ↔ f.RoundsTo (d.value * twoPow f.scale) m := by
  have hRounds := d.nearest_roundsTo (f := f)
  constructor
  · rintro rfl
    exact hRounds
  · exact hRounds.unique

/-- Decimals of one value round alike. -/
theorem nearest_congr {d d' : Decimal} (h : d.value = d'.value) : d.nearest f = d'.nearest f := by
  rw [nearest_eq_iff, h]
  exact d'.nearest_roundsTo

/-! ## The shortest decimal -/

theorem value_strip (d : Decimal) : d.strip.value = d.value := by
  induction d using strip.induct with
  | case1 d h ih =>
      have hZeros := value_zeros (d.coefficient / 10) 1 d.exponent
      rw [pow_one, Nat.div_mul_cancel (Nat.dvd_of_mod_eq_zero h.2)] at hZeros
      rw [strip, dif_pos h, ih]
      exact hZeros.symm
  | case2 d h => rw [strip, dif_neg h]

theorem nearest_of_selectOn? {tie : Tie} {magnitude num den : Nat} {exponent : Int} {d : Decimal}
    (h : selectOn? f tie magnitude num den exponent = some d) : d.nearest f = magnitude := by
  unfold selectOn? at h
  simp only at h
  split at h
  · next hLower =>
      split at h
      · next hUpper => exact Option.some.inj h ▸ hUpper.1
      · exact Option.some.inj h ▸ hLower
  · split at h
    · next hUpper => exact Option.some.inj h ▸ hUpper
    · cases h

/-- The value of a pattern is a decimal. -/
theorem value_units (f : FloatWidth) (m : Nat) :
    (⟨f.units m * Nat.pow 5 f.scale, -f.scale⟩ : Decimal).value * twoPow f.scale = f.units m := by
  have hTen : (10 : ℚ) ^ f.scale = 2 ^ f.scale * 5 ^ f.scale := by
    rw [← mul_pow]
    norm_num
  have hTwo : ((twoPow f.scale : Nat) : ℚ) = 2 ^ f.scale := Nat.cast_pow 2 f.scale
  have hFive : ((Nat.pow 5 f.scale : Nat) : ℚ) = 5 ^ f.scale := Nat.cast_pow 5 f.scale
  rw [value, Nat.cast_mul, hFive, hTwo, zpow_neg, zpow_natCast, hTen]
  field_simp

/-- **The shortest decimal of a finite pattern rounds back to the pattern.** -/
theorem nearest_shortest (tie : Tie) {m : Nat} (hFinite : m < f.infinity) :
    (shortest f tie m).nearest f = m := by
  unfold shortest
  simp only
  rw [nearest_congr (value_strip _)]
  generalize hFound : List.findSome? _ _ = found
  cases found with
  | none =>
      rw [Option.getD_none, nearest_eq_iff, value_units]
      exact .units (Nat.le_of_lt hFinite)
  | some d =>
      obtain ⟨dropped, -, hSelect⟩ := List.exists_of_findSome?_eq_some hFound
      exact nearest_of_selectOn? hSelect

end Decimal

end WidthExact
