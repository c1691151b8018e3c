import Mathlib.Algebra.Order.Ring.Rat
import Mathlib.Data.Int.Cast.Lemmas
import Mathlib.Data.Rat.Floor
import Mathlib.Tactic.Linarith

/-!
# Numbers rounded to the nearest integer, ties to even

The integer nearest to a rational number, and the even one of the two that are nearest to a number
halfway between them. It is specified and not computed: `IsHalfEven` says of a number and an integer
that they are half of one apart at most, and that the integer is even if they are that far apart.

## Main results

* `IsHalfEven.mono`, `IsHalfEven.unique` — it is a monotone function.
* `IsHalfEven.neg` — and an odd one.
* `IsHalfEven.of_ratio` — for natural numbers.
-/

namespace WidthExact

/-- The integer `n` is the one nearest to `q`, and even if another one is as near. -/
structure IsHalfEven (q : ℚ) (n : Int) : Prop where
  close : |(n : ℚ) - q| ≤ 1 / 2
  even : |(n : ℚ) - q| = 1 / 2 → Even n

namespace IsHalfEven

variable {p q : ℚ} {m n : Int}

/-- The order is kept. Were it turned over, both numbers would be in the middle between two integers
next to each other, which are not both even. -/
theorem mono (hm : IsHalfEven p m) (hn : IsHalfEven q n) (hLe : p ≤ q) : m ≤ n := by
  by_contra hNot
  have hNext : ((n + 1 : Int) : ℚ) ≤ m := by exact_mod_cast not_le.mp hNot
  rw [Int.cast_add, Int.cast_one] at hNext
  obtain ⟨-, hAbove⟩ := abs_le.mp hm.close
  obtain ⟨hBelow, -⟩ := abs_le.mp hn.close
  have hSucc : (m : ℚ) = (n + 1 : Int) := by
    rw [Int.cast_add, Int.cast_one]
    linarith
  have hEven : Even m := hm.even (by rw [abs_of_nonneg] <;> linarith)
  have hEven' : Even n := hn.even (by rw [abs_of_nonpos] <;> linarith)
  rw [Int.cast_injective hSucc] at hEven
  exact (Int.not_even_iff_odd.mpr hEven'.add_one) hEven

theorem unique (hm : IsHalfEven q m) (hn : IsHalfEven q n) : m = n :=
  le_antisymm (hm.mono hn le_rfl) (hn.mono hm le_rfl)

theorem neg (h : IsHalfEven q n) : IsHalfEven (-q) (-n) := by
  have hDistance : |((-n : Int) : ℚ) - -q| = |(n : ℚ) - q| := by
    rw [Int.cast_neg, neg_sub_neg, abs_sub_comm]
  constructor
  · rw [hDistance]
    exact h.close
  · rw [hDistance]
    exact fun hTie => (h.even hTie).neg

/-- An integer is nearest to itself. -/
theorem intCast (n : Int) : IsHalfEven n n := by
  have hDistance : |(n : ℚ) - n| = 0 := by rw [sub_self, abs_zero]
  constructor
  · rw [hDistance]
    exact one_half_pos.le
  · rw [hDistance]
    exact fun hTie => absurd hTie one_half_pos.ne

/-- For a ratio of natural numbers it is told without division. -/
theorem of_ratio {num den n : Nat} (hDen : 0 < den) (hBelow : 2 * num ≤ 2 * (n * den) + den)
    (hAbove : 2 * (n * den) ≤ 2 * num + den)
    (hTie : 2 * num = 2 * (n * den) + den ∨ 2 * (n * den) = 2 * num + den → n % 2 = 0) :
    IsHalfEven ((num : ℚ) / den) (n : Int) := by
  have hDen' : (0 : ℚ) < den := by exact_mod_cast hDen
  have hBelow' : (2 * num : ℚ) ≤ 2 * (n * den) + den := by exact_mod_cast hBelow
  have hAbove' : (2 * (n * den) : ℚ) ≤ 2 * num + den := by exact_mod_cast hAbove
  have hDistance : |((n : Int) : ℚ) - num / den| = |(n * den - num : ℚ)| / den := by
    rw [eq_div_iff hDen'.ne', ← abs_of_pos hDen', ← abs_mul, abs_of_pos hDen', sub_mul,
      div_mul_cancel₀ _ hDen'.ne', Int.cast_natCast]
  constructor
  · rw [hDistance, div_le_iff₀ hDen', abs_le]
    constructor <;> linarith
  · intro hHalf
    rw [hDistance, div_eq_iff hDen'.ne'] at hHalf
    have hMiddle : (2 * num : ℚ) = 2 * (n * den) + den ∨ (2 * (n * den) : ℚ) = 2 * num + den := by
      rcases eq_or_eq_neg_of_abs_eq hHalf with hUp | hDown
      · exact .inr (by linarith)
      · exact .inl (by linarith)
    exact (Int.even_coe_nat n).mpr (Nat.even_iff.mpr (hTie (by exact_mod_cast hMiddle)))

end IsHalfEven

end WidthExact
