import Mathlib.Data.Rat.Floor

/-!
# Numbers rounded toward zero

The integer that is left of a rational number when its fraction is dropped: the floor of a number that
is not negative, and the ceiling of a negative one.

## Main results

* `truncated_of_nonneg`, `truncated_neg` — the two signs.
* `truncated_bounds` — the result lies between the number and zero.
-/

namespace WidthExact

/-- A number rounded toward zero. -/
def truncated (q : ℚ) : Int := if q < 0 then ⌈q⌉ else ⌊q⌋

theorem truncated_of_nonneg {q : ℚ} (hq : 0 ≤ q) : truncated q = ⌊q⌋ := if_neg (not_lt.mpr hq)

theorem truncated_neg {q : ℚ} (hq : 0 ≤ q) : truncated (-q) = -⌊q⌋ := by
  unfold truncated
  split
  · exact Int.ceil_neg
  · next hNonneg =>
      obtain rfl : q = 0 := by linarith
      rw [neg_zero, Int.floor_zero, neg_zero]

theorem truncated_intCast (n : Int) : truncated n = n := by
  unfold truncated
  split
  · exact Int.ceil_intCast n
  · exact Int.floor_intCast n

/-- Truncation does not go beyond zero, nor away from it. -/
theorem truncated_bounds (q : ℚ) :
    (0 ≤ q → 0 ≤ truncated q ∧ (truncated q : ℚ) ≤ q) ∧
      (q ≤ 0 → q ≤ (truncated q : ℚ) ∧ truncated q ≤ 0) := by
  constructor
  · intro hq
    rw [truncated_of_nonneg hq]
    exact ⟨Int.floor_nonneg.mpr hq, Int.floor_le q⟩
  · intro hq
    obtain ⟨p, rfl⟩ : ∃ p, q = -p := ⟨-q, (neg_neg q).symm⟩
    have hp : 0 ≤ p := by linarith
    rw [truncated_neg hp, Int.cast_neg, neg_le_neg_iff, Int.neg_nonpos_iff]
    exact ⟨Int.floor_le p, Int.floor_nonneg.mpr hp⟩

end WidthExact
