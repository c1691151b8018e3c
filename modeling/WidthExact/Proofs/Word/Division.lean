import WidthExact.Proofs.Word.Readings
import WidthExact.Word.Division

/-!
# Divisions as divisions of readings

On a divisor that is not zero, each division is that of the readings of its operands, wrapped once:
rounded toward zero and toward negative infinity on the signed readings, and on the unsigned ones. The
floor family is computed from the other by one step where the remainder and the divisor have
different signs. The remainder rounded toward zero is always in range, so the step is decided on its
true value.

## Main results

* `squot_eq`, `srem_eq`, `sdiv_eq`, `smod_eq`, `udiv_eq`, `umod_eq` — the six divisions.
-/

namespace WidthExact.Word

variable {w : IntWidth}

/-! ## Integers -/

/-- A remainder rounded toward zero is less than its divisor, signs apart. -/
theorem tmod_bounds (a b : Int) :
    (0 < b → -b < a.tmod b ∧ a.tmod b < b) ∧ (b < 0 → b < a.tmod b ∧ a.tmod b < -b) := by
  constructor
  · intro hPos
    exact ⟨Int.lt_tmod_of_pos a hPos, Int.tmod_lt_of_pos a hPos⟩
  · intro hNeg
    have hPos : 0 < -b := by omega
    have hLow := Int.lt_tmod_of_pos a hPos
    have hHigh := Int.tmod_lt_of_pos a hPos
    rw [Int.tmod_neg] at hLow hHigh
    omega

/-- Rounding toward negative infinity goes one step further than rounding toward zero, where there is
a remainder whose sign is not that of the divisor. -/
theorem fdiv_fmod_eq (a : Int) {b : Int} (hb : b ≠ 0) :
    a.fdiv b = (if a.tmod b ≠ 0 ∧ ¬(a.tmod b < 0 ↔ b < 0) then a.tdiv b - 1 else a.tdiv b) ∧
      a.fmod b = (if a.tmod b ≠ 0 ∧ ¬(a.tmod b < 0 ↔ b < 0) then a.tmod b + b else a.tmod b) := by
  have hBounds := tmod_bounds a b
  have hSum := Int.tmod_add_mul_tdiv a b
  have hStep : b * (a.tdiv b - 1) = b * a.tdiv b - b := by rw [Int.mul_sub, Int.mul_one]
  rcases Int.lt_or_gt_of_ne hb with hNeg | hPos
  · rw [Int.fdiv_fmod_unique' hNeg]
    split <;> omega
  · rw [Int.fdiv_fmod_unique hPos]
    split <;> omega

/-! ## Signed readings -/

theorem squot_eq (x : Word w) {y : Word w} (hy : y ≠ zero) :
    x.squot y = .ok (ofSigned (x.signed.tdiv y.signed)) := if_neg hy

theorem srem_eq (x : Word w) {y : Word w} (hy : y ≠ zero) :
    x.srem y = .ok (ofSigned (x.signed.tmod y.signed)) := if_neg hy

/-- The remainder needs no wrapping. -/
theorem signed_ofSigned_tmod (x : Word w) {y : Word w} (hy : y ≠ zero) :
    (ofSigned (x.signed.tmod y.signed) : Word w).signed = x.signed.tmod y.signed := by
  have hDivisor := signed_ne_zero hy
  have hBounds := tmod_bounds x.signed y.signed
  have hLow := y.le_two_mul_signed
  have hHigh := y.two_mul_signed_lt
  rcases Int.lt_or_gt_of_ne hDivisor with hNeg | hPos
  · have hRemainder := hBounds.2 hNeg
    exact signed_ofSigned (by omega) (by omega)
  · have hRemainder := hBounds.1 hPos
    exact signed_ofSigned (by omega) (by omega)

theorem needsFloorStep_eq (x : Word w) {y : Word w} (hy : y ≠ zero) :
    needsFloorStep (ofSigned (x.signed.tmod y.signed)) y =
      decide (x.signed.tmod y.signed ≠ 0 ∧ ¬(x.signed.tmod y.signed < 0 ↔ y.signed < 0)) := by
  have hRemainder := signed_ofSigned_tmod x hy
  have hZero : (ofSigned (x.signed.tmod y.signed) : Word w) = zero ↔ x.signed.tmod y.signed = 0 := by
    rw [← signed_eq_zero_iff, hRemainder]
  rw [needsFloorStep, isNegative_eq, isNegative_eq, hRemainder]
  simp only [ne_eq, hZero, decide_eq_decide, Bool.decide_and]

theorem sdiv_eq (x : Word w) {y : Word w} (hy : y ≠ zero) :
    x.sdiv y = .ok (ofSigned (x.signed.fdiv y.signed)) := by
  have hDivisor := signed_ne_zero hy
  rw [sdiv, squot_eq x hy, srem_eq x hy]
  show Except.ok _ = Except.ok _
  rw [needsFloorStep_eq x hy, one_eq_ofSigned, sub_ofSigned, (fdiv_fmod_eq x.signed hDivisor).1,
    apply_ite (ofSigned (w := w))]
  simp only [decide_eq_true_eq]

theorem smod_eq (x : Word w) {y : Word w} (hy : y ≠ zero) :
    x.smod y = .ok (ofSigned (x.signed.fmod y.signed)) := by
  have hDivisor := signed_ne_zero hy
  have hAdd : (ofSigned (x.signed.tmod y.signed)).add y =
      ofSigned (x.signed.tmod y.signed + y.signed) := by
    rw [← add_ofSigned, ofSigned_signed]
  rw [smod, srem_eq x hy]
  show Except.ok _ = Except.ok _
  rw [needsFloorStep_eq x hy, hAdd, (fdiv_fmod_eq x.signed hDivisor).2,
    apply_ite (ofSigned (w := w))]
  simp only [decide_eq_true_eq]

/-! ## Unsigned readings -/

theorem udiv_eq (x : Word w) {y : Word w} (hy : y ≠ zero) :
    x.udiv y = .ok (ofSigned ((x.unsigned : Int) / y.unsigned)) := by
  rw [udiv, if_neg hy, ← ofSigned_natCast, Int.natCast_ediv]

theorem umod_eq (x : Word w) {y : Word w} (hy : y ≠ zero) :
    x.umod y = .ok (ofSigned ((x.unsigned : Int) % y.unsigned)) := by
  rw [umod, if_neg hy, ← ofSigned_natCast, Int.natCast_emod]

end WidthExact.Word
