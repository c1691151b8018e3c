import WidthExact.Proofs.Truncated
import WidthExact.Proofs.Word.Floor
import WidthExact.Word.Order

/-!
# Division rounded toward zero, and without signs

`Word.squot` and `Word.srem` divide the signed readings of their operands and round toward zero,
`Word.udiv` and `Word.umod` divide the unsigned ones. All four are exact at every width: no quotient is
taken through a format that holds fewer than its digits.

What is computed on readings is carried as a pattern again. A remainder is less than its divisor, so
that its word holds it in both families, and so does that of an unsigned quotient, which is no greater
than its dividend. A quotient rounded toward zero goes beyond its dividend in one case, the least word
by `-1`, where it is the least word again.

## Main results

* `truncatedQuotient_eq` — the rational quotient rounded toward zero is the truncated one of integers.
* `quotientRange_truncatedQuotient` — one quotient wraps.
* `isTruncatedDivision`, `isUnsignedDivision` — the two families.
* `exact_division` — both, on any divisor but zero.
-/

namespace WidthExact.Word

variable {w : IntWidth}

/-- The quotient of the signed readings as a rational number, rounded toward zero. -/
def truncatedQuotient (x y : Word w) : Int := truncated ((x.signed : ℚ) / y.signed)

/-- The quotient of the unsigned readings as a rational number, rounded down. -/
def unsignedQuotient (x y : Word w) : Int := ⌊(x.unsigned : ℚ) / y.unsigned⌋

/-! ## Integers -/

/-- Rounding toward zero and rounding down are the same where the signs agree. -/
theorem tdiv_eq_fdiv_of_signs {a b : Int} (hSigns : 0 ≤ a ∧ 0 ≤ b ∨ a ≤ 0 ∧ b ≤ 0) :
    a.tdiv b = a.fdiv b := by
  rcases hSigns with ⟨ha, hb⟩ | ⟨ha, hb⟩
  · exact (Int.fdiv_eq_tdiv_of_nonneg ha hb).symm
  · rw [← Int.neg_fdiv_neg, Int.fdiv_eq_tdiv_of_nonneg (by omega) (by omega), Int.neg_tdiv,
      Int.tdiv_neg, Int.neg_neg]

theorem truncated_div_eq_tdiv (a : Int) {b : Int} (hb : b ≠ 0) :
    truncated ((a : ℚ) / b) = a.tdiv b := by
  rcases le_or_gt 0 ((a : ℚ) / b) with hNonneg | hNegative
  · have hSigns : 0 ≤ a ∧ 0 ≤ b ∨ a ≤ 0 ∧ b ≤ 0 := by exact_mod_cast div_nonneg_iff.mp hNonneg
    rw [truncated_of_nonneg hNonneg, floor_div_eq_fdiv a hb, tdiv_eq_fdiv_of_signs hSigns]
  · -- The opposite of the dividend has a quotient that is rounded down.
    have hSigns : 0 < a ∧ b < 0 ∨ a < 0 ∧ 0 < b := by exact_mod_cast div_neg_iff.mp hNegative
    have hOpposite : (a : ℚ) / b = -(((-a : Int) : ℚ) / b) := by
      rw [Int.cast_neg, neg_div, neg_neg]
    have hNonneg : 0 ≤ ((-a : Int) : ℚ) / b := by linarith
    rw [hOpposite, truncated_neg hNonneg, floor_div_eq_fdiv (-a) hb,
      ← tdiv_eq_fdiv_of_signs (by omega), Int.neg_tdiv, Int.neg_neg]

/-- A remainder of division toward zero has the sign of the dividend, if it has one. -/
theorem tmod_eq_zero_or_sign_eq (a b : Int) : a.tmod b = 0 ∨ (a.tmod b).sign = a.sign := by
  by_cases hDivides : b ∣ a
  · exact .inl (Int.tmod_eq_zero_of_dvd hDivides)
  · exact .inr (by rw [Int.sign_tmod, if_neg hDivides])

theorem abs_tmod_lt (a : Int) {b : Int} (hb : b ≠ 0) : |a.tmod b| < |b| := by
  have hBounds := tmod_bounds a b
  rcases Int.lt_or_gt_of_ne hb with hNeg | hPos
  · rw [abs_of_neg hNeg, abs_lt]
    have hRemainder := hBounds.2 hNeg
    omega
  · rw [abs_of_pos hPos, abs_lt]
    exact hBounds.1 hPos

/-! ## Quotients rounded toward zero -/

section

variable (x : Word w) {y : Word w} (hy : y ≠ zero)

include hy

theorem truncatedQuotient_eq : truncatedQuotient x y = x.signed.tdiv y.signed :=
  truncated_div_eq_tdiv x.signed (signed_ne_zero hy)

theorem quotientRange_truncatedQuotient : QuotientRange x y (truncatedQuotient x y) := by
  rw [truncatedQuotient_eq x hy]
  exact quotientRange_tdiv x hy

end

/-- `q` and `r` are quotient and remainder of `x` by `y`, rounded toward zero. -/
structure IsTruncatedDivision (x y q r : Word w) : Prop where
  /-- The remainder is what the truncated rational quotient leaves. -/
  remainder : r.signed = x.signed - y.signed * truncatedQuotient x y
  sign : r.signed = 0 ∨ r.signed.sign = x.signed.sign
  bound : |r.signed| < |y.signed|
  /-- The quotient is the truncated one, reduced into the signed range. -/
  quotient : q.signed = (truncatedQuotient x y).bmod (2 ^ w.bits)
  reduced_iff : q.signed ≠ truncatedQuotient x y ↔
    x.signed = -2 ^ (w.bits - 1) ∧ y.signed = -1
  /-- What it is reduced to is the dividend. -/
  least : x.signed = -2 ^ (w.bits - 1) → y.signed = -1 → q = x ∧ r = zero
  identity : (q.mul y).add r = x

theorem isTruncatedDivision (x : Word w) {y : Word w} (hy : y ≠ zero) :
    IsTruncatedDivision x y (ofSigned (x.signed.tdiv y.signed))
      (ofSigned (x.signed.tmod y.signed)) := by
  have hSum := Int.tmod_add_mul_tdiv x.signed y.signed
  have hRemainder := signed_ofSigned_tmod x hy
  have hQuotient := truncatedQuotient_eq x hy
  refine ⟨?_, ?_, ?_, ?_, ?_, fun hLeast hMinusOne => ⟨?_, ?_⟩, ?_⟩
  · rw [hRemainder, hQuotient]
    omega
  · rw [hRemainder]
    exact tmod_eq_zero_or_sign_eq x.signed y.signed
  · rw [hRemainder]
    exact abs_tmod_lt x.signed (signed_ne_zero hy)
  · rw [hQuotient]
    exact signed_ofSigned_bmod _
  · rw [← hQuotient]
    exact not_iff_comm.mp (quotientRange_truncatedQuotient x hy).signed_ofSigned_eq_iff.symm
  · have hx : x = ofSigned (-2 ^ (w.bits - 1)) := by rw [← hLeast, ofSigned_signed]
    rw [hMinusOne, Int.tdiv_neg, Int.tdiv_one, hx]
    cases w <;> decide
  · rw [hMinusOne, Int.tmod_neg, Int.tmod_one, zero_eq_ofSigned]
  · exact mul_add_ofSigned hSum

/-! ## Quotients without signs -/

/-- `q` and `r` are quotient and remainder of `x` by `y` without signs. -/
structure IsUnsignedDivision (x y q r : Word w) : Prop where
  quotient : (q.unsigned : Int) = unsignedQuotient x y
  /-- The readings satisfy the division identity as numbers, not only as residues. -/
  remainder : y.unsigned * q.unsigned + r.unsigned = x.unsigned
  below : r.ult y = true
  identity : (q.mul y).add r = x

theorem isUnsignedDivision (x : Word w) {y : Word w} (hy : y ≠ zero) :
    IsUnsignedDivision x y (ofUnsigned (x.unsigned / y.unsigned))
      (ofUnsigned (x.unsigned % y.unsigned)) := by
  have hPos : 0 < y.unsigned := Nat.pos_of_ne_zero (mt y.unsigned_eq_zero_iff.mp hy)
  have hLess : x.unsigned % y.unsigned < y.unsigned := Nat.mod_lt _ hPos
  have hQuotient : (ofUnsigned (x.unsigned / y.unsigned) : Word w).unsigned =
      x.unsigned / y.unsigned :=
    unsigned_ofUnsigned ((Nat.div_le_self _ _).trans_lt x.isLt)
  have hRemainder : (ofUnsigned (x.unsigned % y.unsigned) : Word w).unsigned =
      x.unsigned % y.unsigned :=
    unsigned_ofUnsigned (hLess.trans y.isLt)
  have hSum := Nat.div_add_mod x.unsigned y.unsigned
  refine ⟨?_, ?_, ?_, ?_⟩
  · rw [hQuotient, unsignedQuotient, Rat.floor_natCast_div_natCast]
    rfl
  · rw [hQuotient, hRemainder, hSum]
  · rw [ult, hRemainder]
    exact decide_eq_true hLess
  · have hProduct : (ofUnsigned (x.unsigned / y.unsigned) : Word w).mul y =
        ofSigned ((x.unsigned / y.unsigned : Nat) * y.unsigned) := by
      rw [← ofSigned_natCast, ← mul_ofSigned, ofSigned_unsigned]
    have hSum' : ((x.unsigned / y.unsigned : Nat) * y.unsigned +
        (x.unsigned % y.unsigned : Nat) : Int) = x.unsigned := by
      rw [Int.mul_comm]
      exact_mod_cast hSum
    rw [hProduct, ← ofSigned_natCast, add_ofSigned, hSum', ofSigned_unsigned]

/-! ## The division -/

/-- **Truncating and unsigned division are exact at every width.** By a divisor other than zero there
is a quotient and a remainder in both families. Toward zero they are those of the signed readings; the
remainder has the sign of the dividend, and of all quotients the one of the least word by `-1` is
reduced. Without signs they are those of the unsigned readings, and nothing is reduced. In both
families the dividend is put together again by wraparound arithmetic. -/
theorem exact_division (x : Word w) {y : Word w} (hy : y ≠ zero) :
    (∃ q r, x.squot y = .ok q ∧ x.srem y = .ok r ∧ IsTruncatedDivision x y q r) ∧
      ∃ q r, x.udiv y = .ok q ∧ x.umod y = .ok r ∧ IsUnsignedDivision x y q r :=
  ⟨⟨_, _, x.squot_eq hy, x.srem_eq hy, isTruncatedDivision x hy⟩,
    ⟨_, _, if_neg hy, if_neg hy, isUnsignedDivision x hy⟩⟩

/-- The least word of 64 bits by `-1`: toward zero the quotient wraps to the dividend, and without
signs the dividend is below the divisor. -/
theorem exact_division_least_by_minus_one :
    (ofSigned (-2 ^ 63) : Word .w64).squot (ofSigned (-1)) = .ok (ofSigned (-2 ^ 63)) ∧
      (ofSigned (-2 ^ 63) : Word .w64).srem (ofSigned (-1)) = .ok zero ∧
      ∃ q r, (ofSigned (-2 ^ 63) : Word .w64).udiv (ofSigned (-1)) = .ok q ∧
        (ofSigned (-2 ^ 63) : Word .w64).umod (ofSigned (-1)) = .ok r ∧
        (q.mul (ofSigned (-1))).add r = ofSigned (-2 ^ 63) := by
  obtain ⟨⟨q, r, hQuotient, hRemainder, hSigned⟩, q', r', hQuotient', hRemainder', hUnsigned⟩ :=
    exact_division (ofSigned (-2 ^ 63) : Word .w64) (y := ofSigned (-1)) (by decide)
  obtain ⟨rfl, rfl⟩ := hSigned.least (by decide) (by decide)
  exact ⟨hQuotient, hRemainder, q', r', hQuotient', hRemainder', hUnsigned.identity⟩

end WidthExact.Word
