import Mathlib.Data.Rat.Floor
import WidthExact.Proofs.Word.Division

/-!
# Division rounded toward negative infinity

`Word.sdiv` and `Word.smod` correct a quotient rounded toward zero and its remainder by one step of
wraparound arithmetic. Their signed readings are the floor of the rational quotient and what it leaves
all the same. The step is taken only where a remainder is left over, and then the truncated quotient
is smaller than the dividend and the remainder has not the sign of the divisor, so that neither the
decrement nor the correction can wrap. What does wrap is the quotient of the least word by `-1`, which
no step touches.

## Main results

* `floorQuotient_eq` — the floor of the rational quotient is the floored quotient of integers.
* `signed_sub_one`, `signed_add_divisor` — the step does not wrap.
* `QuotientRange.signed_ofSigned_eq_iff` — the one quotient that wraps.
* `floor_division` — quotient, remainder and step together.
-/

namespace WidthExact.Word

variable {w : IntWidth}

/-- The quotient of the signed readings as a rational number, rounded toward negative infinity. -/
def floorQuotient (x y : Word w) : Int := ⌊(x.signed : ℚ) / y.signed⌋

/-! ## Integers -/

/-- What `Int.fdiv` and `Int.fmod` are: the remainder lies between zero and the divisor. -/
theorem fdiv_fmod_bounds (a : Int) {b : Int} (hb : b ≠ 0) :
    a.fmod b + b * a.fdiv b = a ∧
      (0 < b ∧ 0 ≤ a.fmod b ∧ a.fmod b < b ∨ b < 0 ∧ b < a.fmod b ∧ a.fmod b ≤ 0) := by
  rcases Int.lt_or_gt_of_ne hb with hNeg | hPos
  · obtain ⟨hSum, hLow, hHigh⟩ := (Int.fdiv_fmod_unique' hNeg).mp ⟨rfl, rfl⟩
    exact ⟨hSum, .inr ⟨hNeg, hLow, hHigh⟩⟩
  · obtain ⟨hSum, hLow, hHigh⟩ := (Int.fdiv_fmod_unique hPos).mp ⟨rfl, rfl⟩
    exact ⟨hSum, .inl ⟨hPos, hLow, hHigh⟩⟩

theorem floor_div_eq_fdiv (a : Int) {b : Int} (hb : b ≠ 0) : ⌊(a : ℚ) / b⌋ = a.fdiv b := by
  obtain ⟨hSum, hBounds⟩ := fdiv_fmod_bounds a hb
  have hSum' : (a.fmod b : ℚ) + b * a.fdiv b = a := by exact_mod_cast hSum
  rw [Int.floor_eq_iff]
  rcases hBounds with ⟨hPos, hLow, hHigh⟩ | ⟨hNeg, hLow, hHigh⟩
  · have hPos' : (0 : ℚ) < b := by exact_mod_cast hPos
    have hLow' : (0 : ℚ) ≤ a.fmod b := by exact_mod_cast hLow
    have hHigh' : (a.fmod b : ℚ) < b := by exact_mod_cast hHigh
    rw [le_div_iff₀ hPos', div_lt_iff₀ hPos']
    constructor <;> linarith
  · have hNeg' : (b : ℚ) < 0 := by exact_mod_cast hNeg
    have hLow' : (b : ℚ) < a.fmod b := by exact_mod_cast hLow
    have hHigh' : (a.fmod b : ℚ) ≤ 0 := by exact_mod_cast hHigh
    rw [le_div_iff_of_neg hNeg', div_lt_iff_of_neg hNeg']
    constructor <;> linarith

/-- A quotient rounded toward zero is no greater than its dividend, and at most half of it unless the
divisor is `1` or `-1`. -/
theorem natAbs_tdiv_le (a : Int) {b : Int} (hb : b ≠ 0) :
    b = 1 ∨ b = -1 ∨ 2 * (a.tdiv b).natAbs ≤ a.natAbs := by
  by_cases hUnit : b.natAbs < 2
  · omega
  · have hAbs : (a.tdiv b).natAbs = a.natAbs / b.natAbs := Int.natAbs_tdiv a b
    have hHalf : a.natAbs / b.natAbs ≤ a.natAbs / 2 :=
      Nat.div_le_div_left (Nat.not_lt.mp hUnit) (by decide)
    omega

/-- Where a remainder is left, the quotient is at most half of its dividend. -/
theorem natAbs_tdiv_le_of_tmod_ne_zero {a b : Int} (hb : b ≠ 0) (hRest : a.tmod b ≠ 0) :
    2 * (a.tdiv b).natAbs ≤ a.natAbs := by
  rcases natAbs_tdiv_le a hb with rfl | rfl | hHalf
  · exact absurd (Int.tmod_one a) hRest
  · rw [Int.tmod_neg] at hRest
    exact absurd (Int.tmod_one a) hRest
  · exact hHalf

/-! ## Quotients -/

/-- Where a quotient `q` of `x` by `y` lies: in the signed range, or just above it if it is the one of
the least word by `-1`. -/
def QuotientRange (x y : Word w) (q : Int) : Prop :=
  (x.signed = -2 ^ (w.bits - 1) ∧ y.signed = -1 ∧ q = 2 ^ (w.bits - 1)) ∨
    ¬ (x.signed = -2 ^ (w.bits - 1) ∧ y.signed = -1) ∧
      -(2 ^ w.bits : Int) ≤ 2 * q ∧ 2 * q < 2 ^ w.bits

/-- All quotients but that one are kept by their words. -/
theorem QuotientRange.signed_ofSigned_eq_iff {x y : Word w} {q : Int} (h : QuotientRange x y q) :
    (ofSigned q : Word w).signed = q ↔ ¬ (x.signed = -2 ^ (w.bits - 1) ∧ y.signed = -1) := by
  have hPow := two_mul_two_pow_pred w
  rcases h with ⟨hx, hMinusOne, hQuotient⟩ | ⟨hNot, hLow, hHigh⟩
  · refine iff_of_false (fun hKept => ?_) (not_not.mpr ⟨hx, hMinusOne⟩)
    have hBound := (ofSigned q : Word w).two_mul_signed_lt
    omega
  · exact iff_of_true (signed_ofSigned hLow hHigh) hNot

/-- The division identity of integers is one of words, whether or not the quotient wraps. -/
theorem mul_add_ofSigned {x y : Word w} {q r : Int} (hSum : r + y.signed * q = x.signed) :
    ((ofSigned q).mul y).add (ofSigned r) = x := by
  have hProduct : (ofSigned q : Word w).mul y = ofSigned (q * y.signed) := by
    rw [← mul_ofSigned, ofSigned_signed]
  rw [hProduct, add_ofSigned, Int.mul_comm, Int.add_comm, hSum, ofSigned_signed]

section

variable (x : Word w) {y : Word w} (hy : y ≠ zero)

include hy

theorem floorQuotient_eq : floorQuotient x y = x.signed.fdiv y.signed :=
  floor_div_eq_fdiv x.signed (signed_ne_zero hy)

/-- Where a remainder is left, the quotient and the one below it are in range. -/
theorem signed_sub_one (hRest : x.signed.tmod y.signed ≠ 0) :
    ((ofSigned (x.signed.tdiv y.signed) : Word w).sub one).signed =
      (ofSigned (x.signed.tdiv y.signed) : Word w).signed - 1 := by
  have hHalf := natAbs_tdiv_le_of_tmod_ne_zero (signed_ne_zero hy) hRest
  have hLow := x.le_two_mul_signed
  have hHigh := x.two_mul_signed_lt
  have hWide := four_le_two_pow w
  rw [one_eq_ofSigned, sub_ofSigned, signed_ofSigned (by omega) (by omega),
    signed_ofSigned (by omega) (by omega)]

/-- A remainder whose sign is not that of the divisor can be added to it. -/
theorem signed_add_divisor (hSigns : ¬ (x.signed.tmod y.signed < 0 ↔ y.signed < 0)) :
    ((ofSigned (x.signed.tmod y.signed) : Word w).add y).signed =
      (ofSigned (x.signed.tmod y.signed) : Word w).signed + y.signed := by
  have hDivisor := signed_ne_zero hy
  have hBounds := tmod_bounds x.signed y.signed
  have hLow := y.le_two_mul_signed
  have hHigh := y.two_mul_signed_lt
  have hSum : (ofSigned (x.signed.tmod y.signed) : Word w).add y =
      ofSigned (x.signed.tmod y.signed + y.signed) := by
    rw [← add_ofSigned, ofSigned_signed]
  rw [hSum, signed_ofSigned_tmod x hy]
  by_cases hNeg : y.signed < 0
  · exact signed_ofSigned (by omega) (by omega)
  · exact signed_ofSigned (by omega) (by omega)

/-- The quotient rounded toward zero. -/
theorem quotientRange_tdiv : QuotientRange x y (x.signed.tdiv y.signed) := by
  have hLow := x.le_two_mul_signed
  have hHigh := x.two_mul_signed_lt
  have hPow := two_mul_two_pow_pred w
  have hWide := four_le_two_pow w
  unfold QuotientRange
  rcases natAbs_tdiv_le x.signed (signed_ne_zero hy) with hOne | hMinusOne | hHalf
  · rw [hOne, Int.tdiv_one]
    exact .inr (by omega)
  · rw [hMinusOne, Int.tdiv_neg, Int.tdiv_one]
    omega
  · by_cases hLeast : x.signed = -2 ^ (w.bits - 1) ∧ y.signed = -1
    · rw [hLeast.1, hLeast.2, Int.tdiv_neg, Int.tdiv_one]
      exact .inl ⟨rfl, rfl, Int.neg_neg _⟩
    · exact .inr ⟨hLeast, by omega⟩

/-- Where a remainder is left, the floor is that quotient or the one below it. -/
theorem quotientRange_floorQuotient : QuotientRange x y (floorQuotient x y) := by
  have hDivisor := signed_ne_zero hy
  have hLow := x.le_two_mul_signed
  have hHigh := x.two_mul_signed_lt
  have hWide := four_le_two_pow w
  rw [floorQuotient_eq x hy, (fdiv_fmod_eq x.signed hDivisor).1]
  by_cases hRest : x.signed.tmod y.signed = 0
  · rw [if_neg (fun h => h.1 hRest)]
    exact quotientRange_tdiv x hy
  · have hHalf := natAbs_tdiv_le_of_tmod_ne_zero hDivisor hRest
    refine .inr ⟨?_, ?_⟩
    · rintro ⟨-, hMinusOne⟩
      rw [hMinusOne, Int.tmod_neg] at hRest
      exact hRest (Int.tmod_one _)
    · split <;> omega

/-- The remainder has the range of the divisor, so its word keeps it. -/
theorem signed_ofSigned_fmod :
    (ofSigned (x.signed.fmod y.signed) : Word w).signed = x.signed.fmod y.signed := by
  have hLow := y.le_two_mul_signed
  have hHigh := y.two_mul_signed_lt
  rcases (fdiv_fmod_bounds x.signed (signed_ne_zero hy)).2 with hBounds | hBounds
  · exact signed_ofSigned (by omega) (by omega)
  · exact signed_ofSigned (by omega) (by omega)

end

/-! ## The division -/

/-- `d` and `m` are quotient and remainder of `x` by `y`, rounded toward negative infinity. -/
structure IsFloorDivision (x y d m : Word w) : Prop where
  /-- The remainder is what the floor of the rational quotient leaves. -/
  remainder : m.signed = x.signed - y.signed * floorQuotient x y
  sign : m.signed = 0 ∨ m.signed.sign = y.signed.sign
  bound : |m.signed| < |y.signed|
  /-- The quotient is that floor, reduced into the signed range. -/
  quotient : d.signed = (floorQuotient x y).bmod (2 ^ w.bits)
  reduced_iff : d.signed ≠ floorQuotient x y ↔
    x.signed = -2 ^ (w.bits - 1) ∧ y.signed = -1
  identity : (d.mul y).add m = x

theorem isFloorDivision (x : Word w) {y : Word w} (hy : y ≠ zero) :
    IsFloorDivision x y (ofSigned (x.signed.fdiv y.signed)) (ofSigned (x.signed.fmod y.signed)) := by
  obtain ⟨hSum, hBounds⟩ := fdiv_fmod_bounds x.signed (signed_ne_zero hy)
  have hRemainder := signed_ofSigned_fmod x hy
  have hFloor := floorQuotient_eq x hy
  refine ⟨?_, ?_, ?_, ?_, ?_, ?_⟩
  · rw [hRemainder, hFloor]
    omega
  · rw [hRemainder]
    rcases hBounds with ⟨hPos, hLow, -⟩ | ⟨hNeg, -, hHigh⟩
    · rcases eq_or_lt_of_le hLow with hZero | hAbove
      · exact .inl hZero.symm
      · exact .inr (by rw [Int.sign_eq_one_of_pos hAbove, Int.sign_eq_one_of_pos hPos])
    · rcases eq_or_lt_of_le hHigh with hZero | hBelow
      · exact .inl hZero
      · exact .inr (by rw [Int.sign_eq_neg_one_of_neg hBelow, Int.sign_eq_neg_one_of_neg hNeg])
  · rw [hRemainder, abs_lt]
    rcases hBounds with ⟨hPos, hLow, hHigh⟩ | ⟨hNeg, hLow, hHigh⟩
    · rw [abs_of_pos hPos]
      omega
    · rw [abs_of_neg hNeg]
      omega
  · rw [hFloor]
    exact BitVec.toInt_ofInt _
  · rw [← hFloor]
    exact not_iff_comm.mp (quotientRange_floorQuotient x hy).signed_ofSigned_eq_iff.symm
  · exact mul_add_ofSigned hSum

/-- **Division rounded toward negative infinity is exact.** By a divisor other than zero, the quotient
and the remainder are those of the floor of the rational quotient, reduced into the signed range; the
remainder needs no reduction, and the quotient only of the least word by `-1`. They are computed from
the quotient and remainder rounded toward zero, of which the one is decremented and the divisor added
to the other where `needsFloorStep` says so, and neither wraps then. -/
theorem floor_division (x : Word w) {y : Word w} (hy : y ≠ zero) :
    ∃ d m, x.sdiv y = .ok d ∧ x.smod y = .ok m ∧ IsFloorDivision x y d m ∧
      ∃ q r, x.squot y = .ok q ∧ x.srem y = .ok r ∧
        (needsFloorStep r y = false → d = q ∧ m = r) ∧
        (needsFloorStep r y = true → d = q.sub one ∧ (q.sub one).signed = q.signed - 1 ∧
          m = r.add y ∧ (r.add y).signed = r.signed + y.signed) := by
  refine ⟨_, _, x.sdiv_eq hy, x.smod_eq hy, isFloorDivision x hy, _, _, x.squot_eq hy,
    x.srem_eq hy, ?_, ?_⟩
  · intro hNo
    rw [needsFloorStep_eq x hy, decide_eq_false_iff_not] at hNo
    obtain ⟨hQuotient, hRemainder⟩ := fdiv_fmod_eq x.signed (signed_ne_zero hy)
    rw [hQuotient, hRemainder, if_neg hNo, if_neg hNo]
    exact ⟨rfl, rfl⟩
  · intro hYes
    rw [needsFloorStep_eq x hy, decide_eq_true_iff] at hYes
    obtain ⟨hQuotient, hRemainder⟩ := fdiv_fmod_eq x.signed (signed_ne_zero hy)
    rw [hQuotient, hRemainder, if_pos hYes, if_pos hYes]
    refine ⟨?_, signed_sub_one x hy hYes.1, ?_, signed_add_divisor x hy hYes.2⟩
    · rw [one_eq_ofSigned, sub_ofSigned]
    · rw [← add_ofSigned, ofSigned_signed]

/-- The least word of 64 bits by `-1`, where the quotient wraps, and `-7` by `2` in a byte, where the
step is taken. -/
theorem floor_division_least_by_minus_one :
    (∃ d m, (ofSigned (-2 ^ 63) : Word .w64).sdiv (ofSigned (-1)) = .ok d ∧
      d.signed ≠ floorQuotient (ofSigned (-2 ^ 63) : Word .w64) (ofSigned (-1)) ∧
      (ofSigned (-2 ^ 63) : Word .w64).smod (ofSigned (-1)) = .ok m ∧
      (d.mul (ofSigned (-1))).add m = ofSigned (-2 ^ 63)) ∧
    ∃ q, (ofSigned (-7) : Word .w8).squot (ofSigned 2) = .ok q ∧
      (q.sub one).signed = q.signed - 1 := by
  obtain ⟨d, m, hQuotient, hRemainder, hDivision, -⟩ :=
    floor_division (ofSigned (-2 ^ 63) : Word .w64) (y := ofSigned (-1)) (by decide)
  obtain ⟨_, _, _, _, _, q, r, hTruncated, hRest, _, hStep⟩ :=
    floor_division (ofSigned (-7) : Word .w8) (y := ofSigned 2) (by decide)
  refine ⟨⟨d, m, hQuotient, hDivision.reduced_iff.mpr (by decide), hRemainder,
    hDivision.identity⟩, q, hTruncated, ?_⟩
  have hRest' : r = ofSigned (-1) := Except.ok.inj (hRest.symm.trans (by decide))
  subst hRest'
  exact (hStep (by decide)).2.1

end WidthExact.Word
