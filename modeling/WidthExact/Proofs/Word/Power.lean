import Mathlib.Data.Int.ModEq
import Mathlib.Data.Nat.Size
import WidthExact.Proofs.Word.Readings

/-!
# Powers by repeated squaring

`Word.pow` is a loop over the bits of the exponent. One pass multiplies the accumulator by the base if
the lowest bit is set, squares the base and drops the bit. All products wrap, and a base that is even
has vanished after a few squarings, but the residue of the accumulator times the base's power to what
is left of the exponent is the same after every pass. A pass halves the exponent, so the loop makes as
many passes as the exponent has bits.

The exponent of the loop is the unsigned reading of the word of 64 bits that the operand is
sign-extended to. A negative one would be huge there, but never comes to the loop.

## Main results

* `PowerLoop.power_pass`, `PowerLoop.power_iterate` — what a pass, and a run of them, keeps.
* `PowerLoop.endsAfter_iff` — the number of passes.
* `pow_of_pos`, `pow_of_nonneg` — the power is that of the signed reading, wrapped once.
* `pow_exponentiation` — residue, repeated product, loop and sum of exponents together.
-/

namespace WidthExact.Word

variable {w : IntWidth}

/-! ## The loop -/

/-- What the loop carries from one pass to the next. -/
structure PowerLoop (w : IntWidth) where
  acc : Word w
  base : Word w
  exponent : Nat

namespace PowerLoop

/-- The loop before its first pass, for the power of `x` to `y`. -/
def start (x y : Word w) : PowerLoop w := ⟨one, x, y.signedCarrier.unsigned⟩

/-- One pass. -/
def pass (s : PowerLoop w) : PowerLoop w where
  acc := if s.exponent % 2 = 1 then s.acc.mul s.base else s.acc
  base := s.base.mul s.base
  exponent := s.exponent / 2

/-- The loop makes `n` passes: its exponent is zero after them and not before. -/
def EndsAfter (s : PowerLoop w) (n : Nat) : Prop :=
  (pass^[n] s).exponent = 0 ∧ ∀ k < n, (pass^[k] s).exponent ≠ 0

/-- What the loop is about to compute. -/
def power (s : PowerLoop w) : Word w := mulPower s.acc s.base s.exponent

/-- It is the accumulator times the power of the base, wrapped once. -/
theorem power_eq (s : PowerLoop w) :
    s.power = ofSigned (s.acc.signed * s.base.signed ^ s.exponent) := by
  have hPower := mulPower_ofSigned (w := w) s.acc.signed s.base.signed s.exponent
  rwa [ofSigned_signed, ofSigned_signed] at hPower

theorem power_of_exponent_eq_zero {s : PowerLoop w} (h : s.exponent = 0) : s.power = s.acc := by
  rw [power_eq, h, pow_zero, Int.mul_one, ofSigned_signed]

/-- **No pass changes it.** -/
theorem power_pass (s : PowerLoop w) : s.pass.power = s.power := by
  by_cases hEnd : s.exponent = 0
  · have hOdd : ¬ s.exponent % 2 = 1 := by omega
    have hStays : s.pass.exponent = 0 := by
      show s.exponent / 2 = 0
      omega
    rw [power_of_exponent_eq_zero hEnd, power_of_exponent_eq_zero hStays]
    exact if_neg hOdd
  · have hUnfold : s.power = s.pass.power := by
      unfold power
      rw [mulPower, if_neg hEnd]
      rfl
    exact hUnfold.symm

theorem power_iterate (s : PowerLoop w) (n : Nat) : (pass^[n] s).power = s.power := by
  induction n with
  | zero => rfl
  | succ n ih => rw [Function.iterate_succ_apply', power_pass, ih]

theorem exponent_iterate (s : PowerLoop w) (n : Nat) :
    (pass^[n] s).exponent = s.exponent / 2 ^ n := by
  induction n with
  | zero => exact (Nat.div_one s.exponent).symm
  | succ n ih =>
      rw [Function.iterate_succ_apply', Nat.pow_succ, ← Nat.div_div_eq_div_mul, ← ih]
      rfl

/-- The loop makes one pass for each bit of the exponent. -/
theorem endsAfter_iff (s : PowerLoop w) (n : Nat) : s.EndsAfter n ↔ n = s.exponent.size := by
  have hEnd (k : Nat) : (pass^[k] s).exponent = 0 ↔ s.exponent.size ≤ k := by
    rw [exponent_iterate, Nat.div_eq_zero_iff_lt (Nat.two_pow_pos k), Nat.size_le]
  constructor
  · rintro ⟨hZero, hNonzero⟩
    refine Nat.le_antisymm (Nat.not_lt.mp fun hLater => ?_) ((hEnd n).mp hZero)
    exact hNonzero _ hLater ((hEnd _).mpr le_rfl)
  · rintro rfl
    exact ⟨(hEnd _).mpr le_rfl, fun k hk hZero => Nat.not_lt.mpr ((hEnd k).mp hZero) hk⟩

/-- What is in the accumulator when the loop has ended. -/
theorem EndsAfter.acc_eq {s : PowerLoop w} {n : Nat} (h : s.EndsAfter n) :
    (pass^[n] s).acc = s.power := by
  rw [← power_of_exponent_eq_zero h.1, power_iterate]

theorem size_exponent_start_le (x y : Word w) : (start x y).exponent.size ≤ 64 :=
  Nat.size_le.mpr y.signedCarrier.isLt

/-- A positive exponent comes to the loop as it is. -/
theorem exponent_start {y : Word w} (hNonneg : 0 ≤ y.signed) (x : Word w) :
    (start x y).exponent = y.signed.toNat := by
  have hUnsigned := y.signedCarrier.unsigned_eq
  rw [y.signed_signedCarrier, if_neg (Int.not_lt.mpr hNonneg)] at hUnsigned
  show y.signedCarrier.unsigned = y.signed.toNat
  omega

end PowerLoop

/-! ## The power -/

section

variable (x : Word w) {y : Word w}

theorem pow_of_nonpos (hNonpos : y.signed ≤ 0) : x.pow y = one := if_pos hNonpos

theorem pow_of_pos (hPos : 0 < y.signed) :
    x.pow y = ofSigned (x.signed ^ y.signed.toNat) := by
  have hPower := mulPower_ofSigned (w := w) 1 x.signed y.signed.toNat
  rw [ofSigned_signed, Int.one_mul, ← one_eq_ofSigned] at hPower
  exact (if_neg (Int.not_le.mpr hPos)).trans hPower

/-- The exponent zero is no exception. -/
theorem pow_of_nonneg (hNonneg : 0 ≤ y.signed) :
    x.pow y = ofSigned (x.signed ^ y.signed.toNat) := by
  rcases Int.lt_or_eq_of_le hNonneg with hPos | hZero
  · exact x.pow_of_pos hPos
  · rw [x.pow_of_nonpos hZero.ge, ← hZero, Int.toNat_zero, pow_zero, one_eq_ofSigned]

/-- As many products give the same. -/
theorem iterate_mul_eq (n : Nat) :
    (fun product => product.mul x)^[n] one = ofSigned (x.signed ^ n) := by
  induction n with
  | zero =>
      rw [pow_zero]
      exact one_eq_ofSigned
  | succ n ih =>
      have hFactor : x = ofSigned x.signed := (ofSigned_signed x).symm
      rw [Function.iterate_succ_apply', ih, pow_succ, ← mul_ofSigned, ← hFactor]

theorem power_start (hPos : 0 < y.signed) : (PowerLoop.start x y).power = x.pow y := by
  rw [PowerLoop.power, PowerLoop.exponent_start hPos.le]
  exact (if_neg (Int.not_le.mpr hPos)).symm

theorem signed_add {a b : Word w} (hLow : -(2 ^ w.bits : Int) ≤ 2 * (a.signed + b.signed))
    (hHigh : 2 * (a.signed + b.signed) < 2 ^ w.bits) :
    (a.add b).signed = a.signed + b.signed := by
  have hSum : a.add b = ofSigned (a.signed + b.signed) := by
    rw [← add_ofSigned, ofSigned_signed, ofSigned_signed]
  rw [hSum]
  exact signed_ofSigned hLow hHigh

/-- Exponents add up. -/
theorem pow_mul_pow {a b : Word w} (ha : 0 ≤ a.signed) (hb : 0 ≤ b.signed)
    (hSum : a.signed + b.signed < 2 ^ (w.bits - 1)) :
    (x.pow a).mul (x.pow b) = x.pow (a.add b) := by
  have hPow := two_mul_two_pow_pred w
  have hWide : (0 : Int) < 2 ^ w.bits := Int.pow_pos (by decide)
  have hAdd : (a.add b).signed = a.signed + b.signed := signed_add (by omega) (by omega)
  have hNonneg : 0 ≤ (a.add b).signed := by omega
  rw [x.pow_of_nonneg ha, x.pow_of_nonneg hb, x.pow_of_nonneg hNonneg, mul_ofSigned, hAdd,
    Int.toNat_add ha hb, pow_add]

end

/-- **The power is modular exponentiation.** To a positive exponent it is congruent to the power of the
signed reading modulo `2 ^ w.bits`, as is the product of as many factors; to any other exponent it is
one. For every exponent, the loop ends after 64 passes at most, and then holds the power if the
exponent is one that the loop is entered with. So the product of powers is the power to the sum, as
long as that is in range. -/
theorem pow_exponentiation (x y : Word w) :
    (0 < y.signed →
      (x.pow y).signed ≡ x.signed ^ y.signed.toNat [ZMOD 2 ^ w.bits] ∧
        x.pow y = (fun product => product.mul x)^[y.signed.toNat] one) ∧
      (y.signed ≤ 0 → x.pow y = one) ∧
      (∃ passes ≤ 64, (PowerLoop.start x y).EndsAfter passes ∧
        (0 < y.signed → (PowerLoop.pass^[passes] (PowerLoop.start x y)).acc = x.pow y)) ∧
      ∀ z : Word w, 0 ≤ y.signed → 0 ≤ z.signed → y.signed + z.signed < 2 ^ (w.bits - 1) →
        (x.pow y).mul (x.pow z) = x.pow (y.add z) := by
  refine ⟨fun hPos => ⟨?_, ?_⟩, x.pow_of_nonpos, ?_, fun z => x.pow_mul_pow⟩
  · have hCast : ((2 ^ w.bits : Nat) : Int) = 2 ^ w.bits := Nat.cast_pow 2 w.bits
    rw [x.pow_of_pos hPos, signed_ofSigned_bmod, Int.ModEq, ← hCast, Int.bmod_emod]
  · rw [x.iterate_mul_eq, x.pow_of_pos hPos]
  · have hEnds := ((PowerLoop.start x y).endsAfter_iff _).mpr rfl
    exact ⟨_, PowerLoop.size_exponent_start_le x y, hEnds,
      fun hPos => hEnds.acc_eq.trans (x.power_start hPos)⟩

/-- The power of `3` to `5` in a byte, where it wraps, as the product of two powers. -/
theorem pow_exponentiation_three_five :
    ((ofSigned 3 : Word .w8).pow (ofSigned 5)).signed ≡ 243 [ZMOD 2 ^ 8] ∧
      ((ofSigned 3 : Word .w8).pow (ofSigned 2)).mul ((ofSigned 3 : Word .w8).pow (ofSigned 3)) =
        (ofSigned 3 : Word .w8).pow (ofSigned 5) := by
  obtain ⟨hPower, -, -, -⟩ := pow_exponentiation (ofSigned 3 : Word .w8) (ofSigned 5)
  obtain ⟨-, -, -, hSum⟩ := pow_exponentiation (ofSigned 3 : Word .w8) (ofSigned 2)
  exact ⟨(hPower (by decide)).1, hSum (ofSigned 3) (by decide) (by decide) (by decide)⟩

end WidthExact.Word
