import Mathlib.Data.Int.Bitwise
import WidthExact.Word.Arithmetic

/-!
# Wrapping integers into words

`Word.ofSigned` takes an integer to its residue modulo `2 ^ w.bits`. Sums, differences, products,
powers, the three bit operations and left shifts can be taken before it or after it: on the integers
themselves, whose bits go on to the left without end, or on the words.

A conversion between widths wraps a reading of its operand, and narrowing a wrapped integer is the
same as wrapping it into the narrower width.

## Main results

* `add_ofSigned`, `sub_ofSigned`, `mul_ofSigned`, `or_ofSigned`, `xor_ofSigned`, `and_ofSigned`,
  `mulPower_ofSigned`, `shiftLeft_ofSigned` — operations on wrapped integers.
* `sext_eq_ofSigned`, `zext_eq_ofSigned` — conversions wrap a reading.
* `sext_ofSigned`, `zext_ofSigned` — narrowing wraps once more.
-/

namespace WidthExact.Word

variable {v w : IntWidth}

theorem ofSigned_natCast (n : Nat) : (ofSigned (n : Int) : Word w) = ofUnsigned n :=
  BitVec.ofInt_natCast w.bits n

@[simp] theorem ofSigned_unsigned (x : Word w) : ofSigned (x.unsigned : Int) = x := by
  rw [ofSigned_natCast, ofUnsigned_unsigned]

theorem zero_eq_ofSigned : (zero : Word w) = ofSigned 0 := ofSigned_natCast 0

theorem one_eq_ofSigned : (one : Word w) = ofSigned 1 := ofSigned_natCast 1

/-! ## Arithmetic -/

theorem add_ofSigned (a b : Int) :
    (ofSigned a : Word w).add (ofSigned b) = ofSigned (a + b) :=
  (BitVec.ofInt_add a b).symm

theorem sub_ofSigned (a b : Int) :
    (ofSigned a : Word w).sub (ofSigned b) = ofSigned (a - b) := by
  have hNeg : BitVec.ofInt w.bits (-b) = -BitVec.ofInt w.bits b := BitVec.ofInt_neg
  show BitVec.ofInt w.bits a - BitVec.ofInt w.bits b = BitVec.ofInt w.bits (a - b)
  rw [Int.sub_eq_add_neg, BitVec.ofInt_add, hNeg, BitVec.sub_eq_add_neg]

theorem mul_ofSigned (a b : Int) :
    (ofSigned a : Word w).mul (ofSigned b) = ofSigned (a * b) :=
  (BitVec.ofInt_mul a b).symm

/-- Repeated squaring multiplies by the power. The induction follows the halving of the exponent, and
the loop's invariant is the product `a * b ^ n`, which no pass changes. -/
theorem mulPower_ofSigned (a b : Int) (n : Nat) :
    mulPower (ofSigned a : Word w) (ofSigned b) n = ofSigned (a * b ^ n) := by
  induction n using Nat.strong_induction_on generalizing a b with
  | _ n ih =>
      rw [mulPower]
      by_cases hZero : n = 0
      · rw [if_pos hZero, hZero, pow_zero, Int.mul_one]
      · have hHalf : n / 2 < n := by omega
        have hSquare : (b * b) ^ (n / 2) = b ^ (2 * (n / 2)) := by rw [pow_mul, pow_two]
        rw [if_neg hZero, mul_ofSigned b b]
        by_cases hOdd : n % 2 = 1
        · have hSplit : b ^ n = b * b ^ (2 * (n / 2)) := by
            rw [← pow_succ']
            congr 1
            omega
          rw [if_pos hOdd, mul_ofSigned, ih _ hHalf, hSquare, hSplit, Int.mul_assoc]
        · have hSplit : 2 * (n / 2) = n := by omega
          rw [if_neg hOdd, ih _ hHalf, hSquare, hSplit]

/-! ## Bits -/

/-- The bits of a wrapped integer are those of the integer, as far as the width goes. -/
theorem getLsbD_ofInt (bits : Nat) (a : Int) (k : Nat) :
    (BitVec.ofInt bits a).getLsbD k = (decide (k < bits) && a.testBit k) := by
  cases a with
  | ofNat n =>
      show (BitVec.ofInt bits (n : Int)).getLsbD k = (decide (k < bits) && n.testBit k)
      rw [BitVec.ofInt_natCast, BitVec.getLsbD_ofNat]
  | negSucc n =>
      show (BitVec.ofInt bits (Int.negSucc n)).getLsbD k = (decide (k < bits) && !n.testBit k)
      rw [BitVec.ofInt_negSucc_eq_not_ofNat, BitVec.getLsbD_not, BitVec.getLsbD_ofNat]
      by_cases hk : k < bits <;> simp [hk]

theorem or_ofSigned (a b : Int) :
    (ofSigned a : Word w).or (ofSigned b) = ofSigned (a.lor b) := by
  apply BitVec.eq_of_getLsbD_eq
  intro k hk
  show (BitVec.ofInt w.bits a ||| BitVec.ofInt w.bits b).getLsbD k =
    (BitVec.ofInt w.bits (a.lor b)).getLsbD k
  simp only [BitVec.getLsbD_or, getLsbD_ofInt, Int.testBit_lor, hk, decide_true, Bool.true_and]

theorem xor_ofSigned (a b : Int) :
    (ofSigned a : Word w).xor (ofSigned b) = ofSigned (a.xor b) := by
  apply BitVec.eq_of_getLsbD_eq
  intro k hk
  show (BitVec.ofInt w.bits a ^^^ BitVec.ofInt w.bits b).getLsbD k =
    (BitVec.ofInt w.bits (a.xor b)).getLsbD k
  simp only [BitVec.getLsbD_xor, getLsbD_ofInt, Int.testBit_lxor, hk, decide_true, Bool.true_and]

theorem and_ofSigned (a b : Int) :
    (ofSigned a : Word w).and (ofSigned b) = ofSigned (a.land b) := by
  apply BitVec.eq_of_getLsbD_eq
  intro k hk
  show (BitVec.ofInt w.bits a &&& BitVec.ofInt w.bits b).getLsbD k =
    (BitVec.ofInt w.bits (a.land b)).getLsbD k
  simp only [BitVec.getLsbD_and, getLsbD_ofInt, Int.testBit_land, hk, decide_true, Bool.true_and]

/-- A left shift by less than the width multiplies by a power of two. -/
theorem shiftLeft_ofSigned (a : Int) {k : Nat} (hk : k < w.bits) :
    (ofSigned a : Word w).shiftLeft k = ofSigned (a * 2 ^ k) := by
  have hPow : BitVec.ofInt w.bits (2 ^ k) = BitVec.twoPow w.bits k := by
    have hCast : (2 : Int) ^ k = ((2 ^ k : Nat) : Int) := (Nat.cast_pow 2 k).symm
    rw [hCast, BitVec.ofInt_natCast]
    apply BitVec.eq_of_toNat_eq
    rw [BitVec.toNat_ofNat, BitVec.toNat_twoPow]
  show BitVec.ofInt w.bits a <<< (k % w.bits) = BitVec.ofInt w.bits (a * 2 ^ k)
  rw [Nat.mod_eq_of_lt hk, BitVec.ofInt_mul, hPow, BitVec.mul_twoPow_eq_shiftLeft]

/-! ## Conversions -/

/-- Narrowing keeps the residue. -/
theorem setWidth_ofInt {bits bits' : Nat} (h : bits ≤ bits') (a : Int) :
    (BitVec.ofInt bits' a).setWidth bits = BitVec.ofInt bits a := by
  apply BitVec.eq_of_getLsbD_eq
  intro k hk
  have hk' : k < bits' := by omega
  simp only [BitVec.getLsbD_setWidth, getLsbD_ofInt, hk, hk', decide_true, Bool.true_and]

theorem sext_eq_ofSigned (x : Word w) (v : IntWidth) : x.sext v = ofSigned x.signed :=
  setWidth_ofInt v.bits_le x.signed

theorem zext_eq_ofSigned (x : Word w) (v : IntWidth) : x.zext v = ofSigned x.unsigned := by
  have hCarrier : x.unsignedCarrier = ofSigned (x.unsigned : Int) := by
    rw [ofSigned_natCast]
    exact (BitVec.ofNat_toNat 64 x).symm
  rw [zext, hCarrier]
  exact setWidth_ofInt v.bits_le x.unsigned

/-- Integers that wrap into one word wrap into one narrower word. -/
theorem eq_of_ofSigned_eq (hNarrower : v.bits ≤ w.bits) {a b : Int}
    (h : (ofSigned a : Word w) = ofSigned b) : (ofSigned a : Word v) = ofSigned b := by
  have hNarrowed := congrArg (BitVec.setWidth v.bits) h
  rwa [ofSigned, ofSigned, setWidth_ofInt hNarrower, setWidth_ofInt hNarrower] at hNarrowed

theorem sext_ofSigned (hNarrower : v.bits ≤ w.bits) (a : Int) :
    (ofSigned a : Word w).sext v = ofSigned a := by
  rw [sext_eq_ofSigned]
  exact eq_of_ofSigned_eq hNarrower (ofSigned_signed _)

theorem zext_ofSigned (hNarrower : v.bits ≤ w.bits) (a : Int) :
    (ofSigned a : Word w).zext v = ofSigned a := by
  rw [zext_eq_ofSigned]
  exact eq_of_ofSigned_eq hNarrower (ofSigned_unsigned _)

end WidthExact.Word
