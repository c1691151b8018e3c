import WidthExact.Proofs.Word.Wrapping

/-!
# The two readings of a word

The signed reading of a word lies between `-2 ^ (w.bits - 1)` and `2 ^ (w.bits - 1)`, the unsigned one
between `0` and `2 ^ w.bits`. A word is determined by either, an integer in the signed range is read
back from the word that it wraps into, and widening keeps the reading that it extends. The bounds are
stated for twice the signed reading, so that one power of two stands in them.

## Main results

* `signed_ofSigned` — what is in range is read back.
* `signed_eq`, `unsigned_eq` — either reading from the other.
* `unsigned_eq_low_add`, `signed_eq_low_sub` — both from the sign bit and the bits below it.
* `signed_sext`, `unsigned_zext`, `signed_zext` — readings of a widened word.
-/

namespace WidthExact.Word

variable {v w : IntWidth}

theorem le_two_mul_signed (x : Word w) : -(2 ^ w.bits : Int) ≤ 2 * x.signed :=
  BitVec.le_two_mul_toInt

theorem two_mul_signed_lt (x : Word w) : 2 * x.signed < (2 ^ w.bits : Int) :=
  BitVec.two_mul_toInt_lt

theorem unsigned_lt (x : Word w) : (x.unsigned : Int) < 2 ^ w.bits := by
  have hLt : x.unsigned < 2 ^ w.bits := x.isLt
  exact_mod_cast hLt

theorem two_pow_le (hNarrower : v.bits ≤ w.bits) : (2 ^ v.bits : Int) ≤ 2 ^ w.bits := by
  have hLe : 2 ^ v.bits ≤ 2 ^ w.bits := Nat.pow_le_pow_right (by decide) hNarrower
  exact_mod_cast hLe

theorem two_mul_two_pow_pred (w : IntWidth) : (2 : Int) * 2 ^ (w.bits - 1) = 2 ^ w.bits := by
  cases w <;> decide

theorem four_le_two_pow (w : IntWidth) : (4 : Int) ≤ 2 ^ w.bits := by
  cases w <;> decide

theorem signed_ofSigned_bmod (n : Int) : (ofSigned n : Word w).signed = n.bmod (2 ^ w.bits) :=
  BitVec.toInt_ofInt n

theorem signed_ofSigned {n : Int} (hLow : -(2 ^ w.bits : Int) ≤ 2 * n)
    (hHigh : 2 * n < (2 ^ w.bits : Int)) : (ofSigned n : Word w).signed = n := by
  have hCast : ((2 ^ w.bits : Nat) : Int) = 2 ^ w.bits := Nat.cast_pow 2 w.bits
  rw [signed_ofSigned_bmod]
  exact Int.bmod_eq_of_le_mul_two (by omega) (by omega)

theorem unsigned_ofSigned (n : Int) :
    ((ofSigned n : Word w).unsigned : Int) = n % (2 ^ w.bits : Int) := by
  have hCast : ((2 ^ w.bits : Nat) : Int) = 2 ^ w.bits := Nat.cast_pow 2 w.bits
  have hPos : (0 : Int) < 2 ^ w.bits := Int.pow_pos (by decide)
  have hNat : (ofSigned n : Word w).unsigned = (n % ((2 ^ w.bits : Nat) : Int)).toNat :=
    BitVec.toNat_ofInt n
  have hNonneg := Int.emod_nonneg n (Int.ne_of_gt hPos)
  rw [hNat, hCast]
  omega

theorem unsigned_ofUnsigned {n : Nat} (h : n < 2 ^ w.bits) : (ofUnsigned n : Word w).unsigned = n :=
  (BitVec.toNat_ofNat n w.bits).trans (Nat.mod_eq_of_lt h)

/-- Integers that wrap into one word are one if they are closer than the words' number. -/
theorem eq_of_ofSigned_eq_of_lt {a b : Int} (h : (ofSigned a : Word w) = ofSigned b)
    (hAbove : a - b < 2 ^ w.bits) (hBelow : b - a < 2 ^ w.bits) : a = b := by
  have hResidue : a % 2 ^ w.bits = b % 2 ^ w.bits := by
    rw [← unsigned_ofSigned, h, unsigned_ofSigned]
  have hDivides : (2 ^ w.bits : Int) ∣ a - b :=
    Int.dvd_of_emod_eq_zero (Int.emod_eq_emod_iff_emod_sub_eq_zero.mp hResidue)
  refine Int.sub_eq_zero.mp (Int.eq_zero_of_dvd_of_natAbs_lt_natAbs hDivides ?_)
  omega

theorem eq_of_signed_eq {x y : Word w} (h : x.signed = y.signed) : x = y :=
  BitVec.eq_of_toInt_eq h

theorem signed_inj {x y : Word w} : x.signed = y.signed ↔ x = y := BitVec.toInt_inj

theorem signed_zero : (zero : Word w).signed = 0 := BitVec.toInt_zero

theorem signed_eq_zero_iff (x : Word w) : x.signed = 0 ↔ x = zero := by
  constructor
  · intro h
    exact eq_of_signed_eq (h.trans signed_zero.symm)
  · rintro rfl
    exact signed_zero

theorem signed_ne_zero {x : Word w} (hx : x ≠ zero) : x.signed ≠ 0 := mt x.signed_eq_zero_iff.mp hx

theorem unsigned_eq_zero_iff (x : Word w) : x.unsigned = 0 ↔ x = zero := by
  constructor
  · intro h
    exact BitVec.eq_of_toNat_eq h
  · rintro rfl
    exact BitVec.toNat_zero

theorem isNegative_eq (x : Word w) : x.isNegative = decide (x.signed < 0) := BitVec.msb_eq_toInt

/-- The two's-complement reading of a pattern. -/
theorem signed_eq (x : Word w) :
    x.signed = if 2 * x.unsigned < 2 ^ w.bits then (x.unsigned : Int)
      else (x.unsigned : Int) - 2 ^ w.bits := by
  have hCast : ((2 ^ w.bits : Nat) : Int) = 2 ^ w.bits := Nat.cast_pow 2 w.bits
  rw [← hCast]
  exact BitVec.toInt_eq_toNat_cond x

/-- A pattern with its sign bit set is read a whole range higher without a sign. -/
theorem unsigned_eq (x : Word w) :
    (x.unsigned : Int) = if x.signed < 0 then x.signed + 2 ^ w.bits else x.signed := by
  have hCast : ((2 ^ w.bits : Nat) : Int) = 2 ^ w.bits := Nat.cast_pow 2 w.bits
  have hLt := x.unsigned_lt
  rw [x.signed_eq]
  split <;> split <;> omega

/-! ## The sign bit -/

/-- The least word in the signed order: the sign bit alone. -/
def least : Word w := ofSigned (-2 ^ (w.bits - 1))

/-- The greatest word in the signed order: all bits but the sign bit. -/
def greatest : Word w := ofSigned (2 ^ (w.bits - 1) - 1)

/-- The number that the bits below the sign bit denote. -/
def low (x : Word w) : Nat := x.unsigned % 2 ^ (w.bits - 1)

/-- Without a sign, the sign bit counts for half of the words' number. -/
theorem unsigned_eq_low_add (x : Word w) :
    x.unsigned = x.low + if x.isNegative then 2 ^ (w.bits - 1) else 0 := by
  have hSign : x.isNegative = decide (2 ^ (w.bits - 1) ≤ x.unsigned) := BitVec.msb_eq_decide x
  have hLt : x.unsigned < 2 ^ w.bits := x.isLt
  have hPow : 2 ^ w.bits = 2 * 2 ^ (w.bits - 1) := by cases w <;> rfl
  rw [hSign, low]
  by_cases hHigh : 2 ^ (w.bits - 1) ≤ x.unsigned
  · rw [Nat.mod_eq_sub_mod hHigh, Nat.mod_eq_of_lt (by omega), decide_eq_true hHigh, if_pos rfl]
    omega
  · rw [Nat.mod_eq_of_lt (by omega), decide_eq_false hHigh]
    rfl

/-- With a sign, it counts for as much below zero. -/
theorem signed_eq_low_sub (x : Word w) :
    x.signed = x.low - if x.isNegative then 2 ^ (w.bits - 1) else 0 := by
  have hUnsigned := x.unsigned_eq_low_add
  have hHalf := two_mul_two_pow_pred w
  have hCast : ((2 ^ (w.bits - 1) : Nat) : Int) = 2 ^ (w.bits - 1) := Nat.cast_pow 2 _
  have hReading := x.unsigned_eq
  rw [x.isNegative_eq] at hUnsigned ⊢
  by_cases hNegative : x.signed < 0
  · rw [decide_eq_true hNegative, if_pos rfl] at *
    rw [if_pos hNegative] at hReading
    omega
  · rw [decide_eq_false hNegative, if_neg Bool.false_ne_true] at *
    rw [if_neg hNegative] at hReading
    omega

/-- A word is its sign bit and the bits below it. -/
theorem eq_of_low_eq {x y : Word w} (hSign : x.isNegative = y.isNegative) (hLow : x.low = y.low) :
    x = y := by
  refine BitVec.eq_of_toNat_eq ?_
  show x.unsigned = y.unsigned
  rw [x.unsigned_eq_low_add, y.unsigned_eq_low_add, hSign, hLow]

theorem isNegative_and_greatest (x : Word w) : (x.and greatest).isNegative = false := by
  have hGreatest : (greatest : Word w).msb = false := by cases w <;> decide
  show (x &&& greatest).msb = false
  rw [BitVec.msb_and, hGreatest, Bool.and_false]

/-- The greatest signed word clears the sign bit. -/
theorem low_and_greatest (x : Word w) : (x.and greatest).low = x.low := by
  have hGreatest : (greatest : Word w).toNat = 2 ^ (w.bits - 1) - 1 := by cases w <;> decide
  show (x &&& greatest).toNat % _ = x.toNat % _
  rw [BitVec.toNat_and, hGreatest, Nat.and_two_pow_sub_one_eq_mod, Nat.mod_mod]

theorem unsigned_and_greatest (x : Word w) : (x.and greatest).unsigned = x.low := by
  rw [unsigned_eq_low_add, isNegative_and_greatest, low_and_greatest]
  rfl

theorem isNegative_xor_least (x : Word w) : (x.xor least).isNegative = !x.isNegative := by
  have hLeast : (least : Word w).msb = true := by cases w <;> decide
  show (x ^^^ least).msb = !x.msb
  rw [BitVec.msb_xor, hLeast, Bool.xor_true]

/-- The least signed word turns the sign bit over. -/
theorem low_xor_least (x : Word w) : (x.xor least).low = x.low := by
  have hLeast : (least : Word w).toNat % 2 ^ (w.bits - 1) = 0 := by cases w <;> decide
  show (x ^^^ least).toNat % _ = x.toNat % _
  rw [BitVec.toNat_xor, Nat.xor_mod_two_pow, hLeast, Nat.xor_zero]

/-! ## Widening -/

theorem signed_signedCarrier (x : Word w) : x.signedCarrier.signed = x.signed :=
  BitVec.toInt_signExtend_of_le w.bits_le

theorem unsigned_unsignedCarrier (x : Word w) : x.unsignedCarrier.unsigned = x.unsigned :=
  BitVec.toNat_setWidth_of_le w.bits_le

theorem signed_sext (hWider : v.bits ≤ w.bits) (x : Word v) : (x.sext w).signed = x.signed := by
  have hLow := x.le_two_mul_signed
  have hHigh := x.two_mul_signed_lt
  have hPow := two_pow_le hWider
  rw [sext_eq_ofSigned]
  exact signed_ofSigned (by omega) (by omega)

theorem unsigned_zext (hWider : v.bits ≤ w.bits) (x : Word v) :
    (x.zext w).unsigned = x.unsigned := by
  have hLt := x.unsigned_lt
  have hPow := two_pow_le hWider
  have hWrap : ((x.zext w).unsigned : Int) = (x.unsigned : Int) := by
    rw [zext_eq_ofSigned, unsigned_ofSigned]
    exact Int.emod_eq_of_lt (by omega) (by omega)
  exact_mod_cast hWrap

/-- In a strictly wider word there is room for the unsigned reading below the sign bit. -/
theorem signed_zext (hWider : v.bits < w.bits) (x : Word v) :
    (x.zext w).signed = (x.unsigned : Int) := by
  have hLt := x.unsigned_lt
  have hPow : (2 * 2 ^ v.bits : Int) ≤ 2 ^ w.bits := by
    have hLe : 2 ^ (v.bits + 1) ≤ 2 ^ w.bits := Nat.pow_le_pow_right (by decide) hWider
    rw [Nat.pow_succ, Nat.mul_comm] at hLe
    exact_mod_cast hLe
  rw [zext_eq_ofSigned]
  exact signed_ofSigned (by omega) (by omega)

/-- Widening by the sign bit keeps the unsigned order, although it may move both readings. -/
theorem unsigned_sext_lt_iff (hWider : v.bits ≤ w.bits) (x y : Word v) :
    (x.sext w).unsigned < (y.sext w).unsigned ↔ x.unsigned < y.unsigned := by
  have hx := x.unsigned_eq
  have hy := y.unsigned_eq
  have hx' := (x.sext w).unsigned_eq
  have hy' := (y.sext w).unsigned_eq
  have hxBounds := And.intro x.le_two_mul_signed x.two_mul_signed_lt
  have hyBounds := And.intro y.le_two_mul_signed y.two_mul_signed_lt
  have hPow := two_pow_le hWider
  rw [signed_sext hWider] at hx' hy'
  by_cases hxNeg : x.signed < 0 <;> by_cases hyNeg : y.signed < 0 <;>
    simp only [hxNeg, hyNeg, if_true, if_false] at hx hy hx' hy' <;> omega

end WidthExact.Word
