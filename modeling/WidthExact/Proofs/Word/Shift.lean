import Mathlib.Data.Rat.Floor
import WidthExact.Proofs.Word.Readings

/-!
# Shifts by any amount

A shift takes its amount from a word of the same width, and every word is an amount, a negative one
too. On the way the amount is read without a sign, cut to 32 bits and reduced modulo the width. Each
width is a power of two that divides both `2 ^ 32` and the number of words of that width, so that
neither the cut nor the choice of the reading shows: what counts is the residue of the amount.

A shift by a residue `s` multiplies or divides by `2 ^ s`. To the left the product is reduced once; to
the right the quotient is rounded down and needs no reduction, and without signs it leaves `s` zeros at
the top.

## Main results

* `signed_emod_bits`, `shiftAmount_mod_bits` — the residue of an amount.
* `shiftLeft_eq`, `signed_shiftRightSigned`, `unsigned_shiftRight` — shifts by any natural number.
* `isShift`, `shift_reduction` — all shifts.
-/

namespace WidthExact.Word

variable {w : IntWidth}

/-! ## Amounts -/

/-- The number of places that a word shifts by: the residue of its signed reading modulo the width. -/
def shiftPlaces (y : Word w) : Nat := (y.signed % (w.bits : Int)).toNat

theorem bits_dvd_two_pow (w : IntWidth) : (w.bits : Int) ∣ 2 ^ w.bits := by cases w <;> decide

theorem bits_dvd_twoPow_32 (w : IntWidth) : w.bits ∣ twoPow 32 := by cases w <;> decide

/-- Both readings of an amount leave one residue, as they differ by a multiple of the width. -/
theorem signed_emod_bits (y : Word w) :
    y.signed % (w.bits : Int) = (y.unsigned : Int) % (w.bits : Int) := by
  have hUnsigned := y.unsigned_eq
  split at hUnsigned
  · rw [hUnsigned, Int.add_emod, Int.emod_eq_zero_of_dvd (bits_dvd_two_pow w), Int.add_zero,
      Int.emod_emod]
  · rw [hUnsigned]

theorem shiftPlaces_eq_unsigned (y : Word w) : y.shiftPlaces = y.unsigned % w.bits := by
  rw [shiftPlaces, signed_emod_bits, ← Int.natCast_emod, Int.toNat_natCast]

theorem shiftPlaces_eq_signed (y : Word w) : (y.shiftPlaces : Int) = y.signed % (w.bits : Int) := by
  rw [shiftPlaces_eq_unsigned, signed_emod_bits, Int.natCast_emod]

theorem shiftPlaces_lt (y : Word w) : y.shiftPlaces < w.bits := by
  rw [shiftPlaces_eq_unsigned]
  exact Nat.mod_lt _ w.bits_pos

/-- The cut to 32 bits loses nothing that is left modulo the width. -/
theorem shiftAmount_mod_bits (y : Word w) : y.shiftAmount % w.bits = y.shiftPlaces := by
  rw [shiftPlaces_eq_unsigned, shiftAmount, Nat.mod_mod_of_dvd _ (bits_dvd_twoPow_32 w)]

/-! ## Shifts -/

variable (x : Word w) (amount : Nat)

theorem shiftLeft_eq (a : Int) :
    (ofSigned a : Word w).shiftLeft amount = ofSigned (a * 2 ^ (amount % w.bits)) := by
  rw [← shiftLeft_ofSigned a (Nat.mod_lt amount w.bits_pos), shiftLeft, shiftLeft, Nat.mod_mod]

theorem signed_shiftRightSigned :
    (x.shiftRightSigned amount).signed = x.signed / 2 ^ (amount % w.bits) := by
  have hShift : (x.shiftRightSigned amount).signed = x.signed >>> (amount % w.bits) :=
    BitVec.toInt_sshiftRight
  rw [hShift, Int.shiftRight_eq_div_pow, Nat.cast_pow]
  rfl

theorem unsigned_shiftRight :
    (x.shiftRight amount).unsigned = x.unsigned / 2 ^ (amount % w.bits) := by
  rw [← Nat.shiftRight_eq_div_pow]
  exact BitVec.toNat_ushiftRight x _

/-- A logical shift leaves no bit in the places that it empties. -/
theorem getLsbD_shiftRight {place : Nat} (h : w.bits ≤ place + amount % w.bits) :
    (x.shiftRight amount).getLsbD place = false := by
  rw [shiftRight, BitVec.getLsbD_ushiftRight]
  exact BitVec.getLsbD_of_ge x _ (by omega)

/-- The words `left`, `arithmetic` and `logical` are `x` shifted by `s` places. -/
structure IsShift (x : Word w) (s : Nat) (left arithmetic logical : Word w) : Prop where
  /-- The product is reduced once, whichever reading it is taken of. -/
  product : (left.unsigned : Int) = x.signed * 2 ^ s % 2 ^ w.bits
  unsignedProduct : (left.unsigned : Int) = x.unsigned * 2 ^ s % 2 ^ w.bits
  quotient : arithmetic.signed = ⌊(x.signed : ℚ) / 2 ^ s⌋
  unsignedQuotient : (logical.unsigned : Int) = ⌊(x.unsigned : ℚ) / 2 ^ s⌋
  /-- The quotient without a sign is carried as a pattern, to be read with one. -/
  relabelled : logical.signed = ⌊(x.unsigned : ℚ) / 2 ^ s⌋.bmod (2 ^ w.bits)
  cleared : ∀ place, w.bits ≤ place + s → logical.getLsbD place = false

theorem isShift : IsShift x (amount % w.bits) (x.shiftLeft amount) (x.shiftRightSigned amount)
    (x.shiftRight amount) := by
  have hFloor (a : Int) : ⌊(a : ℚ) / 2 ^ (amount % w.bits)⌋ = a / 2 ^ (amount % w.bits) := by
    have hQuotient := Rat.floor_intCast_div_natCast a (2 ^ (amount % w.bits))
    rwa [Nat.cast_pow, Nat.cast_pow] at hQuotient
  have hLogical : ((x.shiftRight amount).unsigned : Int) =
      ⌊(x.unsigned : ℚ) / 2 ^ (amount % w.bits)⌋ := by
    have hUnsigned := hFloor x.unsigned
    rw [Int.cast_natCast] at hUnsigned
    rw [hUnsigned, unsigned_shiftRight, Int.natCast_ediv, Nat.cast_pow]
    rfl
  refine ⟨?_, ?_, ?_, hLogical, ?_, fun place h => getLsbD_shiftRight x amount h⟩
  · conv_lhs => rw [← x.ofSigned_signed]
    rw [shiftLeft_eq, unsigned_ofSigned]
  · conv_lhs => rw [← x.ofSigned_unsigned]
    rw [shiftLeft_eq, unsigned_ofSigned]
  · rw [signed_shiftRightSigned, hFloor]
  · rw [← hLogical, ← signed_ofSigned_bmod, ofSigned_unsigned]

/-- **Shifts reduce any amount modulo the width.** The amount that a word stands for is the residue of
its readings, of the signed one as of the unsigned one, and is what is left of the amount that is cut
to 32 bits. To the left, the product of the word and the power of two is reduced into the width; to the
right, the quotient of either reading is rounded down. The shifts by a natural number do the same with
its residue. -/
theorem shift_reduction (x y : Word w) :
    (y.shiftPlaces : Int) = y.signed % (w.bits : Int) ∧
      (y.shiftPlaces : Int) = (y.unsigned : Int) % (w.bits : Int) ∧
      y.shiftPlaces < w.bits ∧ y.shiftAmount % w.bits = y.shiftPlaces ∧
      IsShift x y.shiftPlaces (x.shl y) (x.ashr y) (x.lshr y) ∧
      ∀ amount : Nat, IsShift x (amount % w.bits) (x.shiftLeft amount) (x.shiftRightSigned amount)
        (x.shiftRight amount) := by
  refine ⟨y.shiftPlaces_eq_signed, y.shiftPlaces_eq_signed.trans y.signed_emod_bits,
    y.shiftPlaces_lt, y.shiftAmount_mod_bits, ?_, isShift x⟩
  rw [← y.shiftAmount_mod_bits]
  exact isShift x y.shiftAmount

/-- An amount of a byte that is negative, and one of 64 bits that is greater than what is kept of it. -/
example : (ofSigned (-128) : Word .w8).ashr (ofSigned (-5)) = ofSigned (-16) ∧
    (one : Word .w64).shl (ofSigned (2 ^ 40 + 67)) = ofSigned 8 := by decide

end WidthExact.Word
