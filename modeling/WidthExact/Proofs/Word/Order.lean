import Mathlib.Order.MinMax
import WidthExact.Proofs.Word.Readings
import WidthExact.Word.Order

/-!
# The signed and the unsigned order of words

Comparison, minimum, maximum and sign exist twice, once for either reading of a word. Each of the two
families belongs to one total order: that of the integers, carried over to words by a reading that
tells all words apart. What is proved of a family is proved once, of any `reading` that its five
operations follow (`Follows`).

The two orders are one another's image under the sign bit turned over, and they agree on words whose
sign bits do.

## Main results

* `Follows.isTotalOrder`, `Follows.isLattice`, `Follows.isSignum` — the laws of a family.
* `follows_signed`, `follows_unsigned` — the two families.
* `signed_xor_least`, `slt_eq_ult_iff` — the one order from the other.
* `order_coherence` — all of it.
-/

namespace WidthExact.Word

variable {w : IntWidth}

/-- The word with the signed reading `-1`. -/
def minusOne : Word w := ofSigned (-1)

/-! ## The laws -/

section

variable (reading : Word w → Int) (lt le : Word w → Word w → Bool)
  (lesser greater : Word w → Word w → Word w) (signum : Word w → Word w)

/-- `lt` and `le` are the strict and the other total order of the numbers read. -/
structure IsTotalOrder : Prop where
  lt_iff (x y : Word w) : lt x y = true ↔ reading x < reading y
  le_iff (x y : Word w) : le x y = true ↔ reading x ≤ reading y
  lt_iff_le (x y : Word w) : lt x y = true ↔ le x y = true ∧ x ≠ y
  /-- Of two words one is less than the other or they are the same, and no two of these at once. -/
  trichotomy (x y : Word w) :
    (lt x y = true ∧ x ≠ y ∧ lt y x = false) ∨ (lt x y = false ∧ x = y ∧ lt y x = false) ∨
      (lt x y = false ∧ x ≠ y ∧ lt y x = true)
  le_total (x y : Word w) : le x y = true ∨ le y x = true
  le_antisymm (x y : Word w) : le x y = true → le y x = true → x = y
  le_trans (x y z : Word w) : le x y = true → le y z = true → le x z = true
  lt_trans (x y z : Word w) : lt x y = true → lt y z = true → lt x z = true

/-- `lesser` and `greater` are the lattice operations of the order `le`. -/
structure IsLattice : Prop where
  lesser_eq_iff (x y : Word w) : lesser x y = x ↔ le x y = true
  greater_eq_iff (x y : Word w) : greater x y = y ↔ le x y = true
  lesser_mem (x y : Word w) : lesser x y = x ∨ lesser x y = y
  greater_mem (x y : Word w) : greater x y = x ∨ greater x y = y
  lesser_comm (x y : Word w) : lesser x y = lesser y x
  greater_comm (x y : Word w) : greater x y = greater y x
  lesser_assoc (x y z : Word w) : lesser (lesser x y) z = lesser x (lesser y z)
  greater_assoc (x y z : Word w) : greater (greater x y) z = greater x (greater y z)
  lesser_greater (x y : Word w) : lesser x (greater x y) = x
  greater_lesser (x y : Word w) : greater x (lesser x y) = x

/-- `signum` tells where a word stands from zero. -/
structure IsSignum : Prop where
  reading_eq (x : Word w) : reading (signum x) = (reading x).sign
  below_iff (x : Word w) : signum x = minusOne ↔ lt x zero = true
  zero_iff (x : Word w) : signum x = zero ↔ x = zero
  above_iff (x : Word w) : signum x = one ↔ lt zero x = true

/-- The operations are those of the integers, on the numbers read. -/
structure Follows : Prop where
  injective : Function.Injective reading
  reading_zero : reading zero = 0
  reading_one : reading one = 1
  lt_iff (x y : Word w) : lt x y = true ↔ reading x < reading y
  le_iff (x y : Word w) : le x y = true ↔ reading x ≤ reading y
  lesser_eq (x y : Word w) : lesser x y = if lt y x then y else x
  greater_eq (x y : Word w) : greater x y = if lt y x then x else y
  reading_signum (x : Word w) : reading (signum x) = (reading x).sign
  /-- A reading without negative numbers takes all ones for a great number. -/
  reading_minusOne : reading minusOne = -1 ∨ 1 < reading minusOne ∧ ∀ x, 0 ≤ reading x

end

/-! ## They hold of a family that follows a reading -/

namespace Follows

variable {reading : Word w → Int} {lt le : Word w → Word w → Bool}
  {lesser greater : Word w → Word w → Word w} {signum : Word w → Word w}
  (h : Follows reading lt le lesser greater signum)

include h

theorem lt_eq_false_iff (x y : Word w) : lt x y = false ↔ reading y ≤ reading x := by
  rw [← Bool.not_eq_true, h.lt_iff, not_lt]

theorem ne_iff (x y : Word w) : x ≠ y ↔ reading x ≠ reading y := h.injective.ne_iff.symm

theorem isTotalOrder : IsTotalOrder reading lt le where
  lt_iff := h.lt_iff
  le_iff := h.le_iff
  lt_iff_le x y := by rw [h.lt_iff, h.le_iff, h.ne_iff, lt_iff_le_and_ne]
  trichotomy x y := by
    rw [h.lt_iff, h.lt_iff, h.lt_eq_false_iff, h.lt_eq_false_iff, h.ne_iff, ← h.injective.eq_iff]
    omega
  le_total x y := by
    rw [h.le_iff, h.le_iff]
    exact Int.le_total _ _
  le_antisymm x y := by
    rw [h.le_iff, h.le_iff]
    exact fun hxy hyx => h.injective (Int.le_antisymm hxy hyx)
  le_trans x y z := by
    rw [h.le_iff, h.le_iff, h.le_iff]
    exact Int.le_trans
  lt_trans x y z := by
    rw [h.lt_iff, h.lt_iff, h.lt_iff]
    exact Int.lt_trans

theorem reading_lesser (x y : Word w) : reading (lesser x y) = min (reading x) (reading y) := by
  rw [h.lesser_eq, min_comm, min_def_lt, apply_ite reading]
  simp only [h.lt_iff]

theorem reading_greater (x y : Word w) : reading (greater x y) = max (reading x) (reading y) := by
  rw [h.greater_eq, max_comm, max_def_lt, apply_ite reading]
  simp only [h.lt_iff]

theorem isLattice : IsLattice le lesser greater where
  lesser_eq_iff x y := by rw [← h.injective.eq_iff, h.reading_lesser, h.le_iff, min_eq_left_iff]
  greater_eq_iff x y := by rw [← h.injective.eq_iff, h.reading_greater, h.le_iff, max_eq_right_iff]
  lesser_mem x y := by
    rw [← h.injective.eq_iff, ← h.injective.eq_iff, h.reading_lesser]
    exact min_choice _ _
  greater_mem x y := by
    rw [← h.injective.eq_iff, ← h.injective.eq_iff, h.reading_greater]
    exact max_choice _ _
  lesser_comm x y := by
    rw [← h.injective.eq_iff, h.reading_lesser, h.reading_lesser, min_comm]
  greater_comm x y := by
    rw [← h.injective.eq_iff, h.reading_greater, h.reading_greater, max_comm]
  lesser_assoc x y z := by
    rw [← h.injective.eq_iff]
    simp only [h.reading_lesser, min_assoc]
  greater_assoc x y z := by
    rw [← h.injective.eq_iff]
    simp only [h.reading_greater, max_assoc]
  lesser_greater x y := by
    rw [← h.injective.eq_iff, h.reading_lesser, h.reading_greater]
    exact inf_sup_self
  greater_lesser x y := by
    rw [← h.injective.eq_iff, h.reading_greater, h.reading_lesser]
    exact sup_inf_self

theorem isSignum : IsSignum reading lt signum where
  reading_eq := h.reading_signum
  below_iff x := by
    rw [← h.injective.eq_iff, h.reading_signum, h.lt_iff, h.reading_zero]
    rcases h.reading_minusOne with hMinusOne | ⟨hGreat, hNonneg⟩
    · rw [hMinusOne, Int.sign_eq_neg_one_iff_neg]
    · have hAbove := hNonneg x
      have hSign := Int.sign_trichotomy (reading x)
      omega
  zero_iff x := by
    rw [← h.injective.eq_iff, ← h.injective.eq_iff, h.reading_signum, h.reading_zero,
      Int.sign_eq_zero_iff_zero]
  above_iff x := by
    rw [← h.injective.eq_iff, h.reading_signum, h.reading_one, h.lt_iff, h.reading_zero,
      Int.sign_eq_one_iff_pos]

end Follows

/-! ## The two families -/

theorem follows_signed : Follows (w := w) signed slt sle smin smax ssignum where
  injective _ _ := eq_of_signed_eq
  reading_zero := signed_zero
  reading_one := by cases w <;> decide
  lt_iff _ _ := decide_eq_true_iff
  le_iff _ _ := decide_eq_true_iff
  lesser_eq _ _ := rfl
  greater_eq _ _ := rfl
  reading_signum x := by
    have hWide := four_le_two_pow w
    have hBounds := Int.sign_trichotomy x.signed
    exact signed_ofSigned (by omega) (by omega)
  reading_minusOne := by
    have hWide := four_le_two_pow w
    exact .inl (signed_ofSigned (by omega) (by omega))

theorem unsigned_one : (one : Word w).unsigned = 1 := by cases w <;> rfl

theorem follows_unsigned :
    Follows (w := w) (fun x => x.unsigned) ult ule umin umax usignum where
  injective _ _ h := BitVec.eq_of_toNat_eq (Int.ofNat.inj h)
  reading_zero := by cases w <;> decide
  reading_one := by rw [unsigned_one, Nat.cast_one]
  lt_iff _ _ := decide_eq_true_iff.trans Int.ofNat_lt.symm
  le_iff _ _ := decide_eq_true_iff.trans Int.ofNat_le.symm
  lesser_eq _ _ := rfl
  greater_eq _ _ := rfl
  reading_signum x := by
    show ((usignum x).unsigned : Int) = (x.unsigned : Int).sign
    rw [usignum]
    split
    · next hZero => rw [hZero, (unsigned_eq_zero_iff zero).mpr rfl]; rfl
    · next hNonzero =>
        have hPos : (0 : Int) < x.unsigned :=
          Int.natCast_pos.mpr (Nat.pos_of_ne_zero (mt x.unsigned_eq_zero_iff.mp hNonzero))
        rw [unsigned_one, Int.sign_eq_one_of_pos hPos, Nat.cast_one]
  reading_minusOne := .inr ⟨by cases w <;> decide, fun x => Int.natCast_nonneg _⟩

/-! ## One order from the other -/

/-- With the sign bit turned over, the signed reading is the unsigned one moved down by half of the
words' number. -/
theorem signed_xor_least (x : Word w) :
    (x.xor least).signed = x.unsigned - 2 ^ (w.bits - 1) := by
  have hCast : ((2 ^ (w.bits - 1) : Nat) : Int) = 2 ^ (w.bits - 1) := Nat.cast_pow 2 _
  rw [(x.xor least).signed_eq_low_sub, x.unsigned_eq_low_add, x.low_xor_least,
    x.isNegative_xor_least, Nat.cast_add]
  cases x.isNegative with
  | false => rfl
  | true =>
      rw [← hCast]
      exact (Int.sub_zero _).trans (Int.add_sub_cancel _ _).symm

/-- The unsigned order is the signed one of the words with their sign bits turned over. -/
theorem ult_eq_slt_xor_least (x y : Word w) : x.ult y = (x.xor least).slt (y.xor least) := by
  rw [Bool.eq_iff_iff, follows_unsigned.lt_iff, follows_signed.lt_iff, signed_xor_least,
    signed_xor_least, Int.sub_lt_sub_right_iff]

/-- The two orders agree on words whose sign bits do, and nowhere else. -/
theorem slt_eq_ult_iff (x y : Word w) : x.slt y = x.ult y ↔ x.isNegative = y.isNegative := by
  have hSplit : x.slt y = (x.isNegative != y.isNegative ^^ x.ult y) := BitVec.slt_eq_ult
  rw [hSplit]
  cases x.isNegative <;> cases y.isNegative <;> cases x.ult y <;> decide

/-! ## Both orders -/

/-- **The signed and the unsigned order are coherent at every width.** Comparison, minimum, maximum and
sign of either family are those of the total order by its reading. The unsigned order is the signed one
with the sign bits turned over, and the two agree on words whose sign bits are equal. -/
theorem order_coherence (w : IntWidth) :
    (IsTotalOrder (w := w) signed slt sle ∧ IsLattice (w := w) sle smin smax ∧
      IsSignum (w := w) signed slt ssignum) ∧
    (IsTotalOrder (w := w) (fun x => x.unsigned) ult ule ∧ IsLattice (w := w) ule umin umax ∧
      IsSignum (w := w) (fun x => x.unsigned) ult usignum) ∧
    ∀ x y : Word w, x.ult y = (x.xor least).slt (y.xor least) ∧
      (x.slt y = x.ult y ↔ x.isNegative = y.isNegative) :=
  ⟨⟨follows_signed.isTotalOrder, follows_signed.isLattice, follows_signed.isSignum⟩,
    ⟨follows_unsigned.isTotalOrder, follows_unsigned.isLattice, follows_unsigned.isSignum⟩,
    fun x y => ⟨ult_eq_slt_xor_least x y, slt_eq_ult_iff x y⟩⟩

end WidthExact.Word
