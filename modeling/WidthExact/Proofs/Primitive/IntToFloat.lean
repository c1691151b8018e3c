import WidthExact.Primitive.Operation
import WidthExact.Proofs.Binary.Order
import WidthExact.Proofs.Word.Readings

/-!
# From integers to floating-point values

A word is read as an integer, signed or not, and the integer is rounded to the target format. The
integers of 64 bits lie far inside of both formats, so that the result is a finite value, nearest to
the integer, and it is in the order of the integers. It is exact where the format holds the integer.

An integer of 64 bits is rounded to the narrow format at once. Rounding it to the wide format first is
another function.

## Main results

* `Binary.isRounded_ofInt`, `Binary.ofInt_le` — any integer.
* `IntToFloatOp.run_eq`, `IntToFloatOp.reading_bounds` — the reading of a word.
* `IntToFloatOp.run_nearest` — both conversions, at all widths.
-/

namespace WidthExact

variable {f : FloatWidth} {w : IntWidth}

namespace Binary

/-! ## Integers -/

theorem ofNat_eq_ofInt (n : Nat) : (ofNat n : Binary f) = ofInt n := by
  have hSign : decide ((n : Int) < 0) = false := decide_eq_false (Int.not_lt.mpr n.cast_nonneg)
  rw [ofInt, hSign]
  rfl

theorem withSign_natAbs (n : Int) : withSign (n < 0) n.natAbs = n := by
  by_cases hNeg : n < 0
  · have hAbs : ((n.natAbs : Int) : ℚ) = ((-n : Int) : ℚ) := by
      exact_mod_cast Int.ofNat_natAbs_of_nonpos hNeg.le
    rw [decide_eq_true hNeg, withSign, if_pos rfl, ← Int.cast_natCast, hAbs, Int.cast_neg, neg_neg]
  · have hAbs : ((n.natAbs : Int) : ℚ) = n := by
      exact_mod_cast Int.natAbs_of_nonneg (Int.not_lt.mp hNeg)
    rw [decide_eq_false hNeg, withSign, if_neg Bool.false_ne_true, ← Int.cast_natCast, hAbs]

/-- An integer is rounded once. -/
theorem isRounded_ofInt (n : Int) : IsRounded (n < 0) n.natAbs (ofInt n : Binary f) := by
  rw [isRounded_iff (Nat.cast_nonneg _), magnitude_ofInt]
  exact ⟨isNegative_ofRatio _ _ Nat.one_pos, ofNat_roundsTo _⟩

theorem ofInt_zero : (ofInt 0 : Binary f) = zero false := by
  refine (isRounded_ofInt 0).underflow ?_
  rw [Int.natAbs_zero, Nat.cast_zero]
  positivity

/-- The order of the magnitudes of two integers is that of the magnitudes of their values. -/
theorem magnitude_ofInt_le {m n : Int} (h : m.natAbs ≤ n.natAbs) :
    (ofInt m : Binary f).magnitude ≤ (ofInt n : Binary f).magnitude := by
  have hScale := twoPow_scale_pos f
  have hLe : (m.natAbs : ℚ) * twoPow f.scale ≤ n.natAbs * twoPow f.scale :=
    mul_le_mul_of_nonneg_right (by exact_mod_cast h) hScale.le
  exact ((isRounded_iff (Nat.cast_nonneg _)).mp (isRounded_ofInt m)).2.mono
    ((isRounded_iff (Nat.cast_nonneg _)).mp (isRounded_ofInt n)).2 hLe

/-- Rounding an integer is monotone. -/
theorem ofInt_le {m n : Int} (h : m ≤ n) : le (ofInt m) (ofInt n : Binary f) = true := by
  have hLeft := isNaN_of_isRounded (Nat.cast_nonneg _) (isRounded_ofInt (f := f) m)
  have hRight := isNaN_of_isRounded (Nat.cast_nonneg _) (isRounded_ofInt (f := f) n)
  have hKey : (ofInt m : Binary f).orderKey ≤ (ofInt n : Binary f).orderKey := by
    unfold orderKey
    rw [(isRounded_ofInt m).sign, (isRounded_ofInt n).sign]
    by_cases hm : m < 0 <;> by_cases hn : n < 0 <;>
      simp only [hm, hn, decide_true, decide_false, if_true, Bool.false_eq_true, if_false]
    · have hOrder := magnitude_ofInt_le (f := f) (m := n) (n := m) (by omega)
      omega
    · omega
    · omega
    · have hOrder := magnitude_ofInt_le (f := f) (m := m) (n := n) (by omega)
      omega
  exact le_iff.mpr ⟨hLeft, hRight, hKey⟩

end Binary

namespace IntToFloatOp

/-! ## Words -/

/-- The integer that a conversion reads its operand as. -/
def reading (op : IntToFloatOp) (x : Word w) : Int :=
  match op with
  | sitofp => x.signed
  | uitofp => x.unsigned

theorem run_eq (op : IntToFloatOp) (x : Word w) : op.run x f = Binary.ofInt (op.reading x) := by
  cases op with
  | sitofp =>
      show Binary.ofInt x.signedCarrier.signed = Binary.ofInt x.signed
      rw [x.signed_signedCarrier]
  | uitofp =>
      show Binary.ofNat x.unsignedCarrier.unsigned = Binary.ofInt x.unsigned
      rw [x.unsigned_unsignedCarrier, Binary.ofNat_eq_ofInt]

theorem ofSigned_reading (op : IntToFloatOp) (x : Word w) :
    (Word.ofSigned (op.reading x) : Word w) = x := by
  cases op with
  | sitofp => exact Word.ofSigned_signed x
  | uitofp => exact Word.ofSigned_unsigned x

theorem natAbs_reading_lt (op : IntToFloatOp) (x : Word w) :
    (op.reading x).natAbs < 2 ^ w.bits := by
  have hCast : ((2 ^ w.bits : Nat) : Int) = 2 ^ w.bits := Nat.cast_pow 2 w.bits
  have hLow := x.le_two_mul_signed
  have hHigh := x.two_mul_signed_lt
  have hUnsigned := x.unsigned_lt
  cases op with
  | sitofp =>
      show x.signed.natAbs < 2 ^ w.bits
      omega
  | uitofp =>
      show (x.unsigned : Int).natAbs < 2 ^ w.bits
      omega

theorem reading_bounds (op : IntToFloatOp) (x : Word w) : (op.reading x).natAbs < 2 ^ 64 :=
  (op.natAbs_reading_lt x).trans_le (Nat.pow_le_pow_right (by decide) w.bits_le)

/-- Both formats go beyond all integers of 64 bits. -/
theorem reading_lt_overflow (op : IntToFloatOp) (x : Word w) (f : FloatWidth) :
    ((op.reading x).natAbs : ℚ) < f.overflow := by
  have hBound : ((op.reading x).natAbs : ℚ) < 2 ^ 64 := by exact_mod_cast op.reading_bounds x
  have hWide : (2 : ℚ) ^ 64 ≤ 2 ^ (f.top - 1) :=
    pow_le_pow_right₀ one_le_two (by cases f <;> decide)
  have hStep : (2 : ℚ) ^ (f.top - f.precision - 1) ≤ 2 ^ (f.top - 1) :=
    pow_le_pow_right₀ one_le_two (by omega)
  have hTop : (2 : ℚ) ^ f.top = 2 ^ (f.top - 1) * 2 := by
    rw [← pow_succ, Nat.sub_add_cancel (by cases f <;> decide)]
  rw [FloatWidth.overflow]
  linarith

theorem isNearest_run (op : IntToFloatOp) (f : FloatWidth) (x : Word w) :
    (op.run x f).IsNearest (op.reading x) := by
  have hNearest := (Binary.isRounded_ofInt (f := f) (op.reading x)).nearest (op.reading_lt_overflow x f)
  rw [Binary.withSign_natAbs] at hNearest
  rwa [op.run_eq x]

/-- **An integer is converted to the nearest value, in one step.** Of the finite values the result is
the nearest to the reading of the operand, on a tie the one with the even significand, and no other
value with its sign is that. Zero becomes the positive zero. So the result is in the order of the
readings, and where the format holds the reading, it is the result. To the narrow format no operand
goes through the wide one, which would not give the same for all of them. -/
theorem run_nearest (op : IntToFloatOp) (f : FloatWidth) (x : Word w) :
    (op.run x f).IsNearest (op.reading x) ∧
      (op.run x f).isNegative = decide (op.reading x < 0) ∧
      (∀ z : Binary f, z.IsNearest (op.reading x) → z.isNegative = decide (op.reading x < 0) →
        z = op.run x f) ∧
      (op.reading x = 0 → op.run x f = Binary.zero false) ∧
      (∀ y : Word w, op.reading x ≤ op.reading y → Binary.le (op.run x f) (op.run y f) = true) ∧
      (∀ z : Binary f, z.isFinite = true → z.value = op.reading x →
        (op.run x f).value = op.reading x) ∧
      ∃ y : Word .w64, op.run y .f32 ≠ (op.run y .f64).fpconv .f32 := by
  have hBound := op.reading_lt_overflow x f
  have hRounded := Binary.isRounded_ofInt (f := f) (op.reading x)
  have hNearest := hRounded.nearest hBound
  rw [Binary.withSign_natAbs] at hNearest
  rw [op.run_eq x]
  refine ⟨hNearest, hRounded.sign, fun z hz hSign => ?_, fun hZero => ?_, fun y hLe => ?_,
    fun z hFinite hValue => ?_, Word.ofUnsigned (2 ^ 60 + 2 ^ 36 + 1), ?_⟩
  · rw [← Binary.withSign_natAbs] at hz
    exact (hz.isRounded (Nat.cast_nonneg _) hBound hSign).unique (Nat.cast_nonneg _) hRounded
  · rw [hZero, Binary.ofInt_zero]
  · rw [op.run_eq y]
    exact Binary.ofInt_le hLe
  · have hClosest := hNearest.closest z hFinite
    rw [hValue, sub_self, abs_zero] at hClosest
    exact sub_eq_zero.mp (abs_eq_zero.mp (le_antisymm hClosest (abs_nonneg _)))
  · cases op <;> decide +kernel

end IntToFloatOp

end WidthExact
