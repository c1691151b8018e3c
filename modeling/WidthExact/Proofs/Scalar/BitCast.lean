import WidthExact.Proofs.Binary.Order
import WidthExact.Proofs.Word.Readings
import WidthExact.Scalar.Basic
import WidthExact.Word.Order

/-!
# Bit patterns and what they denote

A floating-point value and the word that carries its bits are one pattern seen in two ways. Whether the
value is a NaN or an infinity, what its absolute value and its negation are, and how it compares with
another one can all be told from the word, by integer operations with three constants: the least and the
greatest signed word and the word whose exponent field is all ones.

The order of the values is that of a third reading of words, beside the signed and the unsigned one: the
bits below the sign bit as a number, and the sign bit as its sign.

## Main results

* `getLsbD_exponentOnes`, `isNaN_ofBits`, `isInfinite_ofBits_iff` — kinds of values.
* `ofBits_and_greatest`, `ofBits_xor_least` — absolute values and negations.
* `isOrderedAs_ofBits` — comparisons.
* `Scalar.valueEq_ne_bitEq_iff` — where the two equalities of scalars differ.
* `bit_cast_faithful` — all of it.
-/

namespace WidthExact

variable {f : FloatWidth}

/-! ## Words -/

/-- The word with ones in the exponent field and zeros elsewhere. -/
def FloatWidth.exponentOnes (f : FloatWidth) : Word f.patternWidth := Word.ofUnsigned f.infinity

/-- The exponent field lies above the fraction and below the sign bit. -/
theorem FloatWidth.getLsbD_exponentOnes (f : FloatWidth) (k : Nat) :
    f.exponentOnes.getLsbD k = (decide (f.precision - 1 ≤ k) && decide (k < f.bits - 1)) := by
  by_cases hk : k < f.bits
  · revert k
    cases f <;> decide
  · have hBeyond : f.exponentOnes.getLsbD k = false := BitVec.getLsbD_of_ge _ _ (Nat.not_lt.mp hk)
    rw [hBeyond, decide_eq_false (by omega : ¬ k < f.bits - 1), Bool.and_false]

theorem FloatWidth.unsigned_exponentOnes (f : FloatWidth) : f.exponentOnes.unsigned = f.infinity := by
  cases f <;> decide

namespace Word

variable {w : IntWidth}

/-- The bits below the sign bit as a number, negative where the sign bit is set. -/
def signMagnitude (x : Word w) : Int := if x.isNegative then -x.low else x.low

/-- A word without bits below the sign bit. -/
theorem low_eq_zero_iff (x : Word w) : x.low = 0 ↔ x = zero ∨ x = least := by
  have hZero : (zero : Word w).isNegative = false ∧ (zero : Word w).low = 0 := by
    cases w <;> decide
  have hLeast : (least : Word w).isNegative = true ∧ (least : Word w).low = 0 := by
    cases w <;> decide
  constructor
  · intro hLow
    cases hSign : x.isNegative with
    | false => exact .inl (eq_of_low_eq (hSign.trans hZero.1.symm) (hLow.trans hZero.2.symm))
    | true => exact .inr (eq_of_low_eq (hSign.trans hLeast.1.symm) (hLow.trans hLeast.2.symm))
  · rintro (rfl | rfl)
    · exact hZero.2
    · exact hLeast.2

end Word

namespace Binary

/-! ## Kinds of values -/

theorem magnitude_ofBits (n : Word f.patternWidth) : (ofBits n : Binary f).magnitude = n.low := rfl

/-- What values are compared by is the sign-magnitude reading of their patterns. -/
theorem orderKey_ofBits (n : Word f.patternWidth) :
    (ofBits n : Binary f).orderKey = n.signMagnitude := rfl

theorem isNaN_ofBits (n : Word f.patternWidth) :
    (ofBits n : Binary f).isNaN = f.exponentOnes.ult (n.and Word.greatest) := by
  rw [Word.ult, f.unsigned_exponentOnes, Word.unsigned_and_greatest]
  rfl

theorem isInfinite_ofBits_iff (n : Word f.patternWidth) :
    (ofBits n : Binary f).isInfinite = true ↔ n.and Word.greatest = f.exponentOnes := by
  have hWords : n.and Word.greatest = f.exponentOnes ↔ n.low = f.infinity := by
    rw [← f.unsigned_exponentOnes, ← n.unsigned_and_greatest]
    exact BitVec.toNat_inj.symm
  rw [hWords, isInfinite, magnitude_ofBits, decide_eq_true_iff]

theorem isZero_ofBits_iff (n : Word f.patternWidth) :
    (ofBits n : Binary f).isZero = true ↔ n = Word.zero ∨ n = Word.least :=
  decide_eq_true_iff.trans n.low_eq_zero_iff

/-! ## Signs -/

/-- `y` is the absolute value of `x`; an infinity has one, and that of a NaN is a NaN. -/
structure IsAbsolute (x y : Binary f) : Prop where
  sign : y.isNegative = false
  isNaN_eq : y.isNaN = x.isNaN
  isInfinite_eq : y.isInfinite = x.isInfinite
  value : x.isFinite = true → y.isFinite = true ∧ y.value = |x.value|

/-- `y` is the negation of `x`, in the same sense. -/
structure IsNegation (x y : Binary f) : Prop where
  sign : y.isNegative = !x.isNegative
  isNaN_eq : y.isNaN = x.isNaN
  isInfinite_eq : y.isInfinite = x.isInfinite
  value : x.isFinite = true → y.isFinite = true ∧ y.value = -x.value

theorem size_eq_of_magnitude {x y : Binary f} (h : y.magnitude = x.magnitude) : y.size = x.size := by
  rw [size, size, units, units, h]

theorem isAbsolute_absolute (x : Binary f) : IsAbsolute x x.absolute := by
  have hLt : x.magnitude < f.signWeight := Nat.mod_lt _ (twoPow_pos _)
  have hSign : x.absolute.isNegative = false := isNegative_ofMagnitude_of_lt _ hLt
  have hMagnitude : x.absolute.magnitude = x.magnitude := magnitude_ofMagnitude_of_lt _ hLt
  refine ⟨hSign, ?_, ?_, fun hFinite => ⟨?_, ?_⟩⟩
  · rw [isNaN, hMagnitude]; rfl
  · rw [isInfinite, hMagnitude]; rfl
  · rw [isFinite, hMagnitude]; exact hFinite
  · rw [abs_value, value_eq, hSign, size_eq_of_magnitude hMagnitude]
    rfl

theorem isNegation_negate (x : Binary f) : IsNegation x x.negate := by
  have hMagnitude := x.magnitude_negate
  refine ⟨x.isNegative_negate, ?_, ?_, fun hFinite => ⟨x.isFinite_negate.trans hFinite, ?_⟩⟩
  · rw [isNaN, hMagnitude]; rfl
  · rw [isInfinite, hMagnitude]; rfl
  · rw [value_eq, value_eq, x.isNegative_negate, size_eq_of_magnitude hMagnitude]
    cases x.isNegative with
    | false => rfl
    | true => exact (neg_neg _).symm

theorem ofBits_and_greatest (n : Word f.patternWidth) :
    (ofBits (n.and Word.greatest) : Binary f) = (ofBits n).absolute :=
  eq_ofMagnitude n.isNegative_and_greatest n.low_and_greatest

theorem ofBits_xor_least (n : Word f.patternWidth) :
    (ofBits (n.xor Word.least) : Binary f) = (ofBits n).negate :=
  eq_ofMagnitude n.isNegative_xor_least n.low_xor_least

/-- `x` is what the pattern `n` denotes, as far as it can be told by operations on words. -/
structure IsBitCast (n : Word f.patternWidth) (x : Binary f) : Prop where
  toBits_eq : x.toBits = n
  isNaN_iff : x.isNaN = true ↔ f.exponentOnes.ult (n.and Word.greatest) = true
  isInfinite_iff : x.isInfinite = true ↔ n.and Word.greatest = f.exponentOnes
  absolute : IsAbsolute x (ofBits (n.and Word.greatest))
  negation : IsNegation x (ofBits (n.xor Word.least))

theorem isBitCast_ofBits (n : Word f.patternWidth) : IsBitCast n (ofBits n : Binary f) where
  toBits_eq := toBits_ofBits n
  isNaN_iff := by rw [isNaN_ofBits]
  isInfinite_iff := isInfinite_ofBits_iff n
  absolute := by
    rw [ofBits_and_greatest]
    exact isAbsolute_absolute _
  negation := by
    rw [ofBits_xor_least]
    exact isNegation_negate _

/-! ## Comparisons -/

/-- Two values are compared as the numbers that they denote and as the sign-magnitude readings of their
patterns, in which the zeros are one. -/
structure IsOrderedAs (m n : Word f.patternWidth) (x y : Binary f) : Prop where
  lt_iff : (lt x y = true ↔ x.number < y.number) ∧
    (x.number < y.number ↔ m.signMagnitude < n.signMagnitude)
  le_iff : (le x y = true ↔ x.number ≤ y.number) ∧
    (x.number ≤ y.number ↔ m.signMagnitude ≤ n.signMagnitude)
  eq_iff : (eq x y = true ↔ x.number = y.number) ∧
    (x.number = y.number ↔ m.signMagnitude = n.signMagnitude)
  same_iff : m.signMagnitude = n.signMagnitude ↔
    m = n ∨ ((m = Word.zero ∨ m = Word.least) ∧ (n = Word.zero ∨ n = Word.least))

theorem isOrderedAs_ofBits {m n : Word f.patternWidth} (hm : (ofBits m : Binary f).isNaN = false)
    (hn : (ofBits n : Binary f).isNaN = false) :
    IsOrderedAs m n (ofBits m : Binary f) (ofBits n) := by
  have hLe : (ofBits m : Binary f).number ≤ (ofBits n : Binary f).number ↔
      m.signMagnitude ≤ n.signMagnitude := number_le_iff hm hn
  have hGe : (ofBits n : Binary f).number ≤ (ofBits m : Binary f).number ↔
      n.signMagnitude ≤ m.signMagnitude := number_le_iff hn hm
  have hLt := lt_iff_lt_of_le_iff_le hGe
  have hEq : (ofBits m : Binary f).number = (ofBits n : Binary f).number ↔
      m.signMagnitude = n.signMagnitude := by
    rw [le_antisymm_iff, hLe, hGe, ← le_antisymm_iff]
  refine ⟨⟨?_, hLt⟩, ⟨?_, hLe⟩, ⟨?_, hEq⟩, ?_⟩
  · rw [lt_iff, hLt, and_iff_right hm, and_iff_right hn, orderKey_ofBits, orderKey_ofBits]
  · rw [le_iff, hLe, and_iff_right hm, and_iff_right hn, orderKey_ofBits, orderKey_ofBits]
  · rw [eq_iff, hEq, and_iff_right hm, and_iff_right hn, orderKey_ofBits, orderKey_ofBits]
  · rw [← isZero_ofBits_iff, ← isZero_ofBits_iff]
    constructor
    · intro h
      exact (eq_or_isZero_of_orderKey h).imp_left (congrArg toBits)
    · rintro (rfl | ⟨hx, hy⟩)
      · rfl
      · exact (orderKey_of_isZero hx).trans (orderKey_of_isZero hy).symm

theorem eq_self (x : Binary f) : eq x x = !x.isNaN := by
  rw [eq, decide_eq_true rfl, Bool.and_true, Bool.and_self]

/-- Of two patterns, one number is zero with either sign. -/
theorem eq_of_ne_iff {x y : Binary f} (hNe : x ≠ y) :
    eq x y = true ↔ x.isZero = true ∧ y.isZero = true ∧ x.isNegative ≠ y.isNegative := by
  rw [eq_iff]
  constructor
  · rintro ⟨-, -, hKey⟩
    obtain ⟨hx, hy⟩ := (eq_or_isZero_of_orderKey hKey).resolve_left hNe
    have hMagnitude : x.magnitude = y.magnitude :=
      (of_decide_eq_true hx : x.magnitude = 0).trans (of_decide_eq_true hy : y.magnitude = 0).symm
    refine ⟨hx, hy, fun hSign => hNe ?_⟩
    rw [eq_ofMagnitude hSign hMagnitude, ofMagnitude_self]
  · rintro ⟨hx, hy, -⟩
    exact ⟨isNaN_of_isZero hx, isNaN_of_isZero hy,
      (orderKey_of_isZero hx).trans (orderKey_of_isZero hy).symm⟩

end Binary

/-! ## The two equalities of scalars -/

/-- A NaN has its own bits and is not equal to itself; the zeros are equal and differ in a bit. Nothing
else sets the two equalities apart. -/
theorem Scalar.valueEq_ne_bitEq_iff (x y : Binary f) :
    (float f x).valueEq (float f y) ≠ (float f x).bitEq (float f y) ↔
      (x = y ∧ x.isNaN = true) ∨
        (x.isZero = true ∧ y.isZero = true ∧ x.isNegative ≠ y.isNegative) := by
  have hValue : (float f x).valueEq (float f y) = Binary.eq x y := dif_pos rfl
  have hBits : (float f x).bitEq (float f y) = decide (x = y) :=
    decide_eq_decide.mpr ⟨fun h => eq_of_heq (Scalar.float.inj h).2, congrArg (float f)⟩
  rw [hValue, hBits]
  by_cases hSame : x = y
  · subst hSame
    rw [Binary.eq_self, decide_eq_true rfl]
    simp
  · rw [decide_eq_false hSame, Bool.ne_false_iff, Binary.eq_of_ne_iff hSame]
    simp [hSame]

/-! ## Bit casts -/

open Binary in
/-- **Bit casts are faithful, and the predicates agree with the bit fields.** A word is read back from
the value that it denotes, and it tells of the value whether it is a NaN or an infinity, what its
absolute value is and what its negation is. The order of two values that are no NaNs is that of the
numbers denoted and that of the patterns by sign and magnitude, in which the zeros are one number. As
scalars of one type, two values are equal in one sense and not in the other if both are one NaN pattern
or they are zeros of opposite sign. -/
theorem bit_cast_faithful (f : FloatWidth) :
    (∀ k, f.exponentOnes.getLsbD k = (decide (f.precision - 1 ≤ k) && decide (k < f.bits - 1))) ∧
    (∀ n : Word f.patternWidth, IsBitCast n (ofBits n : Binary f)) ∧
    (∀ m n : Word f.patternWidth, (ofBits m : Binary f).isNaN = false →
      (ofBits n : Binary f).isNaN = false → IsOrderedAs m n (ofBits m : Binary f) (ofBits n)) ∧
    ∀ x y : Binary f,
      (Scalar.float f x).valueEq (.float f y) ≠ (Scalar.float f x).bitEq (.float f y) ↔
        (x = y ∧ x.isNaN = true) ∨
          (x.isZero = true ∧ y.isZero = true ∧ x.isNegative ≠ y.isNegative) :=
  ⟨f.getLsbD_exponentOnes, isBitCast_ofBits, fun _ _ => isOrderedAs_ofBits,
    Scalar.valueEq_ne_bitEq_iff⟩

/-- A signalling NaN of the wide format keeps its payload and equals itself by its bits alone; the
negative infinity lies below minus one, although its pattern is the greater word. -/
theorem bit_cast_faithful_signalling :
    (Binary.ofBits 0x7ff0000000000001#64 : Binary .f64).toBits = 0x7ff0000000000001#64 ∧
      (Binary.ofBits 0x7ff0000000000001#64 : Binary .f64).isNaN = true ∧
      Binary.lt (Binary.ofBits 0xfff0000000000000#64 : Binary .f64)
        (Binary.ofBits 0xbff0000000000000#64) = true ∧
      (Scalar.float .f64 ⟨0x7ff0000000000001#64⟩).valueEq (.float .f64 ⟨0x7ff0000000000001#64⟩) ≠
        (Scalar.float .f64 ⟨0x7ff0000000000001#64⟩).bitEq (.float .f64 ⟨0x7ff0000000000001#64⟩) := by
  obtain ⟨-, hCast, hOrder, hEqualities⟩ := bit_cast_faithful .f64
  have hNaN := hCast 0x7ff0000000000001#64
  have hBelow := hOrder 0xfff0000000000000#64 0xbff0000000000000#64 (by decide) (by decide)
  exact ⟨hNaN.toBits_eq, hNaN.isNaN_iff.mpr (by decide),
    hBelow.lt_iff.1.mpr (hBelow.lt_iff.2.mpr (by decide)),
    (hEqualities _ _).mpr (.inl ⟨rfl, by decide⟩)⟩

end WidthExact
