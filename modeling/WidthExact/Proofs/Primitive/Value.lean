import WidthExact.Primitive.Operation
import WidthExact.Proofs.Word.Division
import WidthExact.Proofs.Word.Power
import WidthExact.Proofs.Word.Shift

/-!
# Operations on integers

What an operation gives on integers, before its result is wrapped into a width. At every width, an
operation on words is the operation on readings of its operands, wrapped once: on the signed readings
(`bySigned`), on the unsigned ones (`byUnsigned`), or on any integers that wrap into the operands
(`wraparound`).

## Main results

* `IntBinaryOp.run_ofSigned`, `IntBinaryOp.run_signed`, `IntBinaryOp.run_unsigned` — operations on two
  words.
* `Word.shl_ofSigned`, `Word.ashr_eq`, `Word.lshr_eq` — shifts by less than the width.
* `IntConvertOp.run_eq_ofSigned`, `IntConvertOp.run_ofSigned` — conversions.
-/

namespace WidthExact

open Word

variable {v w : IntWidth}

/-! ## Operations on two integers -/

namespace IntBinaryOp

/-- The integer that an operation gives on two integers. Shift amounts are not negative; the bits of a
negative integer go on to the left as ones. -/
def value (op : IntBinaryOp) (a b : Int) : Int :=
  match op with
  | add => a + b
  | sub => a - b
  | mul => a * b
  | pow => if b ≤ 0 then 1 else a ^ b.toNat
  | or => a.lor b
  | xor => a.xor b
  | and => a.land b
  | shl => a * 2 ^ b.toNat
  | ashr | lshr => a / 2 ^ b.toNat
  | squot => a.tdiv b
  | srem => a.tmod b
  | sdiv => a.fdiv b
  | smod => a.fmod b
  | udiv => a / b
  | umod => a % b
  | smin | umin => if a ≤ b then a else b
  | smax | umax => if a ≤ b then b else a

/-- The operations that do not tell integers apart which wrap into one word. -/
def wraparound : List IntBinaryOp := [add, sub, mul, or, xor, and]

/-- The operations that are told by the signed readings of their operands. -/
def bySigned : List IntBinaryOp :=
  [add, sub, mul, pow, or, xor, and, smin, smax, squot, srem, sdiv, smod]

/-- The operations that are told by the unsigned readings of their operands. -/
def byUnsigned : List IntBinaryOp := [add, sub, mul, or, xor, and, umin, umax, udiv, umod]

theorem run_ofSigned {op : IntBinaryOp} (hOp : op ∈ wraparound) (a b : Int) :
    op.run (ofSigned a : Word w) (ofSigned b) = .ok (ofSigned (op.value a b)) := by
  cases op with
  | add => exact congrArg Except.ok (add_ofSigned a b)
  | sub => exact congrArg Except.ok (sub_ofSigned a b)
  | mul => exact congrArg Except.ok (mul_ofSigned a b)
  | or => exact congrArg Except.ok (or_ofSigned a b)
  | xor => exact congrArg Except.ok (xor_ofSigned a b)
  | and => exact congrArg Except.ok (and_ofSigned a b)
  | _ => exact absurd hOp (by decide)

end IntBinaryOp

theorem Word.pow_eq (x y : Word w) :
    x.pow y = ofSigned (IntBinaryOp.pow.value x.signed y.signed) := by
  show x.pow y = ofSigned (if y.signed ≤ 0 then 1 else x.signed ^ y.signed.toNat)
  split
  · next hNonpos => rw [x.pow_of_nonpos hNonpos, one_eq_ofSigned]
  · next hPos => exact x.pow_of_pos (Int.not_le.mp hPos)

/-- The choice of the lesser of two words, by any reading of both. -/
theorem Word.lesser_eq {x y : Word w} {a b : Int} (hx : ofSigned a = x) (hy : ofSigned b = y)
    {below : Bool} (hBelow : below = true ↔ b < a) :
    (if below then y else x) = ofSigned (if a ≤ b then a else b) := by
  by_cases hLt : b < a
  · rw [if_pos (hBelow.mpr hLt), if_neg (Int.not_le.mpr hLt), hy]
  · rw [if_neg (mt hBelow.mp hLt), if_pos (Int.not_lt.mp hLt), hx]

/-- The choice of the greater of two words, by any reading of both. -/
theorem Word.greater_eq {x y : Word w} {a b : Int} (hx : ofSigned a = x) (hy : ofSigned b = y)
    {below : Bool} (hBelow : below = true ↔ b < a) :
    (if below then x else y) = ofSigned (if a ≤ b then b else a) := by
  by_cases hLt : b < a
  · rw [if_pos (hBelow.mpr hLt), if_neg (Int.not_le.mpr hLt), hx]
  · rw [if_neg (mt hBelow.mp hLt), if_pos (Int.not_lt.mp hLt), hy]

theorem Word.slt_iff (x y : Word w) : x.slt y = true ↔ x.signed < y.signed := decide_eq_true_iff

theorem Word.ult_iff (x y : Word w) : x.ult y = true ↔ (x.unsigned : Int) < y.unsigned :=
  decide_eq_true_iff.trans Int.ofNat_lt.symm

namespace IntBinaryOp

theorem run_signed {op : IntBinaryOp} (hOp : op ∈ bySigned) (x : Word w) {y : Word w}
    (hDivisor : op.isDivision = true → y ≠ zero) :
    op.run x y = .ok (ofSigned (op.value x.signed y.signed)) := by
  by_cases hWrap : op ∈ wraparound
  · have hRun := run_ofSigned (w := w) hWrap x.signed y.signed
    rwa [ofSigned_signed, ofSigned_signed] at hRun
  · cases op with
    | pow => exact congrArg Except.ok (x.pow_eq y)
    | smin =>
        exact congrArg Except.ok
          (lesser_eq (ofSigned_signed x) (ofSigned_signed y) (slt_iff y x))
    | smax =>
        exact congrArg Except.ok
          (greater_eq (ofSigned_signed x) (ofSigned_signed y) (slt_iff y x))
    | squot => exact x.squot_eq (hDivisor rfl)
    | srem => exact x.srem_eq (hDivisor rfl)
    | sdiv => exact x.sdiv_eq (hDivisor rfl)
    | smod => exact x.smod_eq (hDivisor rfl)
    | add | sub | mul | or | xor | and => exact absurd (by decide) hWrap
    | _ => exact absurd hOp (by decide)

theorem run_unsigned {op : IntBinaryOp} (hOp : op ∈ byUnsigned) (x : Word w) {y : Word w}
    (hDivisor : op.isDivision = true → y ≠ zero) :
    op.run x y = .ok (ofSigned (op.value x.unsigned y.unsigned)) := by
  by_cases hWrap : op ∈ wraparound
  · have hRun := run_ofSigned (w := w) hWrap x.unsigned y.unsigned
    rwa [ofSigned_unsigned, ofSigned_unsigned] at hRun
  · cases op with
    | umin =>
        exact congrArg Except.ok
          (lesser_eq (ofSigned_unsigned x) (ofSigned_unsigned y) (ult_iff y x))
    | umax =>
        exact congrArg Except.ok
          (greater_eq (ofSigned_unsigned x) (ofSigned_unsigned y) (ult_iff y x))
    | udiv => exact x.udiv_eq (hDivisor rfl)
    | umod => exact x.umod_eq (hDivisor rfl)
    | add | sub | mul | or | xor | and => exact absurd (by decide) hWrap
    | _ => exact absurd hOp (by decide)

end IntBinaryOp

/-! ## Shifts -/

namespace Word

variable {y : Word w} (hLow : 0 ≤ y.signed) (hHigh : y.signed < w.bits)

include hLow hHigh

theorem toNat_signed_lt_bits : y.signed.toNat < w.bits := by omega

/-- An amount below the width is its own residue. -/
theorem shiftAmount_mod_eq : y.shiftAmount % w.bits = y.signed.toNat := by
  rw [shiftAmount_mod_bits, shiftPlaces, Int.emod_eq_of_lt hLow hHigh]

theorem shl_ofSigned (a : Int) :
    (ofSigned a : Word w).shl y = ofSigned (IntBinaryOp.shl.value a y.signed) := by
  rw [shl, shiftLeft_eq, shiftAmount_mod_eq hLow hHigh]
  rfl

theorem ashr_eq (x : Word w) :
    x.ashr y = ofSigned (IntBinaryOp.ashr.value x.signed y.signed) := by
  rw [← ofSigned_signed (x.ashr y), ashr, signed_shiftRightSigned, shiftAmount_mod_eq hLow hHigh]
  rfl

theorem lshr_eq (x : Word w) :
    x.lshr y = ofSigned (IntBinaryOp.lshr.value x.unsigned y.signed) := by
  rw [← ofSigned_unsigned (x.lshr y), lshr, unsigned_shiftRight, shiftAmount_mod_eq hLow hHigh,
    Int.natCast_ediv, Nat.cast_pow]
  rfl

end Word

/-! ## Conversions -/

namespace IntConvertOp

/-- The reading that a conversion extends. -/
def reading (op : IntConvertOp) (x : Word w) : Int :=
  match op with
  | sext => x.signed
  | zext => x.unsigned

@[simp] theorem ofSigned_reading (op : IntConvertOp) (x : Word w) :
    (ofSigned (op.reading x) : Word w) = x := by
  cases op with
  | sext => exact ofSigned_signed x
  | zext => exact ofSigned_unsigned x

theorem run_eq_ofSigned (op : IntConvertOp) (x : Word w) (v : IntWidth) :
    op.run x v = ofSigned (op.reading x) := by
  cases op with
  | sext => exact sext_eq_ofSigned x v
  | zext => exact zext_eq_ofSigned x v

theorem run_ofSigned (op : IntConvertOp) (hNarrower : v.bits ≤ w.bits) (a : Int) :
    op.run (ofSigned a : Word w) v = ofSigned a := by
  cases op with
  | sext => exact sext_ofSigned hNarrower a
  | zext => exact zext_ofSigned hNarrower a

/-- A word that is not negative is widened alike by its sign bit and by zeros. -/
theorem signed_run_of_nonneg (op : IntConvertOp) (hWider : v.bits ≤ w.bits) {x : Word v}
    (hNonneg : 0 ≤ x.signed) : (op.run x w).signed = x.signed := by
  have hReading : op.reading x = x.signed := by
    cases op with
    | sext => rfl
    | zext =>
        have hUnsigned := x.unsigned_eq
        rwa [if_neg (Int.not_lt.mpr hNonneg)] at hUnsigned
  rw [run_eq_ofSigned, hReading, ← sext_eq_ofSigned]
  exact signed_sext hWider x

end IntConvertOp

end WidthExact
