import Mathlib.Data.Int.ConditionallyCompleteOrder
import WidthExact.Primitive.Operation
import WidthExact.Proofs.Binary.Truncation
import WidthExact.Proofs.Word.Readings

/-!
# From floating-point values to integers

A value is converted in three stages. It is truncated toward zero, the whole part is clamped to the
range of an integer of 64 bits, signed or not, and the low bits of that are kept. An infinity is
beyond every integer and comes to the end of the range; a NaN becomes zero. So what lies outside of
the target width wraps as long as it is in the range of the 64 bits, and outside of that range
everything gives the low bits of the range's end.

## Main results

* `FloatToIntOp.run_of_isFinite`, `FloatToIntOp.run_of_isInfinite`, `FloatToIntOp.run_of_isNaN` — the
  three kinds of values.
* `FloatToIntOp.run_saturated` — all of them, with truncation to integers that are extended by the two
  infinities.
-/

namespace WidthExact

variable {f : FloatWidth}

namespace FloatToIntOp

/-! ## The range of 64 bits -/

/-- The least integer of 64 bits that a conversion goes through. -/
def least : FloatToIntOp → Int
  | fptosi => -2 ^ 63
  | fptoui => 0

/-- The greatest one. -/
def most : FloatToIntOp → Int
  | fptosi => 2 ^ 63 - 1
  | fptoui => 2 ^ 64 - 1

/-- An integer moved to the nearer end of the range if it lies outside. -/
def clamp (op : FloatToIntOp) (n : Int) : Int := max op.least (min n op.most)

theorem least_le_most (op : FloatToIntOp) : op.least ≤ op.most := by cases op <;> decide

theorem clamp_of_mem {op : FloatToIntOp} {n : Int} (hLow : op.least ≤ n) (hHigh : n ≤ op.most) :
    op.clamp n = n := by
  rw [clamp, min_eq_left hHigh, max_eq_right hLow]

/-! ## Into 64 bits -/

/-- The word of 64 bits that an integral value is converted to. -/
def carrier (op : FloatToIntOp) (x : Binary f) : Word .w64 :=
  match op with
  | fptosi => x.toSigned64
  | fptoui => x.toUnsigned64

variable {x : Binary f}

theorem carrier_of_isFinite (op : FloatToIntOp) (hFinite : x.isFinite = true) :
    op.carrier x = Word.ofSigned (op.clamp (truncated x.value)) := by
  have hNumber := Binary.isNaN_of_isFinite hFinite
  cases op with
  | fptosi =>
      have hPow : twoPow 63 = 9223372036854775808 := rfl
      refine congrArg Word.ofSigned ?_
      rw [hNumber, hFinite, x.truncated_value, clamp, least, most, hPow]
      cases x.isNegative <;> simp only [if_true, Bool.false_eq_true, if_false] <;> omega
  | fptoui =>
      have hPow : twoPow 64 = 18446744073709551616 := rfl
      refine (Word.ofSigned_natCast _).symm.trans (congrArg Word.ofSigned ?_)
      rw [hNumber, hFinite, x.truncated_value, clamp, least, most, hPow]
      cases x.isNegative <;> simp only [if_true, Bool.false_eq_true, if_false] <;> omega

theorem carrier_of_isInfinite (op : FloatToIntOp) (hInfinite : x.isInfinite = true) :
    op.carrier x = Word.ofSigned (if x.isNegative then op.least else op.most) := by
  have hNumber := Binary.isNaN_of_isInfinite hInfinite
  have hNot := Binary.isFinite_of_isInfinite hInfinite
  cases op with
  | fptosi =>
      refine congrArg Word.ofSigned ?_
      rw [hNumber, hNot]
      cases x.isNegative <;> rfl
  | fptoui =>
      refine (Word.ofSigned_natCast _).symm.trans (congrArg Word.ofSigned ?_)
      rw [hNumber, hNot]
      cases x.isNegative <;> rfl

theorem carrier_of_isNaN (op : FloatToIntOp) (hNaN : x.isNaN = true) :
    op.carrier x = Word.ofSigned 0 := by
  cases op with
  | fptosi =>
      refine congrArg Word.ofSigned ?_
      rw [hNaN]
      cases x.isNegative <;> rfl
  | fptoui =>
      refine (Word.ofSigned_natCast _).symm.trans (congrArg Word.ofSigned ?_)
      rw [hNaN]
      rfl

/-! ## Into a word -/

variable (op : FloatToIntOp) (w : IntWidth)

theorem run_eq_of_carrier {n : Int} (h : op.carrier x.truncate = Word.ofSigned n) :
    op.run x w = Word.ofSigned n := by
  have hRun : op.run x w = Word.ofCarrier (op.carrier x.truncate) := by cases op <;> rfl
  rw [hRun, h]
  exact Word.setWidth_ofInt w.bits_le n

theorem run_of_isFinite (hFinite : x.isFinite = true) :
    op.run x w = Word.ofSigned (op.clamp (truncated x.value)) := by
  refine op.run_eq_of_carrier w ?_
  rw [op.carrier_of_isFinite (Binary.isFinite_truncate hFinite), Binary.value_truncate hFinite,
    truncated_intCast]

theorem run_of_isInfinite (hInfinite : x.isInfinite = true) :
    op.run x w = Word.ofSigned (if x.isNegative then op.least else op.most) := by
  refine op.run_eq_of_carrier w ?_
  rw [Binary.truncate_of_not_isFinite (Binary.isFinite_of_isInfinite hInfinite)]
  exact op.carrier_of_isInfinite hInfinite

theorem run_of_isNaN (hNaN : x.isNaN = true) : op.run x w = Word.zero := by
  rw [Word.zero_eq_ofSigned]
  refine op.run_eq_of_carrier w ?_
  rw [Binary.truncate_of_not_isFinite (Binary.isFinite_of_isNaN hNaN)]
  exact op.carrier_of_isNaN hNaN

end FloatToIntOp

/-! ## Beyond the range -/

/-- The integers with an infinity at either end. -/
abbrev ExtendedInt := WithBot (WithTop Int)

/-- An integer as one of them. -/
def ExtendedInt.ofInt (n : Int) : ExtendedInt := ((n : WithTop Int) : WithBot (WithTop Int))

theorem ExtendedInt.ofInt_inj {m n : Int} : ofInt m = ofInt n ↔ m = n :=
  WithBot.coe_inj.trans WithTop.coe_inj

theorem ExtendedInt.ofInt_le {m n : Int} : ofInt m ≤ ofInt n ↔ m ≤ n :=
  WithBot.coe_le_coe.trans WithTop.coe_le_coe

/-- What a value is truncated to: an infinity stays beyond all integers. -/
def Binary.truncation (x : Binary f) : ExtendedInt :=
  if x.isInfinite then if x.isNegative then ⊥ else ⊤ else .ofInt (truncated x.value)

namespace FloatToIntOp

open ExtendedInt

theorem exists_run_eq {x : Binary f} (op : FloatToIntOp) (w : IntWidth) (hNumber : x.isNaN = false) :
    ∃ n : Int, ofInt n = max (ofInt op.least) (min x.truncation (ofInt op.most)) ∧
      op.run x w = Word.ofSigned n := by
  rcases Binary.isFinite_or_isInfinite hNumber with hFinite | hInfinite
  · refine ⟨op.clamp (truncated x.value), ?_, op.run_of_isFinite w hFinite⟩
    rw [Binary.truncation, Binary.isInfinite_of_isFinite hFinite]
    rfl
  · refine ⟨_, ?_, op.run_of_isInfinite w hInfinite⟩
    rw [Binary.truncation, hInfinite]
    cases x.isNegative with
    | false =>
        show ofInt op.most = max (ofInt op.least) (min ⊤ (ofInt op.most))
        rw [min_eq_right le_top, max_eq_right (ofInt_le.mpr op.least_le_most)]
    | true =>
        show ofInt op.least = max (ofInt op.least) (min ⊥ (ofInt op.most))
        rw [min_eq_left bot_le, max_eq_left bot_le]

/-- **Truncate, saturate at 64 bits, wrap.** A NaN becomes zero. Any other value is truncated toward
zero, clamped to the range of 64 bits and reduced modulo `2 ^ w.bits`, in signed representation. So
within the range it wraps, and beyond one end of the range the result is what is left of that end. -/
theorem run_saturated (op : FloatToIntOp) (x : Binary f) (w : IntWidth) :
    (x.isNaN = true → op.run x w = Word.zero) ∧
      (x.isNaN = false →
        (∃ n : Int, ofInt n = max (ofInt op.least) (min x.truncation (ofInt op.most)) ∧
          (op.run x w).signed = n.bmod (2 ^ w.bits)) ∧
        (∀ t : Int, x.truncation = ofInt t → op.least ≤ t → t ≤ op.most →
          (op.run x w).signed = t.bmod (2 ^ w.bits)) ∧
        (x.truncation < ofInt op.least → (op.run x w).signed = op.least.bmod (2 ^ w.bits)) ∧
        (ofInt op.most < x.truncation → (op.run x w).signed = op.most.bmod (2 ^ w.bits))) := by
  refine ⟨op.run_of_isNaN w, fun hNumber => ?_⟩
  obtain ⟨n, hClamped, hRun⟩ := op.exists_run_eq w hNumber
  have hSigned : (op.run x w).signed = n.bmod (2 ^ w.bits) := by
    rw [hRun, Word.signed_ofSigned_bmod]
  have hEnds := ofInt_le.mpr op.least_le_most
  refine ⟨⟨n, hClamped, hSigned⟩, fun t hInside hLow hHigh => ?_, fun hBelow => ?_, fun hAbove => ?_⟩
  · rw [hInside, min_eq_left (ofInt_le.mpr hHigh), max_eq_right (ofInt_le.mpr hLow)] at hClamped
    rw [hSigned, ofInt_inj.mp hClamped]
  · rw [min_eq_left (hBelow.le.trans hEnds), max_eq_left hBelow.le] at hClamped
    rw [hSigned, ofInt_inj.mp hClamped]
  · rw [min_eq_right hAbove.le, max_eq_right hEnds] at hClamped
    rw [hSigned, ofInt_inj.mp hClamped]

/-- `130.9` in a signed byte, the negative infinity without a sign, and a NaN. -/
theorem run_saturated_wraps :
    (fptosi.run (⟨0x40605ccccccccccd#64⟩ : Binary .f64) .w8).signed = -126 ∧
      (fptoui.run (⟨0xff800000#32⟩ : Binary .f32) .w64).signed = 0 ∧
      fptosi.run (⟨0x7fc00001#32⟩ : Binary .f32) .w16 = Word.zero := by
  obtain ⟨-, hNumber⟩ := run_saturated fptosi (⟨0x40605ccccccccccd#64⟩ : Binary .f64) .w8
  obtain ⟨-, hInfinity⟩ := run_saturated fptoui (⟨0xff800000#32⟩ : Binary .f32) .w64
  obtain ⟨hNaN, -⟩ := run_saturated fptosi (⟨0x7fc00001#32⟩ : Binary .f32) .w16
  have hTruncation : (⟨0x40605ccccccccccd#64⟩ : Binary .f64).truncation = ofInt 130 :=
    congrArg ofInt (by decide +kernel)
  exact ⟨(hNumber (by decide)).2.1 130 hTruncation (by decide) (by decide),
    (hInfinity (by decide)).2.2.1 (WithBot.bot_lt_coe _), hNaN (by decide)⟩

end FloatToIntOp

end WidthExact
