import WidthExact.Proofs.Primitive.FloatToInt
import WidthExact.Proofs.Primitive.IntToFloat

/-!
# Integers to floating-point values and back

An integer that a format represents comes back from it as it was. Another one comes back as the value
that it was rounded to, and that is no way to get it again: the value is off by less than the integer
itself, so that the low bits are off as well. There is one exception. The greatest integer of 64 bits
is rounded up to a power of two that is out of range, and the range's end, to which that is clamped, is
the integer.

## Main results

* `FloatWidth.represents_iff` — the integers that a format represents.
* `IntToFloatOp.natAbs_truncated_sub_le` — how far an integer is moved.
* `IntToFloatOp.round_trip_iff` — the integers that come back.
-/

namespace WidthExact

variable {f : FloatWidth} {w : IntWidth}

/-! ## Represented integers -/

/-- An integer is a value of the format. -/
def FloatWidth.Represents (f : FloatWidth) (n : Int) : Prop :=
  ∃ z : Binary f, z.isFinite = true ∧ z.value = n

namespace FloatWidth

theorem natAbs_eq_wholePart {z : Binary f} {n : Int} (h : z.value = n) :
    n.natAbs = z.wholePart := by
  have hSize : z.size = (n.natAbs : Int) := by
    rw [← z.abs_value, h, Int.natCast_natAbs, Int.cast_abs]
  have hFloor := z.floor_size
  rw [hSize, Int.floor_intCast] at hFloor
  exact_mod_cast hFloor

/-- Up to 64 bits, the represented integers are those with `precision` bits and zeros behind them. -/
theorem represents_iff {n : Int} (hBound : n.natAbs < 2 ^ 64) :
    f.Represents n ↔ ∃ c j, c < 2 ^ f.precision ∧ n.natAbs = c * 2 ^ j := by
  constructor
  · rintro ⟨z, -, hValue⟩
    obtain ⟨c, j, hc, hWhole⟩ := z.exists_wholePart_eq
    exact ⟨c, j, hc, (natAbs_eq_wholePart hValue).trans hWhole⟩
  · rintro ⟨c, j, hc, hAbs⟩
    obtain ⟨m, hm⟩ := exists_units_eq (f := f) (j + f.scale) hc
    have hUnits : f.units m = n.natAbs * twoPow f.scale := by
      rw [hm, hAbs, twoPow_add, ← Nat.mul_assoc]
      rfl
    have hTop : 2 ^ 64 ≤ twoPow f.top := by cases f <;> exact twoPow_le (by decide)
    have hFinite : m < f.infinity := by
      rw [← f.strictMono_units.lt_iff_lt, hUnits, f.units_infinity]
      exact Nat.mul_lt_mul_of_pos_right (hBound.trans_le hTop) (twoPow_pos _)
    have hSize : (Binary.ofMagnitude (n < 0) m : Binary f).size = n.natAbs := by
      refine Binary.size_of_units ?_
      rw [Binary.units, Binary.magnitude_ofMagnitude _ hFinite.le, hUnits]
    refine ⟨Binary.ofMagnitude (n < 0) m, Binary.isFinite_ofMagnitude _ hFinite, ?_⟩
    rw [Binary.value_eq, Binary.isNegative_ofMagnitude _ hFinite.le, hSize]
    exact Binary.withSign_natAbs n

end FloatWidth

namespace IntToFloatOp

/-! ## There -/

/-- The conversion in the other direction. -/
def back : IntToFloatOp → FloatToIntOp
  | sitofp => .fptosi
  | uitofp => .fptoui

/-- No reading is out of the range on the way back, and only 64 bits come to its upper end. -/
theorem reading_mem (op : IntToFloatOp) (x : Word w) :
    op.back.least ≤ op.reading x ∧ op.reading x ≤ op.back.most ∧
      (op.reading x = op.back.most → w = .w64) := by
  have hLow := x.le_two_mul_signed
  have hHigh := x.two_mul_signed_lt
  have hUnsigned := x.unsigned_lt
  cases op with
  | sitofp =>
      show -2 ^ 63 ≤ x.signed ∧ x.signed ≤ 2 ^ 63 - 1 ∧ (x.signed = 2 ^ 63 - 1 → w = .w64)
      cases w <;> simp only [IntWidth.bits] at hLow hHigh <;> simp <;> omega
  | uitofp =>
      show 0 ≤ (x.unsigned : Int) ∧ (x.unsigned : Int) ≤ 2 ^ 64 - 1 ∧
        ((x.unsigned : Int) = 2 ^ 64 - 1 → w = .w64)
      cases w <;> simp only [IntWidth.bits] at hUnsigned <;> simp <;> omega

section

variable (op : IntToFloatOp) (f) (x : Word w)

/-- What is represented is converted to itself. -/
theorem value_run (h : f.Represents (op.reading x)) : (op.run x f).value = op.reading x := by
  obtain ⟨z, hFinite, hValue⟩ := h
  have hClosest := (op.isNearest_run f x).closest z hFinite
  rw [hValue, sub_self, abs_zero] at hClosest
  exact sub_eq_zero.mp (abs_eq_zero.mp (le_antisymm hClosest (abs_nonneg _)))

/-- Zero is no closer, so an integer is moved by itself at most. -/
theorem abs_value_sub_le : |(op.run x f).value - op.reading x| ≤ |(op.reading x : ℚ)| := by
  have hZero : (Binary.zero false : Binary f).value = 0 := by cases f <;> decide +kernel
  have hClosest := (op.isNearest_run f x).closest (Binary.zero false) (by cases f <;> decide)
  rwa [hZero, zero_sub, abs_neg] at hClosest

/-! ## And back -/

/-- Truncation takes nothing beyond that. -/
theorem natAbs_truncated_sub_le :
    (truncated (op.run x f).value - op.reading x).natAbs ≤ (op.reading x).natAbs := by
  have hMoved := op.abs_value_sub_le f x
  obtain ⟨hUp, hDown⟩ := truncated_bounds (op.run x f).value
  generalize (op.run x f).value = q at *
  generalize op.reading x = n at *
  rcases le_total 0 n with hNonneg | hNonpos
  · have hNonneg' : (0 : ℚ) ≤ n := by exact_mod_cast hNonneg
    rw [abs_of_nonneg hNonneg', abs_le] at hMoved
    obtain ⟨hLow, hHigh⟩ := hUp (by linarith)
    have hTwice : truncated q ≤ 2 * n := by
      have hTwice' : (truncated q : ℚ) ≤ 2 * n := by linarith
      exact_mod_cast hTwice'
    omega
  · have hNonpos' : (n : ℚ) ≤ 0 := by exact_mod_cast hNonpos
    rw [abs_of_nonpos hNonpos', abs_le] at hMoved
    obtain ⟨hLow, hHigh⟩ := hDown (by linarith)
    have hTwice : 2 * n ≤ truncated q := by
      have hTwice' : (2 * n : ℚ) ≤ truncated q := by linarith
      exact_mod_cast hTwice'
    omega

theorem run_back_eq : op.back.run (op.run x f) w =
    Word.ofSigned (op.back.clamp (truncated (op.run x f).value)) :=
  op.back.run_of_isFinite w (op.isNearest_run f x).isFinite

/-- A word comes back only if the clamped value is its reading. No other integer that wraps into the
word is close enough. -/
theorem clamp_eq_of_run_back_eq (h : op.back.run (op.run x f) w = x) :
    op.back.clamp (truncated (op.run x f).value) = op.reading x := by
  have hMoved := op.natAbs_truncated_sub_le f x
  have hReading := op.natAbs_reading_lt x
  obtain ⟨hLow, hHigh, -⟩ := op.reading_mem x
  have hSame : (Word.ofSigned (op.back.clamp (truncated (op.run x f).value)) : Word w) =
      Word.ofSigned (op.reading x) := by
    rw [← run_back_eq, h, op.ofSigned_reading]
  rw [FloatToIntOp.clamp] at *
  generalize truncated (op.run x f).value = t at *
  generalize op.reading x = n at *
  have hCast : ((2 ^ w.bits : Nat) : Int) = 2 ^ w.bits := Nat.cast_pow 2 w.bits
  exact Word.eq_of_ofSigned_eq_of_lt hSame (by omega) (by omega)

/-- The lower end of the range is represented. -/
theorem represents_least : f.Represents op.back.least := by
  cases op with
  | sitofp =>
      refine (FloatWidth.represents_iff (by decide)).mpr ⟨1, 63, ?_, by decide⟩
      exact Nat.one_lt_two_pow (by cases f <;> decide)
  | uitofp =>
      exact (FloatWidth.represents_iff (by decide)).mpr ⟨0, 0, Nat.two_pow_pos _, rfl⟩

/-- The upper end is rounded up to a power of two beyond it, in both formats, and clamped. -/
theorem run_back_most :
    op.back.run (op.run (Word.ofSigned op.back.most : Word .w64) f) .w64 =
      Word.ofSigned op.back.most := by
  cases op <;> cases f <;> decide +kernel

theorem represents_of_bits_le (hBits : w.bits ≤ f.precision) : f.Represents (op.reading x) := by
  refine (FloatWidth.represents_iff (op.reading_bounds x)).mpr
    ⟨(op.reading x).natAbs, 0, ?_, (Nat.mul_one _).symm⟩
  exact (op.natAbs_reading_lt x).trans_le (Nat.pow_le_pow_right (by decide) hBits)

theorem run_back_of_represents (h : f.Represents (op.reading x)) :
    op.back.run (op.run x f) w = x := by
  obtain ⟨hLow, hHigh, -⟩ := op.reading_mem x
  rw [run_back_eq, op.value_run f x h, truncated_intCast, FloatToIntOp.clamp_of_mem hLow hHigh,
    op.ofSigned_reading]

end

/-- **What comes back from a conversion is what the format represents, and the greatest integer of 64
bits.** A format represents the integers that have no more bits than its precision, zeros behind them
apart. So all words of at most that many bits come back: those of 8 and 16 bits from both formats, and
those of 32 bits from the wide one. -/
theorem round_trip_iff (op : IntToFloatOp) (f : FloatWidth) (x : Word w) :
    (op.back.run (op.run x f) w = x ↔
        f.Represents (op.reading x) ∨ w = .w64 ∧ op.reading x = op.back.most) ∧
      (f.Represents (op.reading x) ↔
        ∃ c j, c < 2 ^ f.precision ∧ (op.reading x).natAbs = c * 2 ^ j) ∧
      (w.bits ≤ f.precision → op.back.run (op.run x f) w = x) := by
  refine ⟨⟨fun hBack => ?_, ?_⟩, FloatWidth.represents_iff (op.reading_bounds x), fun hBits =>
    op.run_back_of_represents f x (op.represents_of_bits_le f x hBits)⟩
  · have hClamp := op.clamp_eq_of_run_back_eq f x hBack
    have hFinite := (op.isNearest_run f x).isFinite
    rcases lt_or_ge (truncated (op.run x f).value) op.back.least with hBelow | hLow
    · -- Clamped to the lower end.
      left
      rw [FloatToIntOp.clamp, min_eq_left (hBelow.le.trans op.back.least_le_most),
        max_eq_left hBelow.le] at hClamp
      exact hClamp ▸ op.represents_least f
    · rcases le_or_gt (truncated (op.run x f).value) op.back.most with hHigh | hAbove
      · -- Not clamped: the truncated value is the integer.
        left
        rw [FloatToIntOp.clamp_of_mem hLow hHigh] at hClamp
        refine ⟨(op.run x f).truncate, Binary.isFinite_truncate hFinite, ?_⟩
        rw [Binary.value_truncate hFinite, hClamp]
      · -- Clamped to the upper end.
        right
        rw [FloatToIntOp.clamp, min_eq_right hAbove.le, max_eq_right op.back.least_le_most] at hClamp
        exact ⟨(op.reading_mem x).2.2 hClamp.symm, hClamp.symm⟩
  · rintro (hHeld | ⟨rfl, hMost⟩)
    · exact op.run_back_of_represents f x hHeld
    · have hBack := op.run_back_most f
      rwa [← hMost, op.ofSigned_reading] at hBack

/-- The greatest signed integer of 64 bits, which no format represents, and one of 32 bits that the
narrow format does not represent either. -/
theorem round_trip_iff_greatest :
    sitofp.back.run (sitofp.run (Word.ofSigned (2 ^ 63 - 1) : Word .w64) .f32) .w64 =
        (Word.ofSigned (2 ^ 63 - 1) : Word .w64) ∧
      ¬ FloatWidth.f32.Represents (sitofp.reading (Word.ofSigned (2 ^ 24 + 1) : Word .w32)) := by
  obtain ⟨hGreatest, -, -⟩ := round_trip_iff sitofp .f32 (Word.ofSigned (2 ^ 63 - 1) : Word .w64)
  obtain ⟨hOdd, -, -⟩ := round_trip_iff sitofp .f32 (Word.ofSigned (2 ^ 24 + 1) : Word .w32)
  refine ⟨hGreatest.mpr (.inr ⟨rfl, by decide⟩), fun hHeld => ?_⟩
  exact absurd (hOdd.mpr (.inl hHeld)) (by decide +kernel)

end IntToFloatOp

end WidthExact
