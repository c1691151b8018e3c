import WidthExact.Proofs.Primitive.RoundTrip

/-!
# Routes of conversion

Between two types there may be a direct conversion and one by way of a third type. The two agree where
the step to the third type loses nothing. An integer that the wide format represents is rounded to the
narrow one alike from either; a value of the narrow format is the same number in the wide one, and its
infinities and NaNs are too, so that it is truncated and clamped alike; a word that is widened keeps
the reading that it is widened by. And where the ranges of 64 bits with and without sign overlap, both
conversions to integers are one.

## Main results

* `FloatWidth.represents_of_natAbs_le` — the integers up to the precision.
* `IntToFloatOp.fpconv_run` — an integer by way of another format.
* `FloatToIntOp.run_fpconv` — a value by way of a wider format.
* `IntToFloatOp.sitofp_sext`, `IntToFloatOp.sitofp_zext` — a word by way of a wider word.
* `FloatToIntOp.run_of_truncation` — a value whose truncation is in range.
* `conversion_routes` — all of them.
-/

namespace WidthExact

variable {f g : FloatWidth} {v w : IntWidth}

/-! ## From integers -/

/-- Every integer with no more bits than the precision is represented, and so is the power of two above
them. -/
theorem FloatWidth.represents_of_natAbs_le {n : Int} (h : n.natAbs ≤ 2 ^ f.precision) :
    f.Represents n := by
  have hBound : n.natAbs < 2 ^ 64 :=
    h.trans_lt (Nat.pow_lt_pow_right (by decide) (by cases f <;> decide))
  refine (represents_iff hBound).mpr ?_
  rcases Nat.lt_or_eq_of_le h with hLess | hPower
  · exact ⟨n.natAbs, 0, hLess, (Nat.mul_one _).symm⟩
  · exact ⟨1, f.precision, Nat.one_lt_two_pow (by cases f <;> decide), by rw [hPower, Nat.one_mul]⟩

namespace IntToFloatOp

/-- **An integer that a format represents may go through it.** There it is a value of the same sign and
size, so that the target format rounds the same number. -/
theorem fpconv_run (op : IntToFloatOp) (f : FloatWidth) (x : Word w)
    (h : g.Represents (op.reading x)) : (op.run x g).fpconv f = op.run x f := by
  have hSign : (op.run x g).isNegative = decide (op.reading x < 0) := by
    rw [op.run_eq x]
    exact (Binary.isRounded_ofInt (op.reading x)).sign
  have hSize : (op.run x g).size = (op.reading x).natAbs := by
    rw [← Binary.abs_value, op.value_run g x h, ← Int.cast_natCast, Int.natCast_natAbs,
      Int.cast_abs]
  have hTwice := Binary.isRounded_toFormat (op.isNearest_run g x).isFinite f
  rw [hSign, hSize] at hTwice
  rw [Binary.fpconv_eq_toFormat (Binary.isNaN_of_isFinite (op.isNearest_run g x).isFinite),
    op.run_eq x (f := f)]
  exact hTwice.unique (Nat.cast_nonneg _) (Binary.isRounded_ofInt _)

/-- The wide format represents all words but those of 64 bits. -/
theorem represents_of_ne_w64 (op : IntToFloatOp) {x : Word w} (hWidth : w ≠ .w64) :
    FloatWidth.f64.Represents (op.reading x) := by
  refine op.represents_of_bits_le .f64 x ?_
  cases w with
  | w64 => exact absurd rfl hWidth
  | _ => decide

theorem sitofp_sext (hWider : v.bits ≤ w.bits) (f : FloatWidth) (x : Word v) :
    sitofp.run (x.sext w) f = sitofp.run x f := by
  rw [run_eq, run_eq]
  exact congrArg Binary.ofInt (Word.signed_sext hWider x)

/-- In a strictly wider word the unsigned reading is the signed one. -/
theorem sitofp_zext (hWider : v.bits < w.bits) (f : FloatWidth) (x : Word v) :
    sitofp.run (x.zext w) f = uitofp.run x f := by
  rw [run_eq, run_eq]
  exact congrArg Binary.ofInt (Word.signed_zext hWider x)

end IntToFloatOp

/-! ## To integers -/

namespace FloatToIntOp

/-- **A value may go through a wider format.** -/
theorem run_fpconv (op : FloatToIntOp) (h : f.precision ≤ g.precision) (x : Binary f)
    (w : IntWidth) : op.run (x.fpconv g) w = op.run x w := by
  have hConversion := Binary.isConversion_fpconv x g
  cases hNaN : x.isNaN with
  | true => rw [op.run_of_isNaN w hNaN, op.run_of_isNaN w (hConversion.nan.trans hNaN)]
  | false =>
      have hSign := hConversion.sign hNaN
      rcases Binary.isFinite_or_isInfinite hNaN with hFinite | hInfinite
      · obtain ⟨hWide, hSize⟩ := Binary.toFormat_wide h hFinite
        rw [← Binary.fpconv_eq_toFormat hNaN] at hWide hSize
        rw [op.run_of_isFinite w hFinite, op.run_of_isFinite w hWide,
          Binary.value_eq_of_size hSign hSize]
      · rw [op.run_of_isInfinite w hInfinite,
          op.run_of_isInfinite w (hConversion.infinite hInfinite), hSign]

open ExtendedInt in
/-- A truncation that is in range is only wrapped. -/
theorem run_of_truncation (op : FloatToIntOp) {x : Binary f} (hNumber : x.isNaN = false) {t : Int}
    (hInside : x.truncation = ofInt t) (hLow : op.least ≤ t) (hHigh : t ≤ op.most) (w : IntWidth) :
    op.run x w = Word.ofSigned t := by
  obtain ⟨n, hClamped, hRun⟩ := op.exists_run_eq w hNumber
  rw [hInside, min_eq_left (ofInt_le.mpr hHigh), max_eq_right (ofInt_le.mpr hLow)] at hClamped
  rw [hRun, ofInt_inj.mp hClamped]

/-- Where the two ranges overlap, the conversions are one. -/
theorem fptosi_eq_fptoui {x : Binary f} {t : Int} (hInside : x.truncation = .ofInt t) (hLow : 0 ≤ t)
    (hHigh : t < 2 ^ 63) (w : IntWidth) : fptosi.run x w = fptoui.run x w := by
  cases hNaN : x.isNaN with
  | true => rw [fptosi.run_of_isNaN w hNaN, fptoui.run_of_isNaN w hNaN]
  | false =>
      have hSigned : fptosi.least ≤ t ∧ t ≤ fptosi.most := by
        show -2 ^ 63 ≤ t ∧ t ≤ 2 ^ 63 - 1
        omega
      have hUnsigned : t ≤ fptoui.most := by
        show t ≤ 2 ^ 64 - 1
        omega
      rw [fptosi.run_of_truncation hNaN hInside hSigned.1 hSigned.2,
        fptoui.run_of_truncation hNaN hInside hLow hUnsigned]

end FloatToIntOp

/-! ## All routes -/

/-- **Different routes of conversion agree.** An integer goes to the narrow format through the wide one
if it has fewer than 64 bits or a magnitude of at most `2 ^ 53`. A value of the narrow format goes to
words through the wide one, whatever it is. A word goes to either format through any word at least as
wide, extended by its sign bit, and without sign through any wider word, extended by zeros. And a value
whose truncation is neither negative nor beyond 63 bits is converted alike with and without sign. -/
theorem conversion_routes :
    (∀ (w : IntWidth) (op : IntToFloatOp) (x : Word w),
      w ≠ .w64 ∨ (op.reading x).natAbs ≤ 2 ^ 53 →
        (op.run x .f64).fpconv .f32 = op.run x .f32) ∧
    (∀ (op : FloatToIntOp) (x : Binary .f32) (w : IntWidth),
      op.run (x.fpconv .f64) w = op.run x w) ∧
    (∀ (v w : IntWidth) (f : FloatWidth) (x : Word v), v.bits ≤ w.bits →
      IntToFloatOp.sitofp.run (x.sext w) f = IntToFloatOp.sitofp.run x f) ∧
    (∀ (v w : IntWidth) (f : FloatWidth) (x : Word v), v.bits < w.bits →
      IntToFloatOp.sitofp.run (x.zext w) f = IntToFloatOp.uitofp.run x f) ∧
    ∀ (f : FloatWidth) (x : Binary f) (w : IntWidth) (t : Int), x.truncation = .ofInt t →
      0 ≤ t → t < 2 ^ 63 → FloatToIntOp.fptosi.run x w = FloatToIntOp.fptoui.run x w := by
  refine ⟨fun w op x hShort => ?_, fun op x w => op.run_fpconv (by decide) x w,
    fun v w f x hWider => IntToFloatOp.sitofp_sext hWider f x,
    fun v w f x hWider => IntToFloatOp.sitofp_zext hWider f x,
    fun f x w t hInside hLow hHigh => FloatToIntOp.fptosi_eq_fptoui hInside hLow hHigh w⟩
  rcases hShort with hWidth | hSmall
  · exact op.fpconv_run .f32 x (op.represents_of_ne_w64 hWidth)
  · exact op.fpconv_run .f32 x (FloatWidth.represents_of_natAbs_le hSmall)

/-- A word of 32 bits that the narrow format does not represent, the greatest magnitude of 64 bits, the
byte `-1` with and without sign, and a fraction that is negative and truncated to zero. -/
theorem conversion_routes_ends :
    (IntToFloatOp.sitofp.run (Word.ofSigned (2 ^ 24 + 1) : Word .w32) .f64).fpconv .f32 =
        IntToFloatOp.sitofp.run (Word.ofSigned (2 ^ 24 + 1) : Word .w32) .f32 ∧
      (IntToFloatOp.sitofp.run (Word.ofSigned (-2 ^ 53) : Word .w64) .f64).fpconv .f32 =
        IntToFloatOp.sitofp.run (Word.ofSigned (-2 ^ 53) : Word .w64) .f32 ∧
      IntToFloatOp.sitofp.run ((Word.ofSigned (-1) : Word .w8).sext .w8) .f32 =
        IntToFloatOp.sitofp.run (Word.ofSigned (-1) : Word .w8) .f32 ∧
      IntToFloatOp.sitofp.run ((Word.ofSigned (-1) : Word .w8).zext .w16) .f32 =
        IntToFloatOp.uitofp.run (Word.ofSigned (-1) : Word .w8) .f32 ∧
      FloatToIntOp.fptosi.run (⟨0xbf000000#32⟩ : Binary .f32) .w8 =
        FloatToIntOp.fptoui.run (⟨0xbf000000#32⟩ : Binary .f32) .w8 := by
  obtain ⟨hFormat, -, hSigned, hUnsigned, hOverlap⟩ := conversion_routes
  have hTruncation : (⟨0xbf000000#32⟩ : Binary .f32).truncation = .ofInt 0 :=
    congrArg ExtendedInt.ofInt (by decide +kernel)
  exact ⟨hFormat .w32 .sitofp _ (.inl (by decide)), hFormat .w64 .sitofp _ (.inr (by decide)),
    hSigned .w8 .w8 .f32 _ (by decide), hUnsigned .w8 .w16 .f32 _ (by decide),
    hOverlap .f32 _ .w8 0 hTruncation (by decide) (by decide)⟩

end WidthExact
