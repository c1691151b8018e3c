import WidthExact.Proofs.Binary.Nearest

/-!
# Change of format

`Binary.fpconv` takes every value through the wide format. That format has more bits, finer units and
a greater range than the narrow one, so that the first step is exact whatever the value: subnormal
values of the narrow format are normal ones of the wide format. The second step is the only rounding.
From a format to itself, and to the wide one and back, nothing is rounded at all. A step from a
format to itself is none: it leaves a NaN as it is, too.

## Main results

* `FloatWidth.exists_units_eq_of_le` — a finite value of a format is one of a wider format.
* `Binary.isRounded_toFormat`, `Binary.toFormat_wide`, `Binary.toFormat_toFormat` — one step.
* `Binary.fpconv_eq_toFormat` — both steps are one for a number.
* `Binary.fpconv_conversion` — the change of format.
-/

namespace WidthExact

variable {f g : FloatWidth}

namespace FloatWidth

/-! ## Formats -/

theorem precision_le_wide (f : FloatWidth) : f.precision ≤ f64.precision := by
  cases f <;> decide

/-- A format with as many bits has as fine a unit and as great a range. -/
theorem scale_le_top_le (h : f.precision ≤ g.precision) : f.scale ≤ g.scale ∧ f.top ≤ g.top := by
  revert h
  cases f <;> cases g <;> decide

/-- What is finite in a format is finite in a wider one, at the same distance from zero. -/
theorem exists_units_eq_of_le (h : f.precision ≤ g.precision) {m : Nat} (hm : m < f.infinity) :
    ∃ k < g.infinity, g.units k * twoPow f.scale = f.units m * twoPow g.scale := by
  obtain ⟨hScale, hTop⟩ := scale_le_top_le h
  obtain ⟨c, j, hc, hUnits⟩ := f.exists_eq_units m
  obtain ⟨k, hk⟩ := exists_units_eq (j + (g.scale - f.scale)) (hc.trans_le (twoPow_le h))
  have hSame : g.units k * twoPow f.scale = f.units m * twoPow g.scale := by
    rw [hk, hUnits, Nat.mul_assoc, Nat.mul_assoc, ← twoPow_add, ← twoPow_add]
    congr 2
    omega
  refine ⟨k, ?_, hSame⟩
  have hBelow : g.units k * twoPow f.scale < g.units g.infinity * twoPow f.scale := by
    calc g.units k * twoPow f.scale
        = f.units m * twoPow g.scale := hSame
      _ < f.units f.infinity * twoPow g.scale :=
          Nat.mul_lt_mul_of_pos_right (f.strictMono_units hm) (twoPow_pos _)
      _ = twoPow f.top * (twoPow g.scale * twoPow f.scale) := by
          rw [units_infinity, Nat.mul_assoc, Nat.mul_comm (twoPow f.scale)]
      _ ≤ twoPow g.top * (twoPow g.scale * twoPow f.scale) :=
          Nat.mul_le_mul_right _ (twoPow_le hTop)
      _ = g.units g.infinity * twoPow f.scale := by
          rw [units_infinity, Nat.mul_assoc]
  exact g.strictMono_units.lt_iff_lt.mp (Nat.lt_of_mul_lt_mul_right hBelow)

end FloatWidth

namespace Binary

/-! ## Kinds of values -/

theorem isNaN_of_isFinite {x : Binary f} (h : x.isFinite = true) : x.isNaN = false :=
  decide_eq_false (Nat.not_lt.mpr (of_decide_eq_true h).le)

theorem isNaN_of_isInfinite {x : Binary f} (h : x.isInfinite = true) : x.isNaN = false :=
  decide_eq_false (Nat.not_lt.mpr (of_decide_eq_true h).le)

theorem isInfinite_of_isFinite {x : Binary f} (h : x.isFinite = true) : x.isInfinite = false :=
  decide_eq_false (of_decide_eq_true h).ne

theorem isFinite_of_isInfinite {x : Binary f} (h : x.isInfinite = true) : x.isFinite = false :=
  decide_eq_false (of_decide_eq_true h).not_lt

theorem isFinite_of_isNaN {x : Binary f} (h : x.isNaN = true) : x.isFinite = false :=
  decide_eq_false (of_decide_eq_true h).not_gt

theorem isFinite_or_isInfinite {x : Binary f} (h : x.isNaN = false) :
    x.isFinite = true ∨ x.isInfinite = true :=
  (Nat.lt_or_eq_of_le (Nat.not_lt.mp (of_decide_eq_false h))).imp decide_eq_true decide_eq_true

theorem isInfinite_infinity (negative : Bool) : (infinity negative : Binary f).isInfinite = true :=
  decide_eq_true (magnitude_ofMagnitude negative le_rfl)

theorem isNegative_infinity (negative : Bool) :
    (infinity negative : Binary f).isNegative = negative :=
  isNegative_ofMagnitude negative le_rfl

/-- There is one infinity of each sign. -/
theorem eq_infinity {x : Binary f} (h : x.isInfinite = true) : x = infinity x.isNegative :=
  eq_ofMagnitude rfl (of_decide_eq_true h)

theorem abs_value (x : Binary f) : |x.value| = x.size := by
  have hNonneg := x.size_nonneg
  rw [x.value_eq]
  cases x.isNegative with
  | false => exact abs_of_nonneg hNonneg
  | true =>
      show |-x.size| = x.size
      rw [abs_neg, abs_of_nonneg hNonneg]

theorem value_eq_of_size {x : Binary f} {y : Binary g} (hSign : y.isNegative = x.isNegative)
    (hSize : y.size = x.size) : y.value = x.value := by
  rw [y.value_eq, x.value_eq, hSign, hSize]

theorem isNaN_of_isRounded {negative : Bool} {q : ℚ} (hq : 0 ≤ q) {x : Binary f}
    (h : IsRounded negative q x) : x.isNaN = false :=
  decide_eq_false (Nat.not_lt.mpr ((isRounded_iff hq).mp h).2.le_infinity)

/-- A number is rounded to an infinity from the overflow midpoint on. -/
theorem IsRounded.isInfinite_iff {negative : Bool} {q : ℚ} {x : Binary f}
    (h : IsRounded negative q x) : x.isInfinite = true ↔ f.overflow ≤ q := by
  constructor
  · intro hInfinite
    refine not_lt.mp fun hBelow => ?_
    rw [isInfinite_of_isFinite (h.nearest hBelow).isFinite] at hInfinite
    exact Bool.false_ne_true hInfinite
  · intro hBeyond
    rw [h.overflow hBeyond]
    exact isInfinite_infinity _

/-- A finite value is what its own magnitude is rounded to. -/
theorem isRounded_self {x : Binary f} (h : x.isFinite = true) :
    IsRounded x.isNegative x.size x := by
  refine (isRounded_iff x.size_nonneg).mpr ⟨rfl, ?_⟩
  rw [x.size_mul]
  exact .units (of_decide_eq_true h).le

/-! ## One step -/

theorem isRounded_ofRatio_units (x : Binary f) (g : FloatWidth) :
    IsRounded x.isNegative x.size (ofRatio x.isNegative x.units (twoPow f.scale) : Binary g) := by
  rw [isRounded_iff x.size_nonneg, magnitude_ofRatio _ _ (twoPow_pos _)]
  exact ⟨isNegative_ofRatio _ _ (twoPow_pos _), g.nearestRatio_roundsTo _ (twoPow_pos _)⟩

/-- A value is in its format already. -/
theorem toFormat_self (x : Binary f) : x.toFormat f = x := dif_pos rfl

/-- A finite value is told by its units, also to its own format, where it is rounded to itself. -/
theorem toFormat_of_finite {x : Binary f} (hFinite : x.isFinite = true) (g : FloatWidth) :
    x.toFormat g = ofRatio x.isNegative x.units (twoPow f.scale) := by
  by_cases hSame : f = g
  · subst hSame
    rw [toFormat_self]
    exact (isRounded_self hFinite).unique x.size_nonneg (isRounded_ofRatio_units x f)
  · rw [toFormat, dif_neg hSame, isNaN_of_isFinite hFinite, isInfinite_of_isFinite hFinite]
    rfl

theorem toFormat_of_isInfinite {x : Binary f} (h : x.isInfinite = true) (g : FloatWidth) :
    x.toFormat g = infinity x.isNegative := by
  by_cases hSame : f = g
  · subst hSame
    rw [toFormat_self]
    exact eq_infinity h
  · rw [toFormat, dif_neg hSame, isNaN_of_isInfinite h, h]
    rfl

/-- A finite value is rounded once. -/
theorem isRounded_toFormat {x : Binary f} (hFinite : x.isFinite = true) (g : FloatWidth) :
    IsRounded x.isNegative x.size (x.toFormat g) := by
  rw [toFormat_of_finite hFinite]
  exact isRounded_ofRatio_units x g

theorem isNaN_toFormat (x : Binary f) (g : FloatWidth) : (x.toFormat g).isNaN = x.isNaN := by
  cases hNaN : x.isNaN with
  | true =>
      by_cases hSame : f = g
      · subst hSame
        rw [toFormat_self, hNaN]
      · rw [toFormat, dif_neg hSame, hNaN]
        exact isNaN_nan _
  | false =>
      rcases isFinite_or_isInfinite hNaN with hFinite | hInfinite
      · exact isNaN_of_isRounded x.size_nonneg (isRounded_toFormat hFinite g)
      · rw [toFormat_of_isInfinite hInfinite]
        exact isNaN_of_isInfinite (isInfinite_infinity _)

theorem isNegative_toFormat {x : Binary f} (hNumber : x.isNaN = false) :
    (x.toFormat g).isNegative = x.isNegative := by
  rcases isFinite_or_isInfinite hNumber with hFinite | hInfinite
  · exact (isRounded_toFormat hFinite g).sign
  · rw [toFormat_of_isInfinite hInfinite, isNegative_infinity]

/-- To a wider format nothing is lost. -/
theorem toFormat_wide (h : f.precision ≤ g.precision) {x : Binary f} (hFinite : x.isFinite = true) :
    (x.toFormat g).isFinite = true ∧ (x.toFormat g).size = x.size := by
  obtain ⟨k, hk, hUnits⟩ := FloatWidth.exists_units_eq_of_le h (of_decide_eq_true hFinite)
  have hMagnitude : (x.toFormat g).magnitude = k := by
    rw [toFormat_of_finite hFinite, magnitude_ofRatio _ _ (twoPow_pos _)]
    exact FloatWidth.nearestRatio_eq_of_units (twoPow_pos _) hk.le hUnits.symm
  refine ⟨decide_eq_true (hMagnitude ▸ hk), ?_⟩
  rw [size, size, units, units, hMagnitude,
    div_eq_div_iff (twoPow_scale_pos g).ne' (twoPow_scale_pos f).ne']
  exact_mod_cast hUnits

/-- And the way back leads to the value itself. -/
theorem toFormat_toFormat (h : f.precision ≤ g.precision) {x : Binary f} (hNumber : x.isNaN = false) :
    (x.toFormat g).toFormat f = x := by
  rcases isFinite_or_isInfinite hNumber with hFinite | hInfinite
  · obtain ⟨hWide, hSize⟩ := toFormat_wide h hFinite
    have hBack := isRounded_toFormat hWide f
    rw [hSize, isNegative_toFormat hNumber] at hBack
    exact hBack.unique x.size_nonneg (isRounded_self hFinite)
  · rw [toFormat_of_isInfinite hInfinite, toFormat_of_isInfinite (isInfinite_infinity _),
      isNegative_infinity, ← eq_infinity hInfinite]

/-! ## Both steps -/

/-- **The step to the wide format does not show** in a number. -/
theorem fpconv_eq_toFormat {x : Binary f} (hNumber : x.isNaN = false) (g : FloatWidth) :
    x.fpconv g = x.toFormat g := by
  rcases isFinite_or_isInfinite hNumber with hFinite | hInfinite
  · obtain ⟨hWide, hSize⟩ := toFormat_wide f.precision_le_wide hFinite
    have hTwice := isRounded_toFormat hWide g
    rw [hSize, (isRounded_toFormat hFinite .f64).sign] at hTwice
    exact hTwice.unique x.size_nonneg (isRounded_toFormat hFinite g)
  · rw [fpconv, toFormat_of_isInfinite hInfinite,
      toFormat_of_isInfinite (isInfinite_infinity _), isNegative_infinity,
      toFormat_of_isInfinite hInfinite]

theorem isNaN_fpconv (x : Binary f) (g : FloatWidth) : (x.fpconv g).isNaN = x.isNaN := by
  rw [fpconv, isNaN_toFormat, isNaN_toFormat]

/-- `y` is what `x` becomes in another format. The sign stays, but for that of a NaN, and so do the
infinities. A finite value is rounded once, to an infinity from the overflow midpoint on. -/
structure IsConversion (x : Binary f) (y : Binary g) : Prop where
  nan : y.isNaN = x.isNaN
  sign : x.isNaN = false → y.isNegative = x.isNegative
  infinite : x.isInfinite = true → y.isInfinite = true
  rounded : x.isFinite = true → IsRounded x.isNegative |x.value| y
  overflow_iff : x.isFinite = true → (y.isInfinite = true ↔ g.overflow ≤ |x.value|)

theorem isConversion_fpconv (x : Binary f) (g : FloatWidth) : IsConversion x (x.fpconv g) where
  nan := isNaN_fpconv x g
  sign hNumber := by rw [fpconv_eq_toFormat hNumber, isNegative_toFormat hNumber]
  infinite hInfinite := by
    rw [fpconv_eq_toFormat (isNaN_of_isInfinite hInfinite), toFormat_of_isInfinite hInfinite]
    exact isInfinite_infinity _
  rounded hFinite := by
    rw [fpconv_eq_toFormat (isNaN_of_isFinite hFinite), abs_value]
    exact isRounded_toFormat hFinite g
  overflow_iff hFinite := by
    rw [fpconv_eq_toFormat (isNaN_of_isFinite hFinite), abs_value]
    exact (isRounded_toFormat hFinite g).isInfinite_iff

/-- **A change of format rounds once, or not at all.** To any format, a NaN becomes a NaN, the sign
and the infinities stay, and a finite value becomes the nearest one, from the overflow midpoint on an
infinity. A number of the same format is the same bit pattern again, and in the wide format so is a
NaN. In a wider format a finite value denotes the same number, and the way back leads to the same bit
pattern. -/
theorem fpconv_conversion (x : Binary f) (g : FloatWidth) :
    IsConversion x (x.fpconv g) ∧
      (x.isNaN = false ∨ f = .f64 → x.fpconv f = x) ∧
      (x.isNaN = false → f.precision ≤ g.precision →
        (x.isFinite = true → (x.fpconv g).isFinite = true ∧ (x.fpconv g).value = x.value) ∧
        (x.fpconv g).fpconv f = x) := by
  refine ⟨isConversion_fpconv x g, ?_, fun hNumber hWider => ⟨fun hFinite => ?_, ?_⟩⟩
  · rintro (hNumber | rfl)
    · rw [fpconv_eq_toFormat hNumber, toFormat_self]
    · rw [fpconv, toFormat_self, toFormat_self]
  · obtain ⟨hWide, hSize⟩ := toFormat_wide hWider hFinite
    rw [fpconv_eq_toFormat hNumber]
    exact ⟨hWide, value_eq_of_size (isNegative_toFormat hNumber) hSize⟩
  · have hWide := (isNaN_fpconv x g).trans hNumber
    rw [fpconv_eq_toFormat hWide, fpconv_eq_toFormat hNumber, toFormat_toFormat hWider hNumber]

/-- The least subnormal value of the narrow format, which is normal in the wide one, and the overflow
midpoint, from where on a wide value becomes the narrow infinity. -/
theorem fpconv_conversion_ends :
    ((⟨1#32⟩ : Binary .f32).fpconv .f64).fpconv .f32 = ⟨1#32⟩ ∧
      ((⟨0x47efffffefffffff#64⟩ : Binary .f64).fpconv .f32).isFinite = true ∧
      ((⟨0x47effffff0000000#64⟩ : Binary .f64).fpconv .f32).isInfinite = true := by
  obtain ⟨-, -, hBack⟩ := fpconv_conversion (⟨1#32⟩ : Binary .f32) .f64
  have hBelow := (fpconv_conversion (⟨0x47efffffefffffff#64⟩ : Binary .f64) .f32).1.rounded
    (by decide)
  have hMidpoint := (fpconv_conversion (⟨0x47effffff0000000#64⟩ : Binary .f64) .f32).1.overflow_iff
    (by decide)
  exact ⟨(hBack (by decide) (by decide)).2, (hBelow.nearest (by decide +kernel)).isFinite,
    hMidpoint.mpr (by decide +kernel)⟩

end Binary

end WidthExact
