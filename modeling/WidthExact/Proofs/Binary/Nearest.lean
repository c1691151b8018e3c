import WidthExact.Proofs.Binary.Exact

/-!
# The nearest value of a format

What rounding is, said of the values of a format and not of their patterns. A finite value denotes a
rational number. `Binary.IsNearest` says of a value and a number that no finite value is closer to the
number, and that the significand is even if another one is as close. `Binary.IsRounded` adds the sign,
which a zero has too, and the infinity at and beyond the middle between the greatest finite value and
what the format has no value for.

Both are shown to be `FloatWidth.RoundsTo`, which places a number between the midpoints around a
pattern. So they hold of one value only.

## Main results

* `FloatWidth.RoundsTo.closest`, `FloatWidth.RoundsTo.even_of_tie` — no pattern is closer.
* `FloatWidth.RoundsTo.of_beyond`, `FloatWidth.RoundsTo.eq_zero` — the ends of a format.
* `Binary.isNearest_iff`, `Binary.isRounded_iff` — the two specifications are the same.
* `Binary.IsRounded.unique` — one value satisfies them.
-/

namespace WidthExact

/-- A number with a sign that is given apart. -/
def withSign (negative : Bool) (q : ℚ) : ℚ := if negative then -q else q

theorem abs_withSign_sub (negative : Bool) (p q : ℚ) :
    |withSign negative p - withSign negative q| = |p - q| := by
  cases negative with
  | false => rfl
  | true =>
      show |-p - -q| = |p - q|
      rw [neg_sub_neg, abs_sub_comm]

/-- Signs that differ set two magnitudes apart. -/
theorem abs_withSign_sub_of_ne {negative negative' : Bool} (hSigns : negative ≠ negative') {p q : ℚ}
    (hp : 0 ≤ p) (hq : 0 ≤ q) : |withSign negative p - withSign negative' q| = p + q := by
  cases negative <;> cases negative'
  · exact absurd rfl hSigns
  · show |p - -q| = p + q
    rw [sub_neg_eq_add, abs_of_nonneg (add_nonneg hp hq)]
  · show |-p - q| = p + q
    rw [← neg_add', abs_neg, abs_of_nonneg (add_nonneg hp hq)]
  · exact absurd rfl hSigns

theorem abs_sub_le_add {p q : ℚ} (hp : 0 ≤ p) (hq : 0 ≤ q) : |p - q| ≤ p + q := by
  rw [abs_le]
  constructor <;> linarith

namespace FloatWidth

variable {f : FloatWidth}

/-! ## Patterns -/

namespace RoundsTo

variable {x : ℚ} {k m : Nat}

/-- A number is beyond the middle between its pattern and one below it. -/
theorem units_add_units_le (h : f.RoundsTo x m) (hk : k < m) :
    (f.units k + f.units m : ℚ) ≤ 2 * x := by
  obtain ⟨j, rfl⟩ := Nat.exists_eq_add_of_le' (Nat.zero_lt_of_lt hk)
  have hMid : (f.units j + f.units (j + 1) : ℚ) ≤ 2 * x := by
    exact_mod_cast h.lower_le (Nat.lt_succ_self j)
  have hUnits : (f.units k : ℚ) ≤ f.units j := by
    exact_mod_cast f.strictMono_units.monotone (Nat.le_of_lt_succ hk)
  linarith

/-- And before the middle between its pattern and one above it. -/
theorem le_units_add_units (h : f.RoundsTo x m) (hFinite : m < f.infinity) (hk : m < k) :
    2 * x ≤ f.units m + f.units k := by
  have hMid : 2 * x ≤ (f.units m + f.units (m + 1) : ℚ) := by
    exact_mod_cast h.upper_le (Nat.le_refl m) hFinite
  have hUnits : (f.units (m + 1) : ℚ) ≤ f.units k := by
    exact_mod_cast f.strictMono_units.monotone hk
  linarith

/-- No pattern is closer to a number than the one it rounds to. -/
theorem closest (h : f.RoundsTo x m) (hFinite : m < f.infinity) (k : Nat) :
    |f.units m - x| ≤ |f.units k - x| := by
  rcases Nat.lt_trichotomy k m with hk | rfl | hk
  · have hMid := h.units_add_units_le hk
    have hUnits : (f.units k : ℚ) < f.units m := by exact_mod_cast f.strictMono_units hk
    rw [abs_of_neg (by linarith : (f.units k - x : ℚ) < 0), abs_le]
    constructor <;> linarith
  · exact le_rfl
  · have hMid := h.le_units_add_units hFinite hk
    have hUnits : (f.units m : ℚ) < f.units k := by exact_mod_cast f.strictMono_units hk
    rw [abs_of_pos (by linarith : (0 : ℚ) < f.units k - x), abs_le]
    constructor <;> linarith

/-- If another one is as close, the pattern is even. -/
theorem even_of_tie (h : f.RoundsTo x m) (hFinite : m < f.infinity) (hk : k ≠ m)
    (hTie : |(f.units k - x : ℚ)| = |f.units m - x|) : m % 2 = 0 := by
  have hNe : (f.units k : ℚ) ≠ f.units m := by
    exact_mod_cast f.strictMono_units.injective.ne hk
  have hMid : (f.units k + f.units m : ℚ) = 2 * x := by
    rcases abs_eq_abs.mp hTie with hSame | hOpposite
    · exact absurd (sub_left_injective hSame) hNe
    · linarith
  rcases Nat.lt_or_gt_of_ne hk with hBelow | hAbove
  · obtain ⟨j, rfl⟩ := Nat.exists_eq_add_of_le' (Nat.zero_lt_of_lt hBelow)
    have hUnits : (f.units k : ℚ) ≤ f.units j := by
      exact_mod_cast f.strictMono_units.monotone (Nat.le_of_lt_succ hBelow)
    rcases h.lower j rfl with hLt | ⟨-, hEven⟩
    · have hLt' : (f.units j + f.units (j + 1) : ℚ) < 2 * x := by exact_mod_cast hLt
      linarith
    · exact hEven
  · have hUnits : (f.units (m + 1) : ℚ) ≤ f.units k := by
      exact_mod_cast f.strictMono_units.monotone hAbove
    rcases h.upper hFinite with hLt | ⟨-, hEven⟩
    · have hLt' : 2 * x < (f.units m + f.units (m + 1) : ℚ) := by exact_mod_cast hLt
      linarith
    · exact hEven

/-- A number to which no finite pattern is closer, and none as close unless the pattern is even, rounds
to it, if it lies before the middle between the greatest finite pattern and infinity. -/
theorem of_closest (hFinite : m < f.infinity) (hBound : 2 * x < f.midpoint (f.infinity - 1))
    (hClosest : ∀ k < f.infinity, |f.units m - x| ≤ |f.units k - x|)
    (hEven : ∀ k < f.infinity, k ≠ m → |(f.units k - x : ℚ)| = |f.units m - x| → m % 2 = 0) :
    f.RoundsTo x m where
  le_infinity := hFinite.le
  lower := by
    rintro k rfl
    have hk : k < f.infinity := by omega
    have hUnits : (f.units k : ℚ) < f.units (k + 1) := by exact_mod_cast f.units_lt_succ k
    have hMid : (f.midpoint k : ℚ) = f.units k + f.units (k + 1) := by exact_mod_cast rfl
    rcases lt_trichotomy (f.midpoint k : ℚ) (2 * x) with hLt | hEq | hGt
    · exact .inl hLt
    · refine .inr ⟨hEq, hEven k hk (Nat.lt_succ_self k).ne (abs_eq_abs.mpr (.inr ?_))⟩
      linarith
    · have hNot := hClosest k hk
      rw [abs_of_pos (by linarith : (0 : ℚ) < f.units (k + 1) - x), le_abs] at hNot
      rcases hNot with hNot | hNot <;> linarith
  upper := by
    intro _
    by_cases hLast : m + 1 = f.infinity
    · have hHere : m = f.infinity - 1 := by omega
      rw [hHere]
      exact .inl hBound
    have hk : m + 1 < f.infinity := by omega
    have hUnits : (f.units m : ℚ) < f.units (m + 1) := by exact_mod_cast f.units_lt_succ m
    have hMid : (f.midpoint m : ℚ) = f.units m + f.units (m + 1) := by exact_mod_cast rfl
    rcases lt_trichotomy (2 * x) (f.midpoint m : ℚ) with hLt | hEq | hGt
    · exact .inl hLt
    · refine .inr ⟨hEq, hEven (m + 1) hk (Nat.succ_ne_self m) (abs_eq_abs.mpr (.inr ?_))⟩
      linarith
    · have hNot := hClosest (m + 1) hk
      rw [abs_of_neg (by linarith : (f.units m - x : ℚ) < 0), le_abs] at hNot
      rcases hNot with hNot | hNot <;> linarith

/-- The middle between infinity and the greatest finite pattern, which is odd, rounds to infinity. -/
theorem of_beyond (hBeyond : (f.midpoint (f.infinity - 1) : ℚ) ≤ 2 * x) :
    f.RoundsTo x f.infinity where
  le_infinity := le_rfl
  lower := by
    intro k hk
    have hEven : f.infinity % 2 = 0 := by cases f <;> decide
    have hMid : (f.midpoint k : ℚ) ≤ 2 * x := by rwa [← hk] at hBeyond
    exact (lt_or_eq_of_le hMid).imp_right fun hEq => ⟨hEq, hEven⟩
  upper := fun hFinite => absurd hFinite (Nat.lt_irrefl _)

/-- Half a unit and less rounds to zero. -/
theorem eq_zero (h : f.RoundsTo x m) (hSmall : 2 * x ≤ 1) : m = 0 := by
  have hMid : (f.midpoint 0 : ℚ) = 1 := by
    have hUnits : f.midpoint 0 = 1 := by cases f <;> decide
    exact_mod_cast hUnits
  refine h.unique ⟨Nat.zero_le _, fun k hk => absurd hk (Nat.succ_ne_zero k), fun _ => ?_⟩
  rw [hMid]
  exact (lt_or_eq_of_le hSmall).imp_right fun hEq => ⟨hEq, rfl⟩

end RoundsTo

/-! ## The overflow midpoint -/

/-- The middle between the greatest finite value, `2 ^ top - 2 ^ (top - precision)`, and `2 ^ top`. -/
def overflow (f : FloatWidth) : ℚ := (2 : ℚ) ^ f.top - 2 ^ (f.top - f.precision - 1)

theorem midpoint_last (f : FloatWidth) :
    (f.midpoint (f.infinity - 1) : ℚ) = 2 * (f.overflow * twoPow f.scale) := by
  have hStep : f.lastStep = 2 * (2 ^ (f.top - f.precision - 1) * twoPow f.scale) := by
    have hExponent : f.top + f.scale - f.precision = f.top - f.precision - 1 + f.scale + 1 := by
      cases f <;> rfl
    rw [lastStep, hExponent, twoPow_succ, twoPow_add, Nat.mul_comm]
    rfl
  have hTop : twoPow f.top = 2 ^ f.top := rfl
  have hSum := f.midpoint_sub f.fieldWeight_pos
  rw [hStep, hTop, Nat.mul_zero, Nat.zero_add, Nat.one_mul] at hSum
  have hSum' : (f.midpoint (f.infinity - 1) : ℚ) +
      2 * (2 ^ (f.top - f.precision - 1) * twoPow f.scale) =
        2 * ((2 : ℚ) ^ f.top * twoPow f.scale) := by
    exact_mod_cast hSum
  rw [overflow]
  linarith

theorem midpoint_last_le_iff {f : FloatWidth} {q : ℚ} :
    (f.midpoint (f.infinity - 1) : ℚ) ≤ 2 * (q * twoPow f.scale) ↔ f.overflow ≤ q := by
  have hScale : (0 : ℚ) < twoPow f.scale := by exact_mod_cast twoPow_pos f.scale
  rw [f.midpoint_last, mul_le_mul_iff_right₀ two_pos, mul_le_mul_iff_left₀ hScale]

end FloatWidth

namespace Binary

variable {f : FloatWidth}

/-! ## Values -/

/-- The number that a finite value denotes. -/
def value (x : Binary f) : ℚ := x.signedUnits / twoPow f.scale

/-- The significand: the fraction, with a leading one above the least exponent. -/
def significand (x : Binary f) : Nat :=
  if x.magnitude < f.fieldWeight then x.magnitude
  else f.fieldWeight + x.magnitude % f.fieldWeight

theorem value_eq (x : Binary f) : x.value = withSign x.isNegative x.size := by
  unfold value signedUnits withSign size
  split
  · rw [Int.cast_neg, Int.cast_natCast, neg_div]
  · rw [Int.cast_natCast]

/-- The last bit of the pattern is that of the significand. -/
theorem significand_mod_two (x : Binary f) : x.significand % 2 = x.magnitude % 2 := by
  have hEven := f.fieldWeight_even
  have hSplit := Nat.mod_mod_of_dvd x.magnitude (Nat.dvd_of_mod_eq_zero hEven)
  unfold significand
  split <;> omega

/-! ## The specification -/

/-- Of the finite values, `x` is the nearest to the number `q`, and on a tie the one with the even
significand. -/
structure IsNearest (x : Binary f) (q : ℚ) : Prop where
  isFinite : x.isFinite = true
  closest : ∀ z : Binary f, z.isFinite = true → |x.value - q| ≤ |z.value - q|
  even : ∀ z : Binary f, z.isFinite = true → z.value ≠ x.value →
    |z.value - q| = |x.value - q| → x.significand % 2 = 0

/-- The number of magnitude `q`, negative if `negative`, is rounded to `x`. -/
structure IsRounded (negative : Bool) (q : ℚ) (x : Binary f) : Prop where
  sign : x.isNegative = negative
  overflow : f.overflow ≤ q → x = infinity negative
  nearest : q < f.overflow → x.IsNearest (withSign negative q)
  /-- Half of the least positive value and less is rounded to a zero. -/
  underflow : q ≤ 1 / 2 ^ (f.scale + 1) → x = zero negative

/-! ## Rounding meets it -/

theorem abs_size_sub (x : Binary f) (q : ℚ) :
    |x.size - q| = |x.units - q * twoPow f.scale| / twoPow f.scale := by
  have hScale := twoPow_scale_pos f
  rw [eq_div_iff hScale.ne', ← abs_of_pos hScale, ← abs_mul, abs_of_pos hScale, sub_mul, x.size_mul]

/-- Among magnitudes. -/
theorem size_closest {x : Binary f} {q : ℚ} (hFinite : x.isFinite = true)
    (h : f.RoundsTo (q * twoPow f.scale) x.magnitude) (z : Binary f) :
    |x.size - q| ≤ |z.size - q| := by
  rw [abs_size_sub, abs_size_sub]
  exact div_le_div_of_nonneg_right (h.closest (of_decide_eq_true hFinite) z.magnitude)
    (twoPow_scale_pos f).le

/-- A number is at least as far from a value as their magnitudes are. -/
theorem abs_size_sub_le (z : Binary f) (negative : Bool) {q : ℚ} (hq : 0 ≤ q) :
    |z.size - q| ≤ |z.value - withSign negative q| := by
  rw [z.value_eq]
  by_cases hSigns : z.isNegative = negative
  · rw [hSigns, abs_withSign_sub]
  · rw [abs_withSign_sub_of_ne hSigns z.size_nonneg hq]
    exact abs_sub_le_add z.size_nonneg hq

theorem abs_value_sub (x : Binary f) (q : ℚ) :
    |x.value - withSign x.isNegative q| = |x.size - q| := by
  rw [x.value_eq, abs_withSign_sub]

/-- **Rounding gives the nearest value.** -/
theorem isNearest_of_roundsTo {x : Binary f} {q : ℚ} (hq : 0 ≤ q) (hFinite : x.isFinite = true)
    (h : f.RoundsTo (q * twoPow f.scale) x.magnitude) :
    x.IsNearest (withSign x.isNegative q) where
  isFinite := hFinite
  closest z _ := by
    rw [x.abs_value_sub]
    exact (size_closest hFinite h z).trans (z.abs_size_sub_le _ hq)
  even z _ hDiffers hTie := by
    have hLt : x.magnitude < f.infinity := of_decide_eq_true hFinite
    rw [x.abs_value_sub] at hTie
    have hSizes : |z.size - q| = |x.size - q| :=
      le_antisymm ((z.abs_size_sub_le x.isNegative hq).trans hTie.le) (size_closest hFinite h z)
    rw [significand_mod_two]
    by_cases hSame : z.magnitude = x.magnitude
    · -- Only the signs differ: the number lies in the middle between them and is zero.
      have hSize : z.size = x.size := by rw [size, size, units, units, hSame]
      have hSigns : z.isNegative ≠ x.isNegative := fun hSigns =>
        hDiffers (by rw [z.value_eq, x.value_eq, hSigns, hSize])
      rw [z.value_eq, hSize, abs_withSign_sub_of_ne hSigns x.size_nonneg hq] at hTie
      have hZero : x.size = 0 ∨ q = 0 := by
        have hx := x.size_nonneg
        rcases abs_choice (x.size - q) with hSign | hSign <;> rw [hSign] at hTie
        · exact .inr (by linarith)
        · exact .inl (by linarith)
      rcases hZero with hZero | rfl
      · refine absurd ?_ hDiffers
        rw [z.value_eq, x.value_eq, hSize, hZero]
        cases z.isNegative <;> cases x.isNegative <;> simp [withSign]
      · rw [h.eq_zero (by rw [zero_mul, mul_zero]; exact zero_le_one)]
    · refine h.even_of_tie hLt hSame ?_
      rw [abs_size_sub, abs_size_sub, div_left_inj' (twoPow_scale_pos f).ne'] at hSizes
      exact hSizes

/-- Values of one sign are as far apart as their magnitudes. -/
theorem magnitude_eq_of_value {x z : Binary f} (hSign : x.isNegative = z.isNegative)
    (h : x.value = z.value) : x.magnitude = z.magnitude := by
  have hUnits : |(x.units : ℚ) - z.units| / twoPow f.scale = 0 := by
    have hSize := abs_withSign_sub x.isNegative x.size z.size
    rw [← x.value_eq, hSign, ← z.value_eq, h, sub_self, abs_zero, abs_size_sub, size_mul] at hSize
    exact hSize.symm
  have hZero := (div_eq_zero_iff.mp hUnits).resolve_right (twoPow_scale_pos f).ne'
  have hSame : (x.units : ℚ) = z.units := sub_eq_zero.mp (abs_eq_zero.mp hZero)
  exact f.strictMono_units.injective (by exact_mod_cast hSame)

/-- The two ways of saying what is nearest are one. -/
theorem isNearest_iff {x : Binary f} {q : ℚ} (hq : 0 ≤ q) (hBound : q < f.overflow) :
    x.IsNearest (withSign x.isNegative q) ↔ f.RoundsTo (q * twoPow f.scale) x.magnitude := by
  have hScale := twoPow_scale_pos f
  have hBound' : 2 * (q * twoPow f.scale) < f.midpoint (f.infinity - 1) :=
    lt_of_not_ge (mt FloatWidth.midpoint_last_le_iff.mp (not_le_of_gt hBound))
  constructor
  · intro h
    -- Every finite pattern, with the sign of `x`, is a value that `x` is compared with.
    have hOther : ∀ k < f.infinity, ∃ z : Binary f, z.isFinite = true ∧ z.magnitude = k ∧
        z.isNegative = x.isNegative ∧
        |z.value - withSign x.isNegative q| =
          |f.units k - q * twoPow f.scale| / twoPow f.scale := by
      intro k hk
      have hMagnitude := magnitude_ofMagnitude (f := f) x.isNegative hk.le
      have hSign := isNegative_ofMagnitude (f := f) x.isNegative hk.le
      have hValue := abs_value_sub (ofMagnitude x.isNegative k : Binary f) q
      rw [hSign, abs_size_sub, units, hMagnitude] at hValue
      exact ⟨_, decide_eq_true (hMagnitude.symm ▸ hk), hMagnitude, hSign, hValue⟩
    refine .of_closest (of_decide_eq_true h.isFinite) hBound' (fun k hk => ?_)
      (fun k hk hNe hTie => ?_)
    · obtain ⟨z, hFinite, -, -, hDistance⟩ := hOther k hk
      have hClosest := h.closest z hFinite
      rw [abs_value_sub, hDistance, abs_size_sub, div_le_div_iff_of_pos_right hScale] at hClosest
      exact hClosest
    · obtain ⟨z, hFinite, rfl, hSign, hDistance⟩ := hOther k hk
      rw [← significand_mod_two]
      refine h.even z hFinite (fun hValue => hNe (magnitude_eq_of_value hSign hValue)) ?_
      rw [abs_value_sub, hDistance, abs_size_sub, hTie]
      rfl
  · intro h
    exact isNearest_of_roundsTo hq (decide_eq_true (h.lt_infinity hBound')) h

theorem eq_ofMagnitude {x : Binary f} {negative : Bool} {m : Nat} (hSign : x.isNegative = negative)
    (hMagnitude : x.magnitude = m) : x = ofMagnitude negative m := by
  rw [← hSign, ← hMagnitude, ofMagnitude_self]

/-- **A value is what a number is rounded to if its sign is that of the number and its pattern the one
that the magnitude rounds to.** -/
theorem isRounded_iff {negative : Bool} {q : ℚ} (hq : 0 ≤ q) {x : Binary f} :
    IsRounded negative q x ↔
      x.isNegative = negative ∧ f.RoundsTo (q * twoPow f.scale) x.magnitude := by
  have hScale := twoPow_scale_pos f
  constructor
  · intro h
    refine ⟨h.sign, ?_⟩
    rcases lt_or_ge q f.overflow with hBelow | hBeyond
    · exact (isNearest_iff hq hBelow).mp (h.sign.symm ▸ h.nearest hBelow)
    · rw [h.overflow hBeyond, infinity, magnitude_ofMagnitude _ le_rfl]
      exact .of_beyond (FloatWidth.midpoint_last_le_iff.mpr hBeyond)
  · rintro ⟨rfl, h⟩
    refine ⟨rfl, fun hBeyond => ?_, fun hBelow => (isNearest_iff hq hBelow).mpr h, fun hSmall => ?_⟩
    · have hInfinity : x.magnitude = f.infinity :=
        h.unique (.of_beyond (FloatWidth.midpoint_last_le_iff.mpr hBeyond))
      exact eq_ofMagnitude rfl hInfinity
    · have hPow : (2 : ℚ) ^ (f.scale + 1) = twoPow f.scale * 2 := by
        exact_mod_cast (twoPow_succ f.scale : 2 ^ (f.scale + 1) = twoPow f.scale * 2)
      rw [hPow, le_div_iff₀ (mul_pos hScale two_pos)] at hSmall
      exact eq_ofMagnitude rfl (h.eq_zero (by linarith))

/-- Within the range of a format, the sign and nearness are all there is to rounding. -/
theorem IsNearest.isRounded {negative : Bool} {q : ℚ} (hq : 0 ≤ q) (hBound : q < f.overflow)
    {x : Binary f} (hSign : x.isNegative = negative) (h : x.IsNearest (withSign negative q)) :
    IsRounded negative q x := by
  subst hSign
  exact (isRounded_iff hq).mpr ⟨rfl, (isNearest_iff hq hBound).mp h⟩

/-- What a number is rounded to is one value. -/
theorem IsRounded.unique {negative : Bool} {q : ℚ} (hq : 0 ≤ q) {x z : Binary f}
    (hx : IsRounded negative q x) (hz : IsRounded negative q z) : x = z := by
  obtain ⟨hSign, hRounds⟩ := (isRounded_iff hq).mp hx
  obtain ⟨hSign', hRounds'⟩ := (isRounded_iff hq).mp hz
  rw [eq_ofMagnitude hSign rfl, eq_ofMagnitude hSign' rfl, hRounds.unique hRounds']

end Binary

end WidthExact
