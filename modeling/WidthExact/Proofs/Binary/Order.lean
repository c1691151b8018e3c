import WidthExact.Proofs.Binary.Format

/-!
# The order of floating-point values

Values are compared by their patterns, with the sign put before the magnitude. Of finite values that is
the order of the numbers they denote, and the infinities stand at its ends.

## Main results

* `Binary.le_iff`, `Binary.lt_iff`, `Binary.eq_iff` — the comparisons.
* `Binary.orderKey_le_iff` — finite values.
* `Binary.eq_or_isZero_of_orderKey` — values that are one number.
* `Binary.number_le_iff` — all values but NaNs.
-/

namespace WidthExact.Binary

variable {f : FloatWidth}

theorem le_iff {x y : Binary f} :
    le x y = true ↔ x.isNaN = false ∧ y.isNaN = false ∧ x.orderKey ≤ y.orderKey := by
  rw [le, Bool.and_eq_true, Bool.and_eq_true, Bool.not_eq_true', Bool.not_eq_true',
    decide_eq_true_iff, and_assoc]

theorem lt_iff {x y : Binary f} :
    lt x y = true ↔ x.isNaN = false ∧ y.isNaN = false ∧ x.orderKey < y.orderKey := by
  rw [lt, Bool.and_eq_true, Bool.and_eq_true, Bool.not_eq_true', Bool.not_eq_true',
    decide_eq_true_iff, and_assoc]

theorem eq_iff {x y : Binary f} :
    eq x y = true ↔ x.isNaN = false ∧ y.isNaN = false ∧ x.orderKey = y.orderKey := by
  rw [eq, Bool.and_eq_true, Bool.and_eq_true, Bool.not_eq_true', Bool.not_eq_true',
    decide_eq_true_iff, and_assoc]

theorem natAbs_orderKey (x : Binary f) : x.orderKey.natAbs = x.magnitude := by
  unfold orderKey
  split <;> omega

theorem isNaN_of_isZero {x : Binary f} (h : x.isZero = true) : x.isNaN = false := by
  have hMagnitude : x.magnitude = 0 := of_decide_eq_true h
  rw [isNaN, hMagnitude]
  exact decide_eq_false (Nat.not_lt_zero _)

theorem orderKey_of_isZero {x : Binary f} (h : x.isZero = true) : x.orderKey = 0 := by
  have hMagnitude : x.magnitude = 0 := of_decide_eq_true h
  rw [← Int.natAbs_eq_zero, natAbs_orderKey, hMagnitude]

theorem orderKey_of_nonneg {x : Binary f} (h : x.isNegative = false) :
    x.orderKey = x.magnitude := by
  rw [orderKey, h]
  rfl

/-- The units of a pattern are in the order of patterns on either side of zero. -/
theorem orderKey_le_iff (x y : Binary f) : x.orderKey ≤ y.orderKey ↔ x.value ≤ y.value := by
  have hScale := twoPow_scale_pos f
  rw [value, value, div_le_div_iff_of_pos_right hScale, Int.cast_le, orderKey, orderKey, signedUnits,
    signedUnits, units, units]
  have hOrder := f.strictMono_units.le_iff_le (a := x.magnitude) (b := y.magnitude)
  have hOrder' := f.strictMono_units.le_iff_le (a := y.magnitude) (b := x.magnitude)
  have hx := f.units_eq_zero_iff (m := x.magnitude)
  have hy := f.units_eq_zero_iff (m := y.magnitude)
  split <;> split <;> omega

theorem le_trans {x y z : Binary f} (hxy : le x y = true) (hyz : le y z = true) :
    le x z = true := by
  obtain ⟨hx, -, hFirst⟩ := le_iff.mp hxy
  obtain ⟨-, hz, hSecond⟩ := le_iff.mp hyz
  exact le_iff.mpr ⟨hx, hz, hFirst.trans hSecond⟩

theorem le_total {x y : Binary f} (hx : x.isNaN = false) (hy : y.isNaN = false) :
    le x y = true ∨ le y x = true :=
  (Int.le_total x.orderKey y.orderKey).imp (fun h => le_iff.mpr ⟨hx, hy, h⟩)
    (fun h => le_iff.mpr ⟨hy, hx, h⟩)

/-- Of numbers, what is not less than another one is at least as great. -/
theorem lt_eq_not_le {x y : Binary f} (hx : x.isNaN = false) (hy : y.isNaN = false) :
    lt x y = !le y x := by
  have hOrder : decide (x.orderKey < y.orderKey) = !decide (y.orderKey ≤ x.orderKey) := by
    rw [← decide_not]
    exact decide_eq_decide.mpr Int.not_le.symm
  rw [lt, le, hx, hy, hOrder]
  rfl

/-- The same number is the same pattern, unless it is zero. -/
theorem eq_or_isZero_of_orderKey {x y : Binary f} (h : x.orderKey = y.orderKey) :
    x = y ∨ x.isZero = true ∧ y.isZero = true := by
  have hMagnitude : x.magnitude = y.magnitude := by
    rw [← natAbs_orderKey, h, natAbs_orderKey]
  by_cases hSign : x.isNegative = y.isNegative
  · left
    rw [eq_ofMagnitude hSign hMagnitude, ofMagnitude_self]
  · right
    have hZero : x.magnitude = 0 := by
      rw [orderKey, orderKey, hMagnitude] at h
      cases hx : x.isNegative <;> cases hy : y.isNegative <;>
        simp only [hx, hy, if_true, if_false, Bool.false_eq_true, not_true] at h hSign <;> omega
    exact ⟨decide_eq_true hZero, decide_eq_true (hMagnitude ▸ hZero)⟩

/-! ## Numbers -/

/-- The rational numbers with an infinity at either end. -/
abbrev ExtendedRat := WithBot (WithTop ℚ)

/-- The number that a value denotes, if it is no NaN. -/
def number (x : Binary f) : ExtendedRat :=
  if x.isInfinite then if x.isNegative then ⊥ else ⊤ else ((x.value : WithTop ℚ) : ExtendedRat)

theorem number_of_isFinite {x : Binary f} (h : x.isFinite = true) :
    x.number = ((x.value : WithTop ℚ) : ExtendedRat) := by
  rw [number, isInfinite_of_isFinite h]
  rfl

theorem number_of_isInfinite {x : Binary f} (h : x.isInfinite = true) :
    x.number = if x.isNegative then ⊥ else ⊤ := if_pos h

/-- No finite number is infinite. -/
theorem orderKey_bounds {x : Binary f} (h : x.isFinite = true) :
    -f.infinity < x.orderKey ∧ x.orderKey < f.infinity := by
  have hKey := x.natAbs_orderKey
  have hBelow : x.magnitude < f.infinity := of_decide_eq_true h
  omega

theorem orderKey_of_isInfinite {x : Binary f} (h : x.isInfinite = true) :
    x.orderKey = if x.isNegative then -(f.infinity : Int) else f.infinity := by
  have hMagnitude : x.magnitude = f.infinity := of_decide_eq_true h
  rw [orderKey, hMagnitude]

theorem orderKey_infinity : (infinity false : Binary f).orderKey = f.infinity := by
  rw [orderKey_of_nonneg (isNegative_infinity false), infinity, magnitude_ofMagnitude _ le_rfl]

/-- Nothing but infinity is as great as infinity. -/
theorem eq_infinity_of_orderKey {x : Binary f} (hNumber : x.isNaN = false)
    (hKey : f.infinity ≤ x.orderKey) : x = infinity false := by
  have hInfinite : x.isInfinite = true := (isFinite_or_isInfinite hNumber).resolve_left
    fun hFinite => absurd hKey (not_le_of_gt (orderKey_bounds hFinite).2)
  have hSign : x.isNegative = false := by
    by_contra hNot
    have hPos : 0 < f.infinity := by cases f <;> decide
    rw [orderKey, if_pos (eq_true_of_ne_false hNot)] at hKey
    omega
  rw [eq_infinity hInfinite, hSign]

/-- **The order of patterns is that of the numbers denoted.** -/
theorem number_le_iff {x y : Binary f} (hx : x.isNaN = false) (hy : y.isNaN = false) :
    x.number ≤ y.number ↔ x.orderKey ≤ y.orderKey := by
  have hPos : 0 < f.infinity := by cases f <;> decide
  rcases isFinite_or_isInfinite hx with hLeft | hLeft <;>
    rcases isFinite_or_isInfinite hy with hRight | hRight
  · rw [number_of_isFinite hLeft, number_of_isFinite hRight, WithBot.coe_le_coe, WithTop.coe_le_coe,
      orderKey_le_iff]
  · have hBounds := orderKey_bounds hLeft
    rw [number_of_isFinite hLeft, number_of_isInfinite hRight, orderKey_of_isInfinite hRight]
    cases y.isNegative with
    | false => exact iff_of_true le_top hBounds.2.le
    | true => exact iff_of_false (by simp) (by simp; omega)
  · have hBounds := orderKey_bounds hRight
    rw [number_of_isInfinite hLeft, number_of_isFinite hRight, orderKey_of_isInfinite hLeft]
    cases x.isNegative with
    | false => exact iff_of_false (by simp) (by simp; omega)
    | true => exact iff_of_true bot_le hBounds.1.le
  · rw [number_of_isInfinite hLeft, number_of_isInfinite hRight, orderKey_of_isInfinite hLeft,
      orderKey_of_isInfinite hRight]
    cases x.isNegative <;> cases y.isNegative <;> simp
    omega

end WidthExact.Binary
