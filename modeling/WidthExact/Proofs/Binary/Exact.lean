import WidthExact.Binary.Convert
import WidthExact.Proofs.Binary.Literal

/-!
# Exact values and the error of rounding

A number that a format holds is rounded to itself, so that products and quotients of such numbers
are rounded once only. A natural number below `2 ^ precision` is held, and so is one with zeros behind
as many bits. Any other natural number is off by one part in `2 ^ precision` at most.

## Main results

* `FloatWidth.units_sub` — the greatest patterns.
* `FloatWidth.exists_units_eq`, `FloatWidth.exists_eq_units` — what a format holds.
* `FloatWidth.RoundsTo.units_le` — how far rounding goes up.
-/

namespace WidthExact

theorem twoPow_le {m n : Nat} (h : m ≤ n) : twoPow m ≤ twoPow n :=
  Nat.pow_le_pow_right (by decide) h

theorem tenPow_le {m n : Nat} (h : m ≤ n) : tenPow m ≤ tenPow n :=
  Nat.pow_le_pow_right (by decide) h

namespace FloatWidth

/-! ## The ends of a format -/

theorem units_zero (f : FloatWidth) : f.units 0 = 0 := if_pos f.fieldWeight_pos

theorem units_eq_zero_iff (f : FloatWidth) {m : Nat} : f.units m = 0 ↔ m = 0 :=
  ⟨fun h => f.strictMono_units.injective (h.trans f.units_zero.symm), fun h => h ▸ f.units_zero⟩

/-- Infinity stands where `2 ^ top` would. -/
def top : FloatWidth → Nat
  | f32 => 128
  | f64 => 1024

/-- The number of units from the greatest finite pattern to infinity. -/
def lastStep (f : FloatWidth) : Nat := twoPow (f.top + f.scale - f.precision)

theorem infinity_eq (f : FloatWidth) :
    f.infinity = (f.top + f.scale - f.precision) * f.fieldWeight + 2 * f.fieldWeight := by
  cases f <;> decide

/-- From a pattern right below infinity it is one such step to the next one. -/
theorem units_sub (f : FloatWidth) {k : Nat} (hk : k ≤ f.fieldWeight) :
    f.units (f.infinity - k) + k * f.lastStep = twoPow f.top * twoPow f.scale := by
  have hExponent : f.precision + (f.top + f.scale - f.precision) = f.top + f.scale := by
    cases f <;> rfl
  rw [infinity_eq, Nat.add_sub_assoc (by omega), f.units_grid (Nat.sub_le _ _) (.inr (by omega)),
    lastStep, ← Nat.add_mul, Nat.sub_add_cancel (by omega), ← twoPow_precision, ← twoPow_add,
    hExponent, twoPow_add]

theorem units_infinity (f : FloatWidth) :
    f.units f.infinity = twoPow f.top * twoPow f.scale := by
  rw [← f.units_sub (Nat.zero_le _), Nat.zero_mul, Nat.add_zero, Nat.sub_zero]

/-- The middle behind a pattern right below infinity. -/
theorem midpoint_sub (f : FloatWidth) {k : Nat} (hk : k < f.fieldWeight) :
    f.midpoint (f.infinity - (k + 1)) + (2 * k + 1) * f.lastStep =
      2 * (twoPow f.top * twoPow f.scale) := by
  have hInfinity := f.infinity_eq
  have hNext : f.infinity - (k + 1) + 1 = f.infinity - k := by omega
  have hHere := f.units_sub (k := k + 1) hk
  have hThere := f.units_sub hk.le
  have hSteps : (2 * k + 1) * f.lastStep = (k + 1) * f.lastStep + k * f.lastStep := by
    rw [← Nat.add_mul]
    congr 1
    omega
  rw [midpoint, hNext, hSteps]
  omega

variable {f : FloatWidth}

/-! ## What a format holds -/

/-- A number of at most `precision` bits is that of a pattern, however often it is doubled. If it is
too great, the pattern lies beyond infinity. -/
theorem exists_units_eq (j : Nat) : ∀ {c : Nat}, c < twoPow f.precision →
    ∃ m, f.units m = c * twoPow j := by
  have hWeight := f.twoPow_precision
  induction j with
  | zero =>
      intro c hc
      exact ⟨0 * f.fieldWeight + c, f.units_grid (by omega) (.inl rfl)⟩
  | succ j ih =>
      intro c hc
      by_cases hLead : f.fieldWeight ≤ c
      · exact ⟨(j + 1) * f.fieldWeight + c, f.units_grid (by omega) (.inr hLead)⟩
      · obtain ⟨m, hUnits⟩ := ih (c := c * 2) (by omega)
        exact ⟨m, by rw [hUnits, twoPow_succ, Nat.mul_assoc, Nat.mul_comm 2]⟩

/-- The number of any pattern is one of those. -/
theorem exists_eq_units (f : FloatWidth) (m : Nat) :
    ∃ c j, c < twoPow f.precision ∧ f.units m = c * twoPow j := by
  obtain ⟨drop, kept, hGrid, hKept, hLead⟩ := f.exists_grid m
  exact ⟨kept, drop, f.twoPow_precision ▸ hKept, by rw [hGrid, f.units_grid hKept.le hLead]⟩

/-- A ratio that a format holds is rounded to itself. -/
theorem nearestRatio_eq_of_units {num den m : Nat} (hDen : 0 < den) (hLe : m ≤ f.infinity)
    (h : num * twoPow f.scale = f.units m * den) : f.nearestRatio num den = m := by
  have hValue : (num : ℚ) / den * twoPow f.scale = f.units m := by
    have hDen' : (den : ℚ) ≠ 0 := by exact_mod_cast hDen.ne'
    have h' : (num : ℚ) * twoPow f.scale = f.units m * den := by exact_mod_cast h
    rw [div_mul_eq_mul_div, div_eq_iff hDen', h']
  rw [f.nearestRatio_eq_iff hDen, hValue]
  exact .units hLe

/-- Infinity is no rounding of less than the middle between it and the greatest finite number. -/
theorem RoundsTo.lt_infinity {x : ℚ} {m : Nat} (h : f.RoundsTo x m)
    (hLt : 2 * x < f.midpoint (f.infinity - 1)) : m < f.infinity := by
  rcases Nat.lt_or_eq_of_le h.le_infinity with hFinite | rfl
  · exact hFinite
  · have hPos : 0 < f.infinity := by cases f <;> decide
    have hLower := h.lower_le (Nat.sub_lt hPos Nat.one_pos)
    exact absurd hLower (Rat.not_le.mpr hLt)

/-- The step from a pattern to the next one is the last bit of the pattern. -/
theorem exists_step (k : Nat) : ∃ step, f.units (k + 1) = f.units k + step ∧
    (step = 1 ∨ f.fieldWeight * step ≤ f.units k) := by
  obtain ⟨drop, kept, rfl, hTop, hLead⟩ := f.exists_grid k
  refine ⟨twoPow drop, ?_, ?_⟩
  · rw [Nat.add_assoc, f.units_grid (by omega) hLead, f.units_grid (by omega) (by omega),
      Nat.add_mul, Nat.one_mul]
  · rw [f.units_grid (by omega) hLead]
    rcases hLead with rfl | hLead
    · exact .inl rfl
    · exact .inr (Nat.mul_le_mul_right _ hLead)

/-- **Rounding goes up by half of the last bit at most.** A number that is not below the normal ones
is off by one part in `2 ^ precision`. -/
theorem RoundsTo.units_le {x : ℚ} {m : Nat} (h : f.RoundsTo x m) (hNormal : f.fieldWeight ≤ x) :
    (2 * f.fieldWeight : ℚ) * f.units m ≤ (2 * f.fieldWeight + 1) * x := by
  have hWeight : (0 : ℚ) < f.fieldWeight := by exact_mod_cast f.fieldWeight_pos
  cases m with
  | zero =>
      rw [f.units_zero, Nat.cast_zero, mul_zero]
      exact mul_nonneg (by linarith) (by linarith)
  | succ k =>
      obtain ⟨step, hStep, hSmall⟩ := f.exists_step k
      have hMid : (f.midpoint k : ℚ) ≤ 2 * x := h.lower_le (Nat.lt_succ_self k)
      have hSum : (f.midpoint k : ℚ) = f.units k + f.units (k + 1) := by
        exact_mod_cast rfl
      have hNext : (f.units (k + 1) : ℚ) = f.units k + step := by exact_mod_cast hStep
      have hStepNonneg : (0 : ℚ) ≤ step := Nat.cast_nonneg step
      have hPart : (f.fieldWeight : ℚ) * step ≤ x := by
        rcases hSmall with rfl | hSmall
        · rw [Nat.cast_one, mul_one]
          exact hNormal
        · have hSmall' : (f.fieldWeight : ℚ) * step ≤ f.units k := by exact_mod_cast hSmall
          linarith
      have hUp : (f.units (k + 1) : ℚ) ≤ x + step / 2 := by linarith
      calc (2 * f.fieldWeight : ℚ) * f.units (k + 1)
          ≤ 2 * f.fieldWeight * (x + step / 2) := mul_le_mul_of_nonneg_left hUp (by linarith)
        _ = 2 * f.fieldWeight * x + f.fieldWeight * step := by ring
        _ ≤ (2 * f.fieldWeight + 1) * x := by linarith

end FloatWidth

namespace Binary

variable {f : FloatWidth}

theorem infinity_lt_signWeight (f : FloatWidth) : f.infinity < f.signWeight := by
  cases f <;> decide

section

variable (negative : Bool) {m : Nat}

theorem toNat_ofMagnitude (h : m < f.signWeight) :
    (ofMagnitude negative m : Binary f).pattern.toNat =
      m + if negative then f.signWeight else 0 := by
  have hBits := two_pow_bits f
  refine (BitVec.toNat_ofNat _ _).trans (Nat.mod_eq_of_lt ?_)
  show _ < 2 ^ f.bits
  split <;> omega

theorem magnitude_ofMagnitude_of_lt (h : m < f.signWeight) :
    (ofMagnitude negative m : Binary f).magnitude = m := by
  rw [magnitude, toNat_ofMagnitude negative h]
  cases negative with
  | false => exact Nat.mod_eq_of_lt h
  | true =>
      rw [if_pos rfl, Nat.add_mod_right]
      exact Nat.mod_eq_of_lt h

theorem isNegative_ofMagnitude_of_lt (h : m < f.signWeight) :
    (ofMagnitude negative m : Binary f).isNegative = negative := by
  have hSign : (ofMagnitude negative m : Binary f).isNegative =
      decide (f.signWeight ≤ (ofMagnitude negative m : Binary f).pattern.toNat) :=
    BitVec.msb_eq_decide _
  rw [hSign, toNat_ofMagnitude negative h]
  cases negative with
  | false => exact decide_eq_false (by rw [if_neg Bool.false_ne_true]; omega)
  | true => exact decide_eq_true (by rw [if_pos rfl]; omega)

theorem magnitude_ofMagnitude (h : m ≤ f.infinity) :
    (ofMagnitude negative m : Binary f).magnitude = m :=
  magnitude_ofMagnitude_of_lt negative (h.trans_lt (infinity_lt_signWeight f))

theorem isNegative_ofMagnitude (h : m ≤ f.infinity) :
    (ofMagnitude negative m : Binary f).isNegative = negative :=
  isNegative_ofMagnitude_of_lt negative (h.trans_lt (infinity_lt_signWeight f))

end

/-- Turning the sign bit over leaves the rest, also of a NaN. -/
theorem magnitude_negate (x : Binary f) : x.negate.magnitude = x.magnitude :=
  magnitude_ofMagnitude_of_lt _ (Nat.mod_lt _ (twoPow_pos _))

theorem isNegative_negate (x : Binary f) : x.negate.isNegative = !x.isNegative :=
  isNegative_ofMagnitude_of_lt _ (Nat.mod_lt _ (twoPow_pos _))

theorem isFinite_negate (x : Binary f) : x.negate.isFinite = x.isFinite := by
  rw [isFinite, magnitude_negate]
  rfl

theorem isFinite_ofMagnitude (negative : Bool) {m : Nat} (h : m < f.infinity) :
    (ofMagnitude negative m : Binary f).isFinite = true := by
  rw [isFinite, magnitude_ofMagnitude negative h.le]
  exact decide_eq_true h

/-! ## Sizes -/

/-- The magnitude of a finite value, as a number. -/
def size (x : Binary f) : ℚ := x.units / twoPow f.scale

theorem twoPow_scale_pos (f : FloatWidth) : (0 : ℚ) < twoPow f.scale := by
  exact_mod_cast twoPow_pos f.scale

theorem size_nonneg (x : Binary f) : 0 ≤ x.size :=
  div_nonneg (Nat.cast_nonneg _) (twoPow_scale_pos f).le

theorem size_mul (x : Binary f) : x.size * twoPow f.scale = x.units :=
  div_mul_cancel₀ _ (twoPow_scale_pos f).ne'

theorem units_pos_of_size {x : Binary f} (h : 0 < x.size) : 0 < x.units := by
  have hUnits : (0 : ℚ) < x.units := x.size_mul ▸ mul_pos h (twoPow_scale_pos f)
  exact_mod_cast hUnits

theorem magnitude_ofRatio (negative : Bool) (num : Nat) {den : Nat} (hDen : 0 < den) :
    (ofRatio negative num den : Binary f).magnitude = f.nearestRatio num den :=
  magnitude_ofMagnitude negative (f.nearestRatio_roundsTo num hDen).le_infinity

theorem isNegative_ofRatio (negative : Bool) (num : Nat) {den : Nat} (hDen : 0 < den) :
    (ofRatio negative num den : Binary f).isNegative = negative :=
  isNegative_ofMagnitude negative (f.nearestRatio_roundsTo num hDen).le_infinity

/-- A product is rounded once. -/
theorem mul_roundsTo (x y : Binary f) :
    f.RoundsTo (x.size * y.size * twoPow f.scale) (x.mul y).magnitude := by
  have hScale := twoPow_scale_pos f
  have hDouble : ((twoPow (2 * f.scale) : Nat) : ℚ) = twoPow f.scale * twoPow f.scale := by
    rw [Nat.two_mul, twoPow_add, Nat.cast_mul]
  have hValue : ((x.units * y.units : Nat) : ℚ) / (twoPow (2 * f.scale) : Nat) =
      x.size * y.size := by
    rw [hDouble, Nat.cast_mul, mul_div_mul_comm]
    rfl
  rw [mul, magnitude_ofRatio _ _ (twoPow_pos _), ← hValue]
  exact f.nearestRatio_roundsTo _ (twoPow_pos _)

/-- A quotient is rounded once. -/
theorem div_roundsTo (x : Binary f) {y : Binary f} (hy : 0 < y.units) :
    f.RoundsTo (x.size / y.size * twoPow f.scale) (x.div y).magnitude := by
  have hValue : (x.units : ℚ) / y.units = x.size / y.size :=
    (div_div_div_cancel_right₀ (twoPow_scale_pos f).ne' _ _).symm
  rw [div, magnitude_ofRatio _ _ hy, ← hValue]
  exact f.nearestRatio_roundsTo _ hy

/-- A natural number is rounded once. -/
theorem ofNat_roundsTo (n : Nat) :
    f.RoundsTo (n * twoPow f.scale) (ofNat n : Binary f).magnitude := by
  have hRounds := f.nearestRatio_roundsTo n Nat.one_pos
  rw [Nat.cast_one, div_one] at hRounds
  rw [ofNat, magnitude_ofRatio _ _ Nat.one_pos]
  exact hRounds

theorem magnitude_ofInt (n : Int) :
    (ofInt n : Binary f).magnitude = (ofNat n.natAbs : Binary f).magnitude := by
  rw [ofInt, ofNat, magnitude_ofRatio _ _ Nat.one_pos, magnitude_ofRatio _ _ Nat.one_pos]

/-- A number that the format holds is kept. -/
theorem magnitude_ofRatio_one (negative : Bool) {n m : Nat} (hLe : m ≤ f.infinity)
    (h : f.units m = n * twoPow f.scale) : (ofRatio negative n 1 : Binary f).magnitude = m := by
  rw [magnitude_ofRatio _ _ Nat.one_pos]
  exact FloatWidth.nearestRatio_eq_of_units Nat.one_pos hLe (by rw [h, Nat.mul_one])

theorem size_of_units {x : Binary f} {n : Nat} (h : x.units = n * twoPow f.scale) :
    x.size = n := by
  rw [size, h, Nat.cast_mul]
  exact mul_div_cancel_right₀ _ (twoPow_scale_pos f).ne'

theorem size_ofNat_of_units {n m : Nat} (hLe : m ≤ f.infinity)
    (h : f.units m = n * twoPow f.scale) : (ofNat n : Binary f).size = n := by
  refine size_of_units ?_
  rw [units, ofNat, magnitude_ofRatio_one false hLe h, h]

theorem isZero_ofNat_zero : (ofNat 0 : Binary f).isZero = true :=
  decide_eq_true (magnitude_ofRatio_one false (Nat.zero_le _) (by rw [f.units_zero, Nat.zero_mul]))

/-- A natural number with at most `precision` bits behind which there may be zeros is kept. -/
theorem size_ofNat {c : Nat} (j : Nat) (hc : c < twoPow f.precision)
    (hSmall : c * twoPow j * twoPow f.scale ≤ f.units f.infinity) :
    (ofNat (c * twoPow j) : Binary f).size = (c * twoPow j : Nat) := by
  obtain ⟨m, hm⟩ := FloatWidth.exists_units_eq (j + f.scale) hc
  rw [twoPow_add, ← Nat.mul_assoc] at hm
  exact size_ofNat_of_units (f.strictMono_units.le_iff_le.mp (hm ▸ hSmall)) hm

/-- Any other is off by one part in `2 ^ precision`. -/
theorem size_ofNat_le {n : Nat} (hPos : 0 < n) :
    (2 * f.fieldWeight : ℚ) * (ofNat n : Binary f).size ≤ (2 * f.fieldWeight + 1) * n := by
  have hScale := twoPow_scale_pos f
  have hNormal : (f.fieldWeight : ℚ) ≤ n * twoPow f.scale := by
    have hWeight : f.fieldWeight ≤ twoPow f.scale :=
      Nat.pow_le_pow_right (by decide) (by cases f <;> decide)
    exact_mod_cast hWeight.trans (Nat.le_mul_of_pos_left _ hPos)
  have hUnits := (ofNat_roundsTo (f := f) n).units_le hNormal
  rw [← mul_assoc] at hUnits
  rw [size, mul_div_assoc', div_le_iff₀ hScale]
  exact hUnits

/-- A positive natural number does not come out below one. -/
theorem one_le_size_ofNat {n : Nat} (hPos : 0 < n) : 1 ≤ (ofNat n : Binary f).size := by
  have hBits : 1 < twoPow f.precision := by cases f <;> decide
  obtain ⟨m, hm⟩ := FloatWidth.exists_units_eq (f := f) f.scale hBits
  have hm' : (f.units m : ℚ) = 1 * twoPow f.scale := by exact_mod_cast hm
  have hFinite : m ≤ f.infinity := by
    refine f.strictMono_units.le_iff_le.mp ?_
    rw [hm, f.units_infinity]
    exact Nat.mul_le_mul_right _ (twoPow_pos _)
  have hBelow : (f.units m : ℚ) ≤ n * twoPow f.scale := by
    rw [hm']
    exact mul_le_mul_of_nonneg_right (by exact_mod_cast hPos) (twoPow_scale_pos f).le
  have hOrder := (FloatWidth.RoundsTo.units hFinite).mono (ofNat_roundsTo n) hBelow
  rw [size, le_div_iff₀ (twoPow_scale_pos f), ← hm']
  exact_mod_cast f.strictMono_units.monotone hOrder

/-- A quotient by one or more is finite. -/
theorem isFinite_div {x y : Binary f} (hFinite : x.isFinite = true) (hOne : 1 ≤ y.size) :
    (x.div y).isFinite = true := by
  have hLt : x.magnitude < f.infinity := of_decide_eq_true hFinite
  have hUnits := units_pos_of_size (one_pos.trans_le hOne)
  have hLess : x.size / y.size * twoPow f.scale ≤ f.units x.magnitude := by
    rw [← units, ← x.size_mul]
    exact mul_le_mul_of_nonneg_right (div_le_self x.size_nonneg hOne) (twoPow_scale_pos f).le
  have hOrder := (x.div_roundsTo hUnits).mono (FloatWidth.RoundsTo.units hLt.le) hLess
  exact decide_eq_true (hOrder.trans_lt hLt)

end Binary

end WidthExact
