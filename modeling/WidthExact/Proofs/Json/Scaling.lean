import WidthExact.Json.Number
import WidthExact.Proofs.Binary.Exact
import WidthExact.Proofs.Text.Digits

/-!
# Scaling by powers of ten

A number is read by scaling a rounded integer by a rounded power of ten. Both are exact if the
integer is below `2 ^ 53` and the power between `10 ^ -22` and `10 ^ 22`, so that the one rounding
that is left gives the wide value nearest to the number. Any number up to `2 ^ 1024 - 5 * 2 ^ 970`,
which is two and a half steps below the end of the wide format, keeps below infinity, whatever is
rounded on the way.

## Main results

* `JsonNumber.isFinite_scaleByTen` — a product beyond the format is none.
* `JsonNumber.scaleByTen_exact` — one rounding.
* `JsonNumber.isSome_scaleByTen` — no number is refused but at the upper end of the format.
-/

namespace WidthExact.JsonNumber

open Binary

/-! ## Powers of ten -/

/-- A number with at most 53 bits, some zeros behind them, is held by the wide format. -/
theorem size_ofNat_mul {c j n : Nat} (hn : n = c * twoPow j) (hc : c < twoPow 53)
    (hSmall : n ≤ twoPow 1024) : (ofNat n : Binary .f64).size = n := by
  have hUnits : n * twoPow FloatWidth.f64.scale ≤
      twoPow FloatWidth.f64.top * twoPow FloatWidth.f64.scale := Nat.mul_le_mul_right _ hSmall
  rw [← FloatWidth.f64.units_infinity] at hUnits
  subst hn
  exact size_ofNat j hc hUnits

theorem tenPow_eq (k : Nat) : tenPow k = Nat.pow 5 k * twoPow k := Nat.mul_pow 5 2 k

theorem tenPow_22_le : tenPow 22 ≤ twoPow 74 := by decide

/-- The powers of ten that the wide format holds. -/
theorem size_tenPower {k : Nat} (hk : k ≤ 22) : (tenPower k).size = (10 : ℚ) ^ k := by
  have hFive : Nat.pow 5 k < twoPow 53 :=
    Nat.lt_of_le_of_lt (Nat.pow_le_pow_right (by decide) hk) (by decide)
  have hSmall : tenPow k ≤ twoPow 1024 :=
    (tenPow_le hk).trans (tenPow_22_le.trans (twoPow_le (by decide)))
  rw [tenPower, size_ofNat_mul (tenPow_eq k) hFive hSmall]
  exact Nat.cast_pow 10 k

/-- The numbers that the wide format holds. -/
theorem size_ofNat_of_lt {n : Nat} (hn : n < twoPow 53) : (ofNat n : Binary .f64).size = n :=
  size_ofNat_mul (j := 0) (Nat.mul_one n).symm hn (hn.le.trans (twoPow_le (by decide)))

theorem one_le_size_tenPower (k : Nat) : 1 ≤ (tenPower k).size := one_le_size_ofNat (tenPow_pos k)

theorem isNegative_ofNat (n : Nat) : (ofNat n : Binary .f64).isNegative = false :=
  isNegative_ofRatio false n Nat.one_pos

theorem isNegative_tenPower (k : Nat) : (tenPower k).isNegative = false :=
  isNegative_ofNat _

/-! ## Finite products -/

/-- Half a step at the upper end of the wide format is `2 ^ 970`. -/
theorem lastStep_f64 :
    FloatWidth.f64.lastStep = 2 * twoPow 970 * twoPow FloatWidth.f64.scale := by
  rw [Nat.mul_comm 2, ← twoPow_succ, ← twoPow_add]
  rfl

/-- And `2 ^ 1024` is `2 ^ 54` of them. -/
theorem twoPow_1024_eq : twoPow 1024 = 2 ^ 54 * twoPow 970 := by
  have hSplit : twoPow (54 + 970) = twoPow 54 * twoPow 970 := twoPow_add 54 970
  have hSmall : twoPow 54 = 2 ^ 54 := rfl
  rw [hSmall] at hSplit
  exact hSplit

/-- The middle behind one of the greatest wide values. -/
theorem midpoint_sub_f64 {k : Nat} (hk : k < FloatWidth.f64.fieldWeight) :
    (FloatWidth.f64.midpoint (FloatWidth.f64.infinity - (k + 1)) : ℚ) =
      2 * (twoPow 1024 - (2 * k + 1) * twoPow 970) * twoPow FloatWidth.f64.scale := by
  have hTop : FloatWidth.f64.top = 1024 := rfl
  have hSum := FloatWidth.f64.midpoint_sub hk
  rw [lastStep_f64, hTop] at hSum
  have hSum' : (FloatWidth.f64.midpoint (FloatWidth.f64.infinity - (k + 1)) : ℚ) +
      (2 * k + 1) * (2 * twoPow 970 * twoPow FloatWidth.f64.scale) =
        2 * (twoPow 1024 * twoPow FloatWidth.f64.scale) := by
    exact_mod_cast hSum
  linarith

/-- A number below the middle between the greatest wide value and the next power of two does not
round to infinity. -/
theorem lt_infinity_of_lt {x : ℚ} {m : Nat}
    (h : FloatWidth.f64.RoundsTo (x * twoPow FloatWidth.f64.scale) m)
    (hLt : x < twoPow 1024 - twoPow 970) : m < FloatWidth.f64.infinity := by
  have hScale := twoPow_scale_pos .f64
  have hMid : (FloatWidth.f64.midpoint (FloatWidth.f64.infinity - 1) : ℚ) =
      2 * (twoPow 1024 - twoPow 970) * twoPow FloatWidth.f64.scale := by
    have hFirst := midpoint_sub_f64 FloatWidth.f64.fieldWeight_pos
    rwa [Nat.cast_zero, mul_zero, zero_add (1 : ℚ), one_mul] at hFirst
  refine h.lt_infinity ?_
  rw [hMid, ← mul_assoc]
  exact mul_lt_mul_of_pos_right (by linarith) hScale

theorem isInfinite_mul_eq_false {x y : Binary .f64}
    (h : x.size * y.size < twoPow 1024 - twoPow 970) : (x.mul y).isInfinite = false :=
  decide_eq_false (Nat.ne_of_lt (lt_infinity_of_lt (x.mul_roundsTo y) h))

/-- Scaling a finite value gives a finite value, if it gives any. -/
theorem isFinite_scaleByTen {x y : Binary .f64} {e : Int} (hFinite : x.isFinite = true)
    (h : scaleByTen x e = some y) : y.isFinite = true := by
  induction x, e using scaleByTen.induct with
  | case1 x e hUp hZero =>
      rw [scaleByTen, if_pos hUp, if_pos hZero] at h
      exact Option.some.inj h ▸ hFinite
  | case2 x e hUp hZero hGreat =>
      rw [scaleByTen, if_pos hUp, if_neg hZero, if_pos hGreat] at h
      cases h
  | case3 x e hUp hZero hGreat =>
      rw [scaleByTen, if_pos hUp, if_neg hZero, if_neg hGreat] at h
      obtain ⟨hProduct, hNot⟩ := Option.filter_eq_some_iff.mp h
      obtain rfl := Option.some.inj hProduct
      have hInfinite : (x.mul (tenPower e.toNat)).isInfinite = false := by simpa using hNot
      exact decide_eq_true (Nat.lt_of_le_of_ne (x.mul_roundsTo _).le_infinity
        (of_decide_eq_false hInfinite))
  | case4 x e hUp hDown =>
      rw [scaleByTen, if_neg hUp, if_pos hDown] at h
      obtain rfl := Option.some.inj h
      exact isFinite_div hFinite (one_le_size_tenPower _)
  | case5 x e hUp hDown hZero =>
      rw [scaleByTen, if_neg hUp, if_neg hDown, if_pos hZero] at h
      exact Option.some.inj h ▸ hFinite
  | case6 x e hUp hDown hZero ih =>
      rw [scaleByTen, if_neg hUp, if_neg hDown, if_neg hZero] at h
      exact ih (isFinite_div hFinite (one_le_size_tenPower _)) h

/-- An integer of 64 bits is finite. -/
theorem isFinite_ofNat {n : Nat} (h : n ≤ twoPow 64) : (ofNat n : Binary .f64).isFinite = true := by
  have hRoom : (twoPow 64 : ℚ) + twoPow 970 < twoPow 1024 := by
    have hLess : twoPow 64 ≤ twoPow 970 := twoPow_le (by decide)
    have hPos := twoPow_pos 970
    rw [twoPow_1024_eq]
    exact_mod_cast (by omega : twoPow 64 + twoPow 970 < 2 ^ 54 * twoPow 970)
  have hLe : (n : ℚ) ≤ twoPow 64 := by exact_mod_cast h
  exact decide_eq_true (lt_infinity_of_lt (ofNat_roundsTo n) (by linarith))

/-! ## Exact operands -/

theorem isNegative_mul {x y : Binary .f64} (hx : x.isNegative = false) (hy : y.isNegative = false) :
    (x.mul y).isNegative = false := by
  rw [mul, isNegative_ofRatio _ _ (twoPow_pos _), hx, hy]
  rfl

theorem isNegative_div {x y : Binary .f64} (hx : x.isNegative = false) (hy : y.isNegative = false)
    (hUnits : 0 < y.units) : (x.div y).isNegative = false := by
  rw [div, isNegative_ofRatio _ _ hUnits, hx, hy]
  rfl

/-- A rounded value without a sign is the nearest to the decimal whose value is rounded. -/
theorem eq_nearest {d : Decimal} {y : Binary .f64} (hSign : y.isNegative = false)
    (hRounds : FloatWidth.f64.RoundsTo (d.value * twoPow FloatWidth.f64.scale) y.magnitude) :
    y = ofMagnitude false (d.nearest .f64) := by
  rw [Decimal.nearest_eq_iff.mpr hRounds, ← hSign, ofMagnitude_self]

/-- Digits below `2 ^ 53` and a power of ten up to 22 are far from the upper end of the format. -/
theorem mul_ten_zpow_lt {n : Nat} {e : Int} (hDigits : n < twoPow 53) (hHigh : e ≤ 22) :
    (n : ℚ) * 10 ^ e < twoPow 1024 - twoPow 970 := by
  have hTen : (10 : ℚ) ^ e ≤ tenPow 22 := by
    have hPower : (10 : ℚ) ^ (22 : Int) = tenPow 22 := by
      exact_mod_cast (Nat.cast_pow 10 22).symm
    rw [← hPower]
    exact zpow_le_zpow_right₀ (by norm_num) hHigh
  have hRoom : (twoPow 53 : ℚ) * tenPow 22 + twoPow 970 ≤ twoPow 1024 := by
    have hLess : twoPow 53 * tenPow 22 ≤ twoPow 970 :=
      (Nat.mul_le_mul_left _ tenPow_22_le).trans
        (twoPow_add 53 74 ▸ twoPow_le (by decide : 53 + 74 ≤ 970))
    rw [twoPow_1024_eq]
    exact_mod_cast (by omega : twoPow 53 * tenPow 22 + twoPow 970 ≤ 2 ^ 54 * twoPow 970)
  have hLess : (n : ℚ) * 10 ^ e < twoPow 53 * tenPow 22 :=
    mul_lt_mul (by exact_mod_cast hDigits) hTen (by positivity) (Nat.cast_nonneg _)
  linarith

/-- **One rounding is left.** Digits below `2 ^ 53` and a power of ten up to 22 are scaled to the
wide value that is nearest to the decimal. -/
theorem scaleByTen_exact {n : Nat} {e : Int} (hDigits : n < twoPow 53) (hLow : -22 ≤ e)
    (hHigh : e ≤ 22) :
    scaleByTen (ofNat n) e = some (ofMagnitude false (Decimal.nearest .f64 ⟨n, e⟩)) := by
  have hSize := size_ofNat_of_lt hDigits
  by_cases hUp : 0 ≤ e
  · obtain ⟨k, rfl⟩ := Int.eq_ofNat_of_zero_le hUp
    have hPower : (tenPower k).size = (10 : ℚ) ^ k := size_tenPower (by omega)
    have hRounds := (ofNat n).mul_roundsTo (tenPower k)
    rw [hSize, hPower] at hRounds
    have hProduct : (ofNat n).mul (tenPower k) =
        ofMagnitude false (Decimal.nearest .f64 ⟨n, k⟩) := by
      refine eq_nearest (isNegative_mul (isNegative_ofNat n) (isNegative_tenPower k)) ?_
      rw [Decimal.value, zpow_natCast]
      exact hRounds
    by_cases hZero : (ofNat n : Binary .f64).isZero = true
    · have hMagnitude : (ofNat n : Binary .f64).magnitude = 0 := of_decide_eq_true hZero
      have hUnits : (ofNat n : Binary .f64).units = 0 := by
        rw [units, hMagnitude, FloatWidth.units_zero]
      have hNone : n = 0 := by
        rw [size, hUnits, Nat.cast_zero, zero_div] at hSize
        exact_mod_cast hSize.symm
      have hNearest : (⟨n, k⟩ : Decimal).nearest .f64 = 0 := if_pos hNone
      have hSelf := ofMagnitude_self (ofNat n : Binary .f64)
      rw [isNegative_ofNat, hMagnitude] at hSelf
      rw [scaleByTen, if_pos hUp, if_pos hZero, hNearest, hSelf]
    · have hFinite : ((ofNat n).mul (tenPower k)).isInfinite = false := by
        refine isInfinite_mul_eq_false ?_
        rw [hSize, hPower, ← zpow_natCast]
        exact mul_ten_zpow_lt hDigits hHigh
      rw [scaleByTen, if_pos hUp, if_neg hZero, if_neg (by omega), Int.toNat_natCast,
        Option.filter_some_pos (by rw [hFinite]; rfl), hProduct]
  · obtain ⟨k, rfl⟩ : ∃ k : Nat, e = -k := ⟨(-e).toNat, by omega⟩
    have hPower : (tenPower k).size = (10 : ℚ) ^ k := size_tenPower (by omega)
    have hUnits : 0 < (tenPower k).units :=
      units_pos_of_size (by rw [hPower]; positivity)
    have hRounds := (ofNat n).div_roundsTo hUnits
    rw [hSize, hPower] at hRounds
    rw [scaleByTen, if_neg hUp, if_pos (by omega), Int.neg_neg, Int.toNat_natCast]
    refine congrArg some (eq_nearest ?_ ?_)
    · exact isNegative_div (isNegative_ofNat n) (isNegative_tenPower k) hUnits
    · rw [Decimal.value, zpow_neg, zpow_natCast, ← div_eq_mul_inv]
      exact hRounds

/-! ## Rounded operands -/

/-- Dividing refuses nothing. -/
theorem isSome_scaleByTen_of_neg (x : Binary .f64) {e : Int} (h : e < 0) :
    (scaleByTen x e).isSome = true := by
  induction x, e using scaleByTen.induct with
  | case1 x e hUp | case2 x e hUp | case3 x e hUp => omega
  | case4 x e _ hDown => rw [scaleByTen, if_neg (by omega), if_pos hDown]; rfl
  | case5 x e _ hDown hZero =>
      rw [scaleByTen, if_neg (by omega), if_neg hDown, if_pos hZero]
      rfl
  | case6 x e _ hDown hZero ih =>
      rw [scaleByTen, if_neg (by omega), if_neg hDown, if_neg hZero]
      exact ih (by omega)

theorem twoPow_1024_lt : twoPow 1024 < tenPow 309 := by decide +kernel

/-- Rounding both operands moves a product by less than two steps at the upper end of the format. -/
theorem isInfinite_scaled_eq_false {n : Nat} (k : Nat) (hPos : 0 < n)
    (h : (n : ℚ) * tenPow k ≤ twoPow 1024 - 5 * twoPow 970) :
    ((ofNat n).mul (tenPower k)).isInfinite = false := by
  have hUnit : (twoPow 1024 : ℚ) = 2 ^ 54 * twoPow 970 := by exact_mod_cast twoPow_1024_eq
  have hStep : (0 : ℚ) < twoPow 970 := by exact_mod_cast twoPow_pos 970
  have hWeight : (2 * FloatWidth.f64.fieldWeight : ℚ) = 2 ^ 53 := by
    have hWeight : 2 * FloatWidth.f64.fieldWeight = 2 ^ 53 := by decide
    exact_mod_cast hWeight
  have hFirst := size_ofNat_le (f := .f64) hPos
  have hSecond := size_ofNat_le (f := .f64) (tenPow_pos k)
  rw [hWeight] at hFirst hSecond
  refine isInfinite_mul_eq_false ?_
  have hProduct : (2 ^ 53 * (ofNat n : Binary .f64).size) * (2 ^ 53 * (tenPower k).size) ≤
      (2 ^ 53 + 1) * n * ((2 ^ 53 + 1) * tenPow k) :=
    mul_le_mul hFirst hSecond (mul_nonneg (by positivity) (size_nonneg _)) (by positivity)
  have hScaled : (2 ^ 53 + 1) ^ 2 * ((n : ℚ) * tenPow k) ≤
      (2 ^ 53 + 1) ^ 2 * ((2 ^ 54 - 5) * twoPow 970) :=
    mul_le_mul_of_nonneg_left (by linarith) (by positivity)
  linarith

/-- **Only the upper end of the format is out of reach.** A number that is five half steps below the
power of two behind the greatest wide value is scaled to some value. -/
theorem isSome_scaleByTen {n : Nat} {e : Int}
    (h : (n : ℚ) * 10 ^ e ≤ twoPow 1024 - 5 * twoPow 970) :
    (scaleByTen (ofNat n) e).isSome = true := by
  by_cases hDown : e < 0
  · exact isSome_scaleByTen_of_neg _ hDown
  obtain ⟨k, rfl⟩ := Int.eq_ofNat_of_zero_le (Int.not_lt.mp hDown)
  have hTen : (10 : ℚ) ^ (k : Int) = tenPow k := by
    rw [zpow_natCast]
    exact (Nat.cast_pow 10 k).symm
  rw [hTen] at h
  by_cases hZero : (ofNat n : Binary .f64).isZero = true
  · rw [scaleByTen, if_pos (Int.not_lt.mp hDown), if_pos hZero]
    rfl
  have hPos : 0 < n := by
    refine Nat.pos_of_ne_zero fun hNone => hZero ?_
    rw [hNone]
    exact isZero_ofNat_zero
  have hPower : k ≤ 308 := by
    by_contra hGreat
    have hMore : tenPow 309 ≤ n * tenPow k :=
      (tenPow_le (Nat.lt_of_not_le hGreat)).trans (Nat.le_mul_of_pos_left _ hPos)
    have hMore' : (twoPow 1024 : ℚ) < n * tenPow k := by
      exact_mod_cast Nat.lt_of_lt_of_le twoPow_1024_lt hMore
    have hStep : (0 : ℚ) < twoPow 970 := by exact_mod_cast twoPow_pos 970
    linarith
  rw [scaleByTen, if_pos (Int.not_lt.mp hDown), if_neg hZero, if_neg (by omega), Int.toNat_natCast,
    Option.filter_some_pos (by rw [isInfinite_scaled_eq_false k hPos h]; rfl)]
  rfl

end WidthExact.JsonNumber
