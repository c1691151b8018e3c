import WidthExact.Proofs.Binary.Exact
import WidthExact.Proofs.Decimal.Value
import WidthExact.Proofs.Text.Digits

/-!
# The shortest decimal is the shortest

`Decimal.shortest` goes through the decimal grids from the one with a single digit down, and takes the
first on which a neighbour of the value rounds to its pattern. What rounds to a pattern lies in one
piece, since rounding is monotone. So if any point of a grid does, a neighbour of the value does, on
whichever side of the value the point lies. The pieces need not be symmetric around the value, nor
have both their ends, and nothing is said of where they end.

A decimal of few digits may be a point of a finer grid than the one for that number of digits. Then it
lies below the power of ten of the value's first digit. That power lies between it and the value, and
is a point of the coarser grid.

## Main results

* `Decimal.coefficient_le` — no decimal of a value has a smaller coefficient than the one without zeros
  at the end.
* `Decimal.leadingExponent_spec`, `Decimal.floorOn_spec` — where a value lies on a grid.
* `Decimal.isSome_selectAt?` — no grid is passed over.
* `Decimal.coefficient_shortest_lt` — no decimal has fewer digits.
-/

namespace WidthExact

variable {f : FloatWidth}

/-- What lies between two numbers that round to one pattern rounds to it. -/
theorem FloatWidth.RoundsTo.between {x y z : ℚ} {m n : Nat} (hx : f.RoundsTo x m)
    (hz : f.RoundsTo z m) (hy : f.RoundsTo y n) (hLow : x ≤ y) (hHigh : y ≤ z) : n = m :=
  Nat.le_antisymm (hy.mono hz hHigh) (hx.mono hy hLow)

namespace Decimal

open Text

/-! ## Decimals of one value -/

theorem value_le_value {c c' : Nat} (e : Int) (h : c ≤ c') :
    (⟨c, e⟩ : Decimal).value ≤ (⟨c', e⟩ : Decimal).value :=
  mul_le_mul_of_nonneg_right (Nat.cast_le.mpr h) (zpow_nonneg (by norm_num) e)

theorem value_inj {c c' : Nat} {e : Int} :
    (⟨c, e⟩ : Decimal).value = (⟨c', e⟩ : Decimal).value ↔ c = c' := by
  have hPower : (10 : ℚ) ^ e ≠ 0 := zpow_ne_zero e (by norm_num)
  rw [value, value, mul_left_inj' hPower, Nat.cast_inj]

/-- A coefficient without zeros at its end is the least one of the value. -/
theorem coefficient_le {d d' : Decimal} (hLast : d.coefficient % 10 ≠ 0) (h : d.value = d'.value) :
    d.coefficient ≤ d'.coefficient := by
  obtain ⟨c, e⟩ := d
  obtain ⟨c', e'⟩ := d'
  rcases Int.le_total e' e with hLe | hLe
  · obtain ⟨k, rfl⟩ := Int.le.dest hLe
    rw [← value_zeros, value_inj] at h
    exact h ▸ Nat.le_mul_of_pos_right c (Nat.pow_pos (by decide))
  · obtain ⟨k, rfl⟩ := Int.le.dest hLe
    rw [← value_zeros, value_inj] at h
    cases k with
    | zero => exact h.le.trans (Nat.mul_one c').le
    | succ k =>
        refine absurd ?_ hLast
        show c % 10 = 0
        rw [h, Nat.pow_succ, ← Nat.mul_assoc, Nat.mul_mod_left]

theorem coefficient_strip_mod {d : Decimal} (h : d.coefficient ≠ 0) :
    d.strip.coefficient % 10 ≠ 0 := by
  induction d using strip.induct with
  | case1 d hZero ih =>
      rw [strip, dif_pos hZero]
      exact ih (by show d.coefficient / 10 ≠ 0; omega)
  | case2 d hStop =>
      rw [strip, dif_neg hStop]
      exact fun hZero => hStop ⟨h, hZero⟩

/-- A neighbour that has come up to a power of ten has one digit. -/
theorem coefficient_strip_lt {d : Decimal} {k : Nat} (hPos : d.coefficient ≠ 0)
    (h : d.coefficient ≤ 10 ^ (k + 1)) : d.strip.coefficient < 10 ^ (k + 1) := by
  have hLast := coefficient_strip_mod hPos
  rcases Nat.lt_or_eq_of_le h with hLt | hCarry
  · exact (coefficient_le hLast d.value_strip).trans_lt hLt
  · have hOne : d.strip.value = (⟨1, d.exponent + (k + 1 : Nat)⟩ : Decimal).value := by
      rw [value_strip, ← value_zeros, Nat.one_mul, ← hCarry]
    exact (coefficient_le hLast hOne).trans_lt (Nat.one_lt_pow (Nat.succ_ne_zero k) (by decide))

/-! ## Where a value lies -/

theorem digitCount_bounds {n : Nat} (hPos : 0 < n) :
    10 ^ (digitCount n - 1) ≤ n ∧ n < 10 ^ digitCount n := by
  have hHigh := ofDigitChars_lt (allDigits_decimal n)
  rw [ofDigitChars_decimal] at hHigh
  exact ⟨ten_pow_le_decimal hPos.ne', hHigh⟩

theorem digitCount_pos (n : Nat) : 0 < digitCount n := List.length_pos_iff.mpr (decimal_ne_nil n)

/-- The leading exponent is that of the power of ten above the first digit. -/
theorem leadingExponent_spec {num den : Nat} (hNum : 0 < num) (hDen : 0 < den) :
    (10 : ℚ) ^ (leadingExponent num den - 1) ≤ (num : ℚ) / den ∧
      (num : ℚ) / den < 10 ^ leadingExponent num den := by
  have hNum' : (0 : ℚ) < num := by exact_mod_cast hNum
  have hDen' : (0 : ℚ) < den := by exact_mod_cast hDen
  rw [le_div_iff₀ hDen', div_lt_iff₀ hDen']
  unfold leadingExponent
  by_cases hWhole : den ≤ num
  · -- The digits of the whole part.
    obtain ⟨hLow, hHigh⟩ := digitCount_bounds (Nat.div_pos hWhole hDen)
    have hCount := digitCount_pos (num / den)
    generalize hDigits : digitCount (num / den) = count at *
    have hLow' : 10 ^ (count - 1) * den ≤ num := (Nat.le_div_iff_mul_le hDen).mp hLow
    have hHigh' : num < 10 ^ count * den := (Nat.div_lt_iff_lt_mul hDen).mp hHigh
    have hPrevious : (count : Int) - 1 = (count - 1 : Nat) := by omega
    rw [if_pos hWhole, hPrevious, zpow_natCast, zpow_natCast]
    exact ⟨by exact_mod_cast hLow', by exact_mod_cast hHigh'⟩
  · -- The digits of the whole part of the inverse, or of less than that if it is whole.
    have hLess : num ≤ den - 1 := by omega
    obtain ⟨hLow, hHigh⟩ := digitCount_bounds (Nat.div_pos hLess hNum)
    have hCount := digitCount_pos ((den - 1) / num)
    generalize hDigits : digitCount ((den - 1) / num) = count at *
    have hLow' : 10 ^ (count - 1) * num < den := by
      have hLe := (Nat.le_div_iff_mul_le hNum).mp hLow
      omega
    have hHigh' : den ≤ 10 ^ count * num := by
      have hLt := (Nat.div_lt_iff_lt_mul hNum).mp hHigh
      omega
    have hBelow : (1 : Int) - count - 1 = -(count : Int) := by omega
    have hAbove : (1 : Int) - count = -((count - 1 : Nat) : Int) := by omega
    rw [if_neg hWhole, hBelow, hAbove, zpow_neg, zpow_neg, zpow_natCast, zpow_natCast,
      inv_mul_le_iff₀ (by positivity), lt_inv_mul_iff₀ (by positivity)]
    exact ⟨by exact_mod_cast hHigh', by exact_mod_cast hLow'⟩

/-- The coefficient below a value on a grid, and the one above it. -/
theorem floorOn_spec (num : Nat) {den : Nat} (hDen : 0 < den) (e : Int) :
    (⟨floorOn num den e, e⟩ : Decimal).value ≤ (num : ℚ) / den ∧
      (num : ℚ) / den < (⟨floorOn num den e + 1, e⟩ : Decimal).value := by
  have hDen' : (0 : ℚ) < den := by exact_mod_cast hDen
  have hTen : (0 : ℚ) < tenPow (-e).toNat := by exact_mod_cast tenPow_pos _
  have hProduct : 0 < den * tenPow e.toNat := Nat.mul_pos hDen (tenPow_pos _)
  have hLow : floorOn num den e * tenPow e.toNat * den ≤ num * tenPow (-e).toNat := by
    rw [Nat.mul_assoc, Nat.mul_comm (tenPow e.toNat)]
    exact Nat.div_mul_le_self _ _
  have hHigh : num * tenPow (-e).toNat < (floorOn num den e + 1) * tenPow e.toNat * den := by
    rw [Nat.mul_assoc, Nat.mul_comm (tenPow e.toNat), Nat.mul_comm (floorOn num den e + 1)]
    exact Nat.lt_mul_div_succ _ hProduct
  rw [value_eq_div, value_eq_div, div_le_div_iff₀ hTen hDen', div_lt_div_iff₀ hDen' hTen]
  exact ⟨by exact_mod_cast hLow, by exact_mod_cast hHigh⟩

/-! ## Selection on a grid -/

section

variable {tie : Tie} {m num den : Nat} {e : Int}

theorem selectOn?_form {d : Decimal} (h : selectOn? f tie m num den e = some d) :
    d.exponent = e ∧ d.coefficient ≤ floorOn num den e + 1 := by
  unfold selectOn? at h
  simp only at h
  split at h
  · split at h
    · exact Option.some.inj h ▸ ⟨rfl, le_rfl⟩
    · exact Option.some.inj h ▸ ⟨rfl, Nat.le_succ _⟩
  · split at h
    · exact Option.some.inj h ▸ ⟨rfl, le_rfl⟩
    · cases h

theorem isSome_selectOn?_iff : (selectOn? f tie m num den e).isSome = true ↔
    (⟨floorOn num den e, e⟩ : Decimal).nearest f = m ∨
      (⟨floorOn num den e + 1, e⟩ : Decimal).nearest f = m := by
  unfold selectOn?
  simp only
  split
  · next hLower => split <;> exact iff_of_true rfl (.inl hLower)
  · next hLower =>
      split
      · next hUpper => exact iff_of_true rfl (.inr hUpper)
      · next hUpper => exact iff_of_false Bool.false_ne_true (not_or.mpr ⟨hLower, hUpper⟩)

/-- If any point of a grid rounds to the pattern of a value, a neighbour of the value does. -/
theorem isSome_selectOn? (hDen : 0 < den) (hSelf : f.RoundsTo ((num : ℚ) / den * twoPow f.scale) m)
    {c : Nat} (hPoint : (⟨c, e⟩ : Decimal).nearest f = m) :
    (selectOn? f tie m num den e).isSome = true := by
  have hScale := (Binary.twoPow_scale_pos f).le
  have hPoint' := nearest_eq_iff.mp hPoint
  obtain ⟨hLow, hHigh⟩ := floorOn_spec num hDen e
  rw [isSome_selectOn?_iff]
  rcases Nat.lt_or_ge (floorOn num den e) c with hAbove | hBelow
  · exact .inr (hSelf.between hPoint' (nearest_roundsTo _)
      (mul_le_mul_of_nonneg_right hHigh.le hScale)
      (mul_le_mul_of_nonneg_right (value_le_value e hAbove) hScale))
  · exact .inl (hPoint'.between hSelf (nearest_roundsTo _)
      (mul_le_mul_of_nonneg_right (value_le_value e hBelow) hScale)
      (mul_le_mul_of_nonneg_right hLow hScale))

end

/-! ## The search -/

/-- A search upward stops where there is something at the latest. -/
theorem exists_findSome?_range {α : Type} {g : Nat → Option α} {n j : Nat} (hj : j < n)
    (h : (g j).isSome = true) :
    ∃ i ≤ j, ∃ a, g i = some a ∧ (List.range n).findSome? g = some a := by
  have hFound : ((List.range n).findSome? g).isSome = true :=
    List.findSome?_isSome_iff.mpr ⟨j, List.mem_range.mpr hj, h⟩
  obtain ⟨a, ha⟩ := Option.isSome_iff_exists.mp hFound
  obtain ⟨before, i, after, hSplit, hi, hNone⟩ := List.findSome?_eq_some_iff.mp ha
  have hSorted : (before ++ i :: after).Pairwise (· < ·) := hSplit ▸ List.pairwise_lt_range
  have hMem : j ∈ before ++ i :: after := hSplit ▸ List.mem_range.mpr hj
  refine ⟨i, ?_, a, hi, ha⟩
  rcases List.mem_append.mp hMem with hBefore | hHere
  · rw [hNone j hBefore] at h
    cases h
  · rcases List.mem_cons.mp hHere with rfl | hAfter
    · exact le_rfl
    · exact ((List.pairwise_cons.mp (List.pairwise_append.mp hSorted).2.1).1 j hAfter).le

theorem coefficient_ne_zero {d : Decimal} {m : Nat} (hPos : m ≠ 0) (h : d.nearest f = m) :
    d.coefficient ≠ 0 := by
  intro hZero
  rw [nearest, if_pos hZero] at h
  exact hPos h.symm

/-- What the search finds on the grid that has the first digit of a value and `more` behind it. -/
def selectAt? (f : FloatWidth) (tie : Tie) (m more : Nat) : Option Decimal :=
  selectOn? f tie m (f.units m) (twoPow f.scale)
    (leadingExponent (f.units m) (twoPow f.scale) - 1 - more)

/-- How many grids the search goes through. -/
def reach (f : FloatWidth) (m : Nat) : Nat :=
  (leadingExponent (f.units m) (twoPow f.scale) + f.scale).toNat

theorem shortest_eq (f : FloatWidth) (tie : Tie) (m : Nat) : shortest f tie m =
    strip (((List.range (reach f m)).findSome? (selectAt? f tie m)).getD
      ⟨f.units m * Nat.pow 5 f.scale, -f.scale⟩) := rfl

section

variable {tie : Tie} {m : Nat} (hPos : m ≠ 0)

include hPos

theorem units_pos : 0 < f.units m := Nat.pos_of_ne_zero (mt f.units_eq_zero_iff.mp hPos)

/-- **No grid is passed over.** If a decimal with at most `more + 1` digits rounds to a pattern,
something is found on the grid with as many. -/
theorem isSome_selectAt? (hLe : m ≤ f.infinity) {d : Decimal} {more : Nat}
    (hFew : d.coefficient < 10 ^ (more + 1)) (hRounds : d.nearest f = m) :
    (selectAt? f tie m more).isSome = true := by
  have hScale := Binary.twoPow_scale_pos f
  obtain ⟨hTop, -⟩ := leadingExponent_spec (units_pos (f := f) hPos) (twoPow_pos f.scale)
  have hSelf : f.RoundsTo ((f.units m : ℚ) / twoPow f.scale * twoPow f.scale) m := by
    rw [div_mul_cancel₀ _ hScale.ne']
    exact .units hLe
  unfold selectAt?
  generalize leadingExponent (f.units m) (twoPow f.scale) = top at *
  rcases Int.lt_or_le d.exponent (top - 1 - more) with hFiner | hOn
  · -- Between the decimal and the value lies the power of ten of the first digit.
    have hPower : (⟨1 * 10 ^ more, top - 1 - more⟩ : Decimal).value = 10 ^ (top - 1) := by
      rw [value_zeros, value, Nat.cast_one, one_mul, sub_add_cancel]
    have hBelow : d.value ≤ 10 ^ (top - 1) := by
      have hCoefficient : (d.coefficient : ℚ) ≤ 10 ^ (more + 1) := by exact_mod_cast hFew.le
      calc d.value ≤ 10 ^ (more + 1) * 10 ^ d.exponent :=
            mul_le_mul_of_nonneg_right hCoefficient (by positivity)
        _ = 10 ^ (((more + 1 : Nat) : Int) + d.exponent) := by
            rw [zpow_add₀ (by norm_num), zpow_natCast]
        _ ≤ 10 ^ (top - 1) := zpow_le_zpow_right₀ (by norm_num) (by omega)
    refine isSome_selectOn? (twoPow_pos _) hSelf ((nearest_eq_iff.mp hRounds).between hSelf
      (nearest_roundsTo ⟨1 * 10 ^ more, top - 1 - more⟩) ?_ ?_)
    · rw [hPower]
      exact mul_le_mul_of_nonneg_right hBelow hScale.le
    · rw [hPower]
      exact mul_le_mul_of_nonneg_right hTop hScale.le
  · obtain ⟨k, hk⟩ := Int.le.dest hOn
    refine isSome_selectOn? (c := d.coefficient * 10 ^ k) (twoPow_pos _) hSelf ?_
    rw [nearest_congr (value_zeros _ _ _), hk]
    exact hRounds

/-- The value is below the power of ten above its first digit. -/
theorem floorOn_lt (more : Nat) :
    floorOn (f.units m) (twoPow f.scale)
      (leadingExponent (f.units m) (twoPow f.scale) - 1 - more) < 10 ^ (more + 1) := by
  obtain ⟨-, hTop⟩ := leadingExponent_spec (units_pos (f := f) hPos) (twoPow_pos f.scale)
  generalize leadingExponent (f.units m) (twoPow f.scale) = top at *
  have hFloor := (floorOn_spec (f.units m) (twoPow_pos f.scale) (top - 1 - more)).1
  have hPower : (⟨1 * 10 ^ (more + 1), top - 1 - more⟩ : Decimal).value = 10 ^ top := by
    rw [value_zeros, value, Nat.cast_one, one_mul]
    congr 1
    push_cast
    ring
  refine Nat.lt_of_not_le fun hLe => absurd (hFloor.trans_lt hTop) (not_lt.mpr ?_)
  rw [← hPower]
  exact value_le_value _ (by rwa [Nat.one_mul])

/-- What is found on a grid has no more digits than the grid. -/
theorem coefficient_strip_lt_of_selectAt? {d : Decimal} {more : Nat}
    (h : selectAt? f tie m more = some d) : d.strip.coefficient < 10 ^ (more + 1) :=
  coefficient_strip_lt (coefficient_ne_zero hPos (nearest_of_selectOn? h))
    ((selectOn?_form h).2.trans (floorOn_lt hPos more))

/-- A decimal within the reach of the search bounds what is found. -/
theorem coefficient_shortest_lt_of_reach (hLe : m ≤ f.infinity) {d : Decimal} {more : Nat}
    (hReach : more < reach f m) (hFew : d.coefficient < 10 ^ (more + 1))
    (hRounds : d.nearest f = m) : (shortest f tie m).coefficient < 10 ^ (more + 1) := by
  have hHere : (selectAt? f tie m more).isSome = true := isSome_selectAt? hPos hLe hFew hRounds
  obtain ⟨i, hi, found, hSelect, hFound⟩ := exists_findSome?_range hReach hHere
  have hShort := coefficient_strip_lt_of_selectAt? hPos hSelect
  rw [shortest_eq, hFound, Option.getD_some]
  exact hShort.trans_le (Nat.pow_le_pow_right (by decide) (by omega))

/-- The value itself is on the last grid that is within reach. -/
theorem exact_lt : ∃ more, reach f m = more + 1 ∧
    f.units m * Nat.pow 5 f.scale < 10 ^ (more + 1) := by
  have hUnits := units_pos (f := f) hPos
  have hTen : (10 : ℚ) ≠ 0 := by norm_num
  obtain ⟨-, hTop⟩ := leadingExponent_spec hUnits (twoPow_pos f.scale)
  unfold reach
  generalize leadingExponent (f.units m) (twoPow f.scale) = top at *
  rw [← value_units, mul_div_cancel_right₀ _ (Binary.twoPow_scale_pos f).ne', value, zpow_neg,
    ← div_eq_mul_inv, div_lt_iff₀ (by positivity), ← zpow_add₀ hTen] at hTop
  have hExact : 1 ≤ f.units m * Nat.pow 5 f.scale :=
    Nat.mul_pos hUnits (Nat.pow_pos (by decide))
  have hReach : 0 < top + f.scale := by
    by_contra hNot
    have hSmall : (10 : ℚ) ^ (top + f.scale) ≤ 1 :=
      zpow_le_one_of_nonpos₀ (by norm_num) (not_lt.mp hNot)
    exact absurd (hTop.trans_le hSmall) (not_lt.mpr (by exact_mod_cast hExact))
  obtain ⟨more, hMore⟩ : ∃ more : Nat, top + f.scale = (more + 1 : Nat) :=
    Int.eq_succ_of_zero_lt hReach
  rw [hMore, zpow_natCast] at hTop
  exact ⟨more, by rw [hMore]; rfl, by exact_mod_cast hTop⟩

/-- **No decimal that rounds to a pattern has fewer digits than the shortest one.** The search reaches
the grid that the value itself is on, so that decimals of more digits are no matter. -/
theorem coefficient_shortest_lt (hFinite : m < f.infinity) {d : Decimal} {k : Nat}
    (hFew : d.coefficient < 10 ^ k) (hRounds : d.nearest f = m) :
    (shortest f tie m).coefficient < 10 ^ k := by
  cases k with
  | zero => exact absurd (Nat.lt_one_iff.mp hFew) (coefficient_ne_zero hPos hRounds)
  | succ more =>
      rcases Nat.lt_or_ge more (reach f m) with hReach | hBeyond
      · exact coefficient_shortest_lt_of_reach hPos hFinite.le hReach hFew hRounds
      · obtain ⟨last, hLast, hExact⟩ := exact_lt (f := f) hPos
        have hSelf : (⟨f.units m * Nat.pow 5 f.scale, -f.scale⟩ : Decimal).nearest f = m := by
          rw [nearest_eq_iff, value_units]
          exact .units hFinite.le
        have hShort : (shortest f tie m).coefficient < 10 ^ (last + 1) :=
          coefficient_shortest_lt_of_reach hPos hFinite.le (by omega) hExact hSelf
        exact hShort.trans_le (Nat.pow_le_pow_right (by decide) (by omega))

/-- And it has no zeros at its end. -/
theorem coefficient_shortest_mod (hFinite : m < f.infinity) :
    (shortest f tie m).coefficient % 10 ≠ 0 := by
  have hRounds := nearest_shortest tie hFinite
  rw [shortest_eq, nearest_congr (value_strip _)] at hRounds
  exact coefficient_strip_mod (coefficient_ne_zero hPos hRounds)

end

end Decimal

end WidthExact
