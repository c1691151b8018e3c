import Mathlib.Algebra.Order.Ring.Rat
import Mathlib.Data.Rat.Floor
import Mathlib.Order.Monotone.Basic
import Mathlib.Tactic.Linarith
import WidthExact.Binary.Rounding

/-!
# Rounding is to the nearest, ties to even

The magnitude patterns of a format denote numbers of units in strictly increasing order. Between the
patterns `m` and `m + 1` lies a midpoint; `FloatWidth.RoundsTo` says of a number and a pattern that
the number lies between the two midpoints around the pattern, or on one of them if the pattern is
even. There is exactly one such pattern for every number, and `FloatWidth.nearest` finds it.

Everything that is proved of rounding is proved of `RoundsTo`. Doubled numbers are compared all
through, since a doubled midpoint is a natural number: `units m + units (m + 1)`.

## Main results

* `FloatWidth.strictMono_units` — patterns are in the order of the numbers they denote.
* `FloatWidth.RoundsTo.unique`, `FloatWidth.RoundsTo.mono` — rounding is a monotone function.
* `FloatWidth.nearest_roundsTo`, `FloatWidth.nearestRatio_eq_iff` — it is the one computed.
-/

namespace WidthExact.FloatWidth

variable (f : FloatWidth)

/-! ## Weights -/

theorem fieldWeight_pos : 0 < f.fieldWeight := twoPow_pos _

theorem fieldWeight_even : f.fieldWeight % 2 = 0 := by cases f <;> decide

theorem twoPow_precision : twoPow f.precision = 2 * f.fieldWeight := by cases f <;> decide

/-! ## Units -/

/-- The number of units of a pattern that is given by a fraction with its leading one, `kept`, and by
how often that is doubled, `drop`. The fraction may just have run over into the next doubling. -/
theorem units_grid {drop kept : Nat} (hTop : kept ≤ 2 * f.fieldWeight)
    (hLead : drop = 0 ∨ f.fieldWeight ≤ kept) :
    f.units (drop * f.fieldWeight + kept) = kept * twoPow drop := by
  have hPos := f.fieldWeight_pos
  unfold units
  generalize f.fieldWeight = weight at *
  by_cases hSub : kept < weight
  · obtain rfl : drop = 0 := by omega
    rw [Nat.zero_mul, Nat.zero_add, if_pos hSub]
    exact (Nat.mul_one kept).symm
  · have hNot : ¬ drop * weight + kept < weight := by
      have := Nat.zero_le (drop * weight)
      omega
    rw [if_neg hNot]
    by_cases hOver : kept = 2 * weight
    · have hEq : drop * weight + kept = 0 + (drop + 2) * weight := by
        rw [hOver, Nat.add_mul, Nat.zero_add]
      rw [hEq, Nat.add_mul_mod_self_right, Nat.add_mul_div_right _ _ hPos, Nat.zero_mod,
        Nat.zero_div, hOver, Nat.zero_add, Nat.add_zero, Nat.add_sub_assoc (by omega), twoPow_succ,
        Nat.mul_comm 2, Nat.mul_assoc, Nat.mul_comm 2]
    · have hEq : drop * weight + kept = (kept - weight) + (drop + 1) * weight := by
        rw [Nat.add_mul, Nat.one_mul]
        omega
      rw [hEq, Nat.add_mul_mod_self_right, Nat.add_mul_div_right _ _ hPos,
        Nat.mod_eq_of_lt (by omega), Nat.div_eq_of_lt (by omega), Nat.zero_add,
        Nat.add_sub_cancel, Nat.add_sub_cancel' (by omega)]

/-- Every pattern is on the grid. -/
theorem exists_grid (m : Nat) :
    ∃ drop kept, m = drop * f.fieldWeight + kept ∧ kept < 2 * f.fieldWeight ∧
      (drop = 0 ∨ f.fieldWeight ≤ kept) := by
  have hPos := f.fieldWeight_pos
  generalize f.fieldWeight = weight at *
  by_cases hSub : m < weight
  · exact ⟨0, m, by omega, by omega, Or.inl rfl⟩
  · have hField : 1 ≤ m / weight := (Nat.one_le_div_iff hPos).mpr (by omega)
    have hSplit := Nat.div_add_mod' m weight
    have hMod := Nat.mod_lt m hPos
    obtain ⟨drop, hDrop⟩ := Nat.exists_eq_add_of_le' hField
    rw [hDrop, Nat.add_mul, Nat.one_mul] at hSplit
    exact ⟨drop, weight + m % weight, by omega, by omega, Or.inr (by omega)⟩

/-- The step from a pattern to the next one. -/
theorem units_lt_succ (m : Nat) : f.units m < f.units (m + 1) := by
  obtain ⟨drop, kept, rfl, hTop, hLead⟩ := f.exists_grid m
  rw [Nat.add_assoc, f.units_grid (by omega) hLead, f.units_grid (by omega) (by omega)]
  exact Nat.mul_lt_mul_of_pos_right (Nat.lt_succ_self kept) (twoPow_pos drop)

theorem strictMono_units : StrictMono f.units :=
  strictMono_nat_of_lt_succ f.units_lt_succ

/-! ## Midpoints -/

/-- Twice the number in the middle between a pattern and the next one. -/
def midpoint (m : Nat) : Nat := f.units m + f.units (m + 1)

theorem strictMono_midpoint : StrictMono f.midpoint :=
  fun _ _ hLt => Nat.add_lt_add (f.strictMono_units hLt)
    (f.strictMono_units (Nat.add_lt_add_right hLt 1))

theorem units_lt_midpoint (m : Nat) : 2 * f.units m < f.midpoint m := by
  have := f.units_lt_succ m
  unfold midpoint
  omega

theorem midpoint_lt_units (m : Nat) : f.midpoint m < 2 * f.units (m + 1) := by
  have := f.units_lt_succ m
  unfold midpoint
  omega

/-- A midpoint has one bit more than a pattern, and that bit is set. -/
theorem exists_midpoint_eq (m : Nat) :
    ∃ drop kept, f.midpoint m = (2 * kept + 1) * twoPow drop ∧ kept < 2 * f.fieldWeight ∧
      (drop = 0 ∨ f.fieldWeight ≤ kept) := by
  obtain ⟨drop, kept, rfl, hTop, hLead⟩ := f.exists_grid m
  refine ⟨drop, kept, ?_, hTop, hLead⟩
  rw [midpoint, Nat.add_assoc, f.units_grid (by omega) hLead, f.units_grid (by omega) (by omega),
    ← Nat.add_mul]
  congr 1
  omega

/-! ## The specification of rounding -/

/-- The number `x` of units rounds to the pattern `m`: it lies between the midpoints below and above
the pattern, or on one of them if the pattern is even. Above the pattern of infinity there is no
midpoint. -/
structure RoundsTo (x : ℚ) (m : Nat) : Prop where
  le_infinity : m ≤ f.infinity
  lower : ∀ k, k + 1 = m → f.midpoint k < 2 * x ∨ (f.midpoint k = 2 * x ∧ m % 2 = 0)
  upper : m < f.infinity → 2 * x < f.midpoint m ∨ (2 * x = f.midpoint m ∧ m % 2 = 0)

namespace RoundsTo

variable {f} {x y : ℚ} {m n : Nat}

theorem lower_le (h : f.RoundsTo x m) {k : Nat} (hk : k < m) : (f.midpoint k : ℚ) ≤ 2 * x := by
  obtain ⟨j, rfl⟩ := Nat.exists_eq_add_of_le' (Nat.zero_lt_of_lt hk)
  have hMid : (f.midpoint k : ℚ) ≤ f.midpoint j := by
    exact_mod_cast f.strictMono_midpoint.monotone (Nat.le_of_lt_succ hk)
  rcases h.lower j rfl with hLt | ⟨hEq, -⟩ <;> linarith

theorem upper_le (h : f.RoundsTo x m) {k : Nat} (hk : m ≤ k) (hFinite : m < f.infinity) :
    2 * x ≤ f.midpoint k := by
  have hMid : (f.midpoint m : ℚ) ≤ f.midpoint k := by
    exact_mod_cast f.strictMono_midpoint.monotone hk
  rcases h.upper hFinite with hLt | ⟨hEq, -⟩ <;> linarith

/-- A number rounds to one pattern only. -/
theorem not_lt (h : f.RoundsTo x m) (h' : f.RoundsTo x n) : ¬ m < n := by
  intro hLt
  have hFinite : m < f.infinity := Nat.lt_of_lt_of_le hLt h'.le_infinity
  obtain ⟨k, rfl⟩ := Nat.exists_eq_add_of_le' (Nat.zero_lt_of_lt hLt)
  have hBelow := h.upper_le (Nat.le_of_lt_succ hLt) hFinite
  -- The number is on the midpoint between the two patterns, which are neighbours, and both even.
  rcases h'.lower k rfl with hAbove | ⟨hEq, hEven⟩
  · linarith
  · have hMid : f.midpoint k ≤ f.midpoint m := by
      exact_mod_cast (hEq.le.trans (h.upper_le (Nat.le_refl m) hFinite) : (f.midpoint k : ℚ) ≤ _)
    have hNeighbour : k ≤ m := f.strictMono_midpoint.le_iff_le.mp hMid
    obtain rfl : k = m := by omega
    rcases h.upper hFinite with hStrict | ⟨-, hEven'⟩
    · linarith
    · omega

theorem unique (h : f.RoundsTo x m) (h' : f.RoundsTo x n) : m = n :=
  Nat.le_antisymm (Nat.not_lt.mp (h'.not_lt h)) (Nat.not_lt.mp (h.not_lt h'))

/-- Rounding is monotone. -/
theorem mono (h : f.RoundsTo x m) (h' : f.RoundsTo y n) (hLe : x ≤ y) : m ≤ n := by
  by_contra hNot
  have hLt : n < m := Nat.lt_of_not_le hNot
  have hAbove := h.lower_le hLt
  have hBelow := h'.upper_le (Nat.le_refl n) (Nat.lt_of_lt_of_le hLt h.le_infinity)
  have hEq : x = y := by linarith
  exact h'.not_lt (hEq ▸ h) hLt

/-- A pattern rounds to itself. -/
theorem units (hLe : m ≤ f.infinity) : f.RoundsTo (f.units m) m where
  le_infinity := hLe
  lower := by
    rintro k rfl
    exact Or.inl (by exact_mod_cast f.midpoint_lt_units k)
  upper := fun _ => Or.inl (by exact_mod_cast f.units_lt_midpoint m)

/-- A number of less than half a unit rounds to zero. -/
theorem zero (hLt : 2 * x < 1) : f.RoundsTo x 0 where
  le_infinity := Nat.zero_le _
  lower := fun k hk => absurd hk (Nat.succ_ne_zero k)
  upper := by
    intro _
    have hMid : (1 : ℚ) ≤ f.midpoint 0 := by
      exact_mod_cast Nat.lt_of_le_of_lt (Nat.zero_le _) (f.units_lt_midpoint 0)
    exact Or.inl (lt_of_lt_of_le hLt hMid)

/-- A number above the pattern of infinity rounds to it. -/
theorem infinity (hLe : f.units f.infinity ≤ x) : f.RoundsTo x f.infinity where
  le_infinity := Nat.le_refl _
  lower := by
    intro k hk
    have hMid : (f.midpoint k : ℚ) < 2 * f.units f.infinity := by
      rw [← hk]
      exact_mod_cast f.midpoint_lt_units k
    exact Or.inl (by linarith)
  upper := fun hLt => absurd hLt (Nat.lt_irrefl _)

/-- A pattern without a bound becomes one by the bound of infinity. -/
theorem of_between
    (hLower : ∀ k, k + 1 = m → f.midpoint k < 2 * x ∨ (f.midpoint k = 2 * x ∧ m % 2 = 0))
    (hUpper : 2 * x < f.midpoint m ∨ (2 * x = f.midpoint m ∧ m % 2 = 0)) :
    f.RoundsTo x (min m f.infinity) := by
  by_cases hFinite : m ≤ f.infinity
  · rw [Nat.min_eq_left hFinite]
    exact ⟨hFinite, hLower, fun _ => hUpper⟩
  · rw [Nat.min_eq_right (by omega)]
    obtain ⟨k, rfl⟩ := Nat.exists_eq_add_of_le' (by omega : 1 ≤ m)
    have hUnits : f.units f.infinity ≤ f.units k := f.strictMono_units.monotone (by omega)
    have hMid : (2 * f.units f.infinity : ℚ) < f.midpoint k := by
      exact_mod_cast Nat.lt_of_le_of_lt (Nat.mul_le_mul_left 2 hUnits) (f.units_lt_midpoint k)
    apply infinity
    rcases hLower k rfl with hLt | ⟨hEq, -⟩ <;> linarith

end RoundsTo

/-! ## The computed rounding -/

/-- What rounding sees of a doubled number: its integer part, and whether something is left. -/
structure HasHalves (y : ℚ) (halves : Nat) (rest : Bool) : Prop where
  exact : rest = false → y = halves
  beyond : rest = true → (halves : ℚ) < y ∧ y < halves + 1

namespace HasHalves

variable {y : ℚ} {halves : Nat} {rest : Bool}

/-- That is enough to compare the number with a natural number from above. -/
theorem lt_iff (h : HasHalves y halves rest) (n : Nat) : y < n ↔ halves < n := by
  cases rest with
  | false =>
      rw [h.exact rfl]
      exact Nat.cast_lt
  | true =>
      obtain ⟨hLow, hHigh⟩ := h.beyond rfl
      constructor
      · intro hLt
        exact_mod_cast hLow.trans hLt
      · intro hLt
        have hSucc : (halves : ℚ) + 1 ≤ n := by exact_mod_cast hLt
        linarith

/-- And from below. -/
theorem lt_iff_lt_or (h : HasHalves y halves rest) (n : Nat) :
    (n : ℚ) < y ↔ n < halves ∨ (n = halves ∧ rest = true) := by
  cases rest with
  | false =>
      rw [h.exact rfl]
      simp
  | true =>
      obtain ⟨hLow, hHigh⟩ := h.beyond rfl
      constructor
      · intro hLt
        have hSucc : n < halves + 1 := by exact_mod_cast hLt.trans hHigh
        exact (Nat.lt_or_eq_of_le (Nat.le_of_lt_succ hSucc)).imp_right fun hEq => ⟨hEq, rfl⟩
      · intro hOr
        have hLe : n ≤ halves := hOr.elim Nat.le_of_lt fun hEq => hEq.1.le
        have hLe' : (n : ℚ) ≤ halves := by exact_mod_cast hLe
        linarith

end HasHalves

/-- The integer part in half units, cut into the bits that are kept, the one below them, and those
below that. -/
theorem halves_grid (halves : Nat) {drop kept : Nat} (hDrop : drop = halves.log2 - f.precision)
    (hKept : kept = halves >>> (drop + 1)) :
    kept < 2 * f.fieldWeight ∧ (drop = 0 ∨ f.fieldWeight ≤ kept) ∧
      halves = (2 * kept + (halves >>> drop) % 2) * twoPow drop + halves % twoPow drop := by
  have hShift : kept = halves / (2 ^ drop * 2) := by
    rw [hKept, Nat.shiftRight_eq_div_pow, Nat.pow_succ]
  refine ⟨?_, ?_, ?_⟩
  · have hLog : halves < 2 ^ (halves.log2 + 1) := Nat.lt_log2_self
    have hLe : (2 : Nat) ^ (halves.log2 + 1) ≤ 2 ^ (drop + 1) * 2 ^ f.precision := by
      rw [← Nat.pow_add]
      exact Nat.pow_le_pow_right (by decide) (by omega)
    rw [← f.twoPow_precision, hShift, ← Nat.pow_succ]
    exact Nat.div_lt_of_lt_mul (Nat.lt_of_lt_of_le hLog hLe)
  · by_cases hZero : drop = 0
    · exact Or.inl hZero
    · have hNonzero : halves ≠ 0 := by
        rintro rfl
        rw [Nat.log2_zero, Nat.zero_sub] at hDrop
        exact hZero hDrop
      have hLog : 2 ^ halves.log2 ≤ halves := Nat.log2_self_le hNonzero
      have hSum : halves.log2 = f.precision + drop := by omega
      rw [hSum, Nat.pow_add] at hLog
      have hWeight : 2 ^ f.precision = 2 * f.fieldWeight := f.twoPow_precision
      refine Or.inr ?_
      rw [hShift, Nat.le_div_iff_mul_le (Nat.mul_pos (Nat.two_pow_pos drop) (by decide))]
      calc f.fieldWeight * (2 ^ drop * 2) = 2 ^ f.precision * 2 ^ drop := by
            rw [hWeight]
            ring
        _ ≤ halves := hLog
  · have hHalf : halves >>> drop = halves / 2 ^ drop := Nat.shiftRight_eq_div_pow halves drop
    have hBit : 2 * kept + (halves >>> drop) % 2 = halves / 2 ^ drop := by
      rw [hShift, ← Nat.div_div_eq_div_mul, hHalf]
      exact Nat.div_add_mod _ 2
    rw [hBit]
    exact (Nat.div_add_mod' halves (2 ^ drop)).symm

/-- The computed pattern before it is bounded by that of infinity: the number lies between the
midpoints around it, or on one of them if it is even. -/
theorem rounded_between {y : ℚ} {halves : Nat} {rest : Bool} (h : HasHalves y halves rest)
    {drop kept rounded : Nat} (hDrop : drop = halves.log2 - f.precision)
    (hKept : kept = halves >>> (drop + 1))
    (hRounded : rounded = drop * f.fieldWeight + kept +
      if (halves >>> drop) % 2 = 1 ∧ ((rest || halves % twoPow drop ≠ 0) = true ∨ kept % 2 = 1)
      then 1 else 0) :
    (∀ k, k + 1 = rounded → f.midpoint k < y ∨ (f.midpoint k = y ∧ rounded % 2 = 0)) ∧
    (y < f.midpoint rounded ∨ (y = f.midpoint rounded ∧ rounded % 2 = 0)) := by
  obtain ⟨hTop, hLead, hHalves⟩ := f.halves_grid halves hDrop hKept
  have hUnits : f.units (drop * f.fieldWeight + kept) = kept * twoPow drop :=
    f.units_grid (Nat.le_of_lt hTop) hLead
  have hUnitsSucc : f.units (drop * f.fieldWeight + kept + 1) = kept * twoPow drop + twoPow drop := by
    rw [← Nat.succ_mul]
    exact f.units_grid hTop (hLead.imp_right Nat.le_succ_of_le)
  have hParity : (drop * f.fieldWeight + kept) % 2 = kept % 2 := by
    rw [Nat.add_mod, Nat.mul_mod, f.fieldWeight_even, Nat.mul_zero, Nat.zero_mod, Nat.zero_add,
      Nat.mod_mod]
  have hLow : halves % twoPow drop < twoPow drop := Nat.mod_lt _ (twoPow_pos drop)
  have hBit : (halves >>> drop) % 2 = 0 ∨ (halves >>> drop) % 2 = 1 := Nat.mod_two_eq_zero_or_one _
  rw [Nat.add_mul, Nat.mul_assoc] at hHalves
  -- From here on the pattern below the number is `floor`, of `floorUnits` units.
  generalize drop * f.fieldWeight + kept = floor at *
  generalize kept * twoPow drop = floorUnits at *
  have hMid : f.midpoint floor = 2 * floorUnits + twoPow drop := by
    rw [midpoint, hUnits, hUnitsSucc]
    omega
  have hFloor : ∀ k, k + 1 = floor → (f.midpoint k : ℚ) < y := by
    rintro k rfl
    have hBelow := f.midpoint_lt_units k
    exact (h.lt_iff_lt_or _).mpr (Or.inl (by omega))
  rcases hBit with hBit | hBit
  · -- Below the midpoint.
    obtain rfl : rounded = floor := by
      rw [hRounded, if_neg (fun hUp => by omega), Nat.add_zero]
    rw [hBit, Nat.zero_mul] at hHalves
    exact ⟨fun k hk => Or.inl (hFloor k hk), Or.inl ((h.lt_iff _).mpr (by omega))⟩
  · rw [hBit, Nat.one_mul] at hHalves
    by_cases hBeyond : rest = true ∨ halves % twoPow drop ≠ 0
    · -- Above the midpoint.
      obtain rfl : rounded = floor + 1 := by
        rw [hRounded, if_pos ⟨hBit, Or.inl (by simpa using hBeyond)⟩]
      have hAbove := f.units_lt_midpoint (floor + 1)
      refine ⟨fun k hk => ?_, Or.inl ((h.lt_iff _).mpr (by omega))⟩
      obtain rfl : k = floor := Nat.succ.inj hk
      refine Or.inl ((h.lt_iff_lt_or _).mpr ?_)
      rcases hBeyond with hRest | hLow'
      · by_cases hZero : halves % twoPow drop = 0
        · exact Or.inr ⟨by omega, hRest⟩
        · exact Or.inl (by omega)
      · exact Or.inl (by omega)
    · -- On the midpoint: to the even side.
      obtain ⟨hRest, hZero⟩ := not_or.mp hBeyond
      have hEq : y = f.midpoint floor := by
        rw [h.exact (by simpa using hRest)]
        exact_mod_cast (by omega : halves = f.midpoint floor)
      by_cases hOdd : kept % 2 = 1
      · obtain rfl : rounded = floor + 1 := by
          rw [hRounded, if_pos ⟨hBit, Or.inr hOdd⟩]
        refine ⟨fun k hk => ?_, Or.inl ?_⟩
        · obtain rfl : k = floor := Nat.succ.inj hk
          exact Or.inr ⟨hEq.symm, by omega⟩
        · rw [hEq]
          exact_mod_cast f.strictMono_midpoint (Nat.lt_succ_self floor)
      · obtain rfl : rounded = floor := by
          rw [hRounded, if_neg (by simpa [hRest, hZero] using fun _ => by omega), Nat.add_zero]
        exact ⟨fun k hk => Or.inl (hFloor k hk), Or.inr ⟨hEq, by omega⟩⟩

/-- **The computed pattern is the one that the number rounds to.** -/
theorem nearest_roundsTo {x : ℚ} {halves : Nat} {rest : Bool} (h : HasHalves (2 * x) halves rest) :
    f.RoundsTo x (f.nearest halves rest) := by
  obtain ⟨hLower, hUpper⟩ := f.rounded_between h rfl rfl rfl
  exact RoundsTo.of_between hLower hUpper

/-- A quotient of natural numbers has the integer part and the rest that division gives. -/
theorem hasHalves_div (num : Nat) {den : Nat} (hDen : 0 < den) :
    HasHalves ((num : ℚ) / den) (num / den) (num % den ≠ 0) := by
  have hDen' : (0 : ℚ) < den := by exact_mod_cast hDen
  have hSplit : (num : ℚ) = (num / den : Nat) * den + (num % den : Nat) := by
    exact_mod_cast (Nat.div_add_mod' num den).symm
  constructor
  · intro hRest
    have hMod : num % den = 0 := by simpa using hRest
    rw [hMod, Nat.cast_zero, add_zero] at hSplit
    rw [hSplit]
    exact mul_div_cancel_right₀ _ hDen'.ne'
  · intro hRest
    have hMod : num % den ≠ 0 := by simpa using hRest
    have hLow : (0 : ℚ) < (num % den : Nat) := by exact_mod_cast Nat.pos_of_ne_zero hMod
    have hHigh : ((num % den : Nat) : ℚ) < den := by exact_mod_cast Nat.mod_lt num hDen
    rw [lt_div_iff₀ hDen', div_lt_iff₀ hDen', add_mul, one_mul]
    constructor <;> linarith

/-- **A ratio is rounded by its value alone.** -/
theorem nearestRatio_roundsTo (num : Nat) {den : Nat} (hDen : 0 < den) :
    f.RoundsTo ((num : ℚ) / den * twoPow f.scale) (f.nearestRatio num den) := by
  have hTwice : 2 * ((num : ℚ) / den * twoPow f.scale) =
      ((num * twoPow (f.scale + 1) : Nat) : ℚ) / den := by
    rw [twoPow_succ]
    push_cast
    ring
  exact f.nearest_roundsTo (hTwice ▸ hasHalves_div _ hDen)

theorem nearestRatio_eq_iff {num den m : Nat} (hDen : 0 < den) :
    f.nearestRatio num den = m ↔ f.RoundsTo ((num : ℚ) / den * twoPow f.scale) m := by
  have hRounds := f.nearestRatio_roundsTo num hDen
  constructor
  · rintro rfl
    exact hRounds
  · exact hRounds.unique

end WidthExact.FloatWidth
