import Mathlib.Analysis.Real.Sqrt
import Mathlib.Data.Nat.Prime.Basic
import WidthExact.Binary.SquareRoot
import WidthExact.Proofs.Binary.Literal
import WidthExact.Proofs.Binary.Order

/-!
# Square roots, rounded to the nearest value

The square root of a positive number of units is compared with a midpoint by their squares, which are
natural numbers. A root is never on a midpoint: the significand of a midpoint is odd and has a bit more
than that of a value, so that its square is no factor of one. So a root rounds to the one pattern with
midpoints of less before it and midpoints of more from it on (`RootsTo`), whether the operand is normal
or subnormal.

That the root is computed as a whole number of half units, with a bit for the rest, does not show: what
rounding sees of it is what it would see of the root.

## Main results

* `FloatWidth.midpoint_mul_self_ne` — no ties.
* `FloatWidth.RootsTo.mono`, `FloatWidth.RootsTo.unique`, `FloatWidth.RootsTo.mul_self` — the
  specification is a monotone function, exact on squares.
* `FloatWidth.rootsTo_nearest` — it is the one computed.
* `Binary.isNearestRoot_sqrt` — what that says of values.
* `Binary.sqrt_nearest` — square roots of all values.
-/

namespace WidthExact

namespace FloatWidth

variable {f : FloatWidth}

/-! ## The specification -/

/-- The number of units whose double has the square `square` rounds to the pattern `m`: the midpoints
below the pattern are less, and the other ones are more. -/
structure RootsTo (f : FloatWidth) (square m : Nat) : Prop where
  lower : ∀ k < m, f.midpoint k * f.midpoint k < square
  upper : ∀ k, m ≤ k → square < f.midpoint k * f.midpoint k

namespace RootsTo

variable {square square' m m' : Nat}

theorem mono (h : f.RootsTo square m) (h' : f.RootsTo square' m') (hLe : square ≤ square') :
    m ≤ m' := by
  by_contra hNot
  have hBelow := h.lower m' (Nat.lt_of_not_le hNot)
  have hAbove := h'.upper m' le_rfl
  omega

theorem unique (h : f.RootsTo square m) (h' : f.RootsTo square m') : m = m' :=
  Nat.le_antisymm (h.mono h' le_rfl) (h'.mono h le_rfl)

/-- The root of a square is the number squared. -/
theorem mul_self (k : Nat) : f.RootsTo (4 * (f.units k * f.units k)) k := by
  have hDouble : 4 * (f.units k * f.units k) = (2 * f.units k) * (2 * f.units k) := by ring
  rw [hDouble]
  refine ⟨fun j hj => Nat.mul_self_lt_mul_self ?_, fun j hj => Nat.mul_self_lt_mul_self ?_⟩
  · have hUnits : f.units (j + 1) ≤ f.units k := f.strictMono_units.monotone hj
    have hMid := f.midpoint_lt_units j
    omega
  · have hMid := f.strictMono_midpoint.monotone hj
    have hUnits := f.units_lt_midpoint k
    omega

/-- Half a unit, the first midpoint, is less than the root of a unit. -/
theorem pos (h : f.RootsTo square m) (hSquare : 0 < square) : 0 < m := by
  have hMid : f.midpoint 0 = 1 := by cases f <;> decide
  refine Nat.pos_of_ne_zero fun hZero => ?_
  have hAbove := h.upper 0 hZero.le
  rw [hMid] at hAbove
  omega

end RootsTo

/-! ## No ties -/

/-- The square of a midpoint is not a number of units, shifted by any number of places. -/
theorem midpoint_mul_self_ne (k s : Nat) {m : Nat} (hm : 0 < f.units m) :
    f.midpoint k * f.midpoint k ≠ 4 * (f.units m * twoPow s) := by
  intro hSquare
  obtain ⟨drop, kept, hMid, -, hLead⟩ := f.exists_midpoint_eq k
  obtain ⟨c, j, hc, hUnits⟩ := f.exists_eq_units m
  rw [hMid] at hSquare
  rcases hLead with rfl | hLead
  · -- The midpoint itself is odd.
    have hOdd : (2 * kept + 1) * twoPow 0 * ((2 * kept + 1) * twoPow 0) =
        4 * (kept * kept + kept) + 1 := by
      rw [show twoPow 0 = 1 from rfl]
      ring
    omega
  · -- The odd factor of the square is one of `c`, which has fewer bits.
    have hOdd : Nat.Coprime ((2 * kept + 1) * (2 * kept + 1)) (twoPow (j + s + 2)) := by
      have hTwo : Nat.Coprime (2 * kept + 1) 2 := Nat.coprime_two_right.mpr ⟨kept, rfl⟩
      exact (hTwo.mul_left hTwo).pow_right _
    have hFactor : (2 * kept + 1) * (2 * kept + 1) ∣ c * twoPow (j + s + 2) := by
      refine ⟨twoPow drop * twoPow drop, ?_⟩
      calc c * twoPow (j + s + 2) = 4 * (c * twoPow j * twoPow s) := by
            rw [twoPow_add, twoPow_add, show twoPow 2 = 4 from rfl]
            ring
        _ = 4 * (f.units m * twoPow s) := by rw [hUnits]
        _ = (2 * kept + 1) * twoPow drop * ((2 * kept + 1) * twoPow drop) := hSquare.symm
        _ = (2 * kept + 1) * (2 * kept + 1) * (twoPow drop * twoPow drop) := by ring
    have hPos : 0 < c := Nat.pos_of_mul_pos_right (hUnits ▸ hm)
    have hLe := Nat.le_of_dvd hPos (hOdd.dvd_of_dvd_mul_right hFactor)
    have hSelf := Nat.le_mul_self (2 * kept + 1)
    rw [f.twoPow_precision] at hc
    omega

/-! ## The computed root -/

section

variable {root square : Nat} (hLow : root * root ≤ square)
  (hHigh : square < (root + 1) * (root + 1))

/-- What rounding is told of a root it would be told of a number in the middle of the same half unit. -/
theorem hasHalves_root (root square : Nat) :
    HasHalves (2 * ((root + if root * root ≠ square then 1 / 2 else 0) / 2)) root
      (root * root ≠ square) := by
  rw [mul_div_cancel₀ _ (two_ne_zero)]
  constructor
  · intro hExact
    rw [if_neg (of_decide_eq_false hExact), add_zero]
  · intro hRest
    rw [if_pos (of_decide_eq_true hRest)]
    constructor <;> linarith

include hLow in
theorem midpoint_mul_self_le {k : Nat} (hk : k < f.nearest root (root * root ≠ square)) :
    f.midpoint k * f.midpoint k ≤ square := by
  have hHalves := hasHalves_root root square
  have hMid := (f.nearest_roundsTo hHalves).lower_le hk
  rw [← not_lt, hHalves.lt_iff, Nat.not_lt] at hMid
  exact (Nat.mul_self_le_mul_self hMid).trans hLow

include hHigh in
theorem le_midpoint_mul_self {k : Nat}
    (hFinite : f.nearest root (root * root ≠ square) < f.infinity)
    (hk : f.nearest root (root * root ≠ square) ≤ k) : square ≤ f.midpoint k * f.midpoint k := by
  have hHalves := hasHalves_root root square
  have hMid := (f.nearest_roundsTo hHalves).upper_le hk hFinite
  rw [← not_lt, hHalves.lt_iff_lt_or, not_or, Nat.not_lt] at hMid
  obtain ⟨hLe, hRest⟩ := hMid
  rcases Nat.lt_or_eq_of_le hLe with hLt | hEq
  · exact hHigh.le.trans (Nat.mul_self_le_mul_self hLt)
  · have hSquare : root * root = square := by
      by_contra hNe
      exact hRest ⟨hEq.symm, decide_eq_true hNe⟩
    rw [← hEq, hSquare]

end

/-- The root of a finite number is far from infinity. -/
theorem succ_lt_infinity {m r : Nat} (hFinite : m < f.infinity)
    (h : ∀ k < r, f.midpoint k * f.midpoint k ≤ 4 * (f.units m * twoPow f.scale)) :
    r + 1 < f.infinity := by
  have hOne : 1 < twoPow f.precision := by cases f <;> decide
  have hHalf : f.top / 2 + f.top / 2 = f.top := by cases f <;> rfl
  have hFar : f.top / 2 + 1 < f.top := by cases f <;> decide
  obtain ⟨p, hp⟩ := exists_units_eq (f.top / 2 + f.scale) hOne
  obtain ⟨q, hq⟩ := exists_units_eq (f.top / 2 + 1 + f.scale) hOne
  rw [Nat.one_mul] at hp hq
  have hLast : q < f.infinity := by
    rw [← f.strictMono_units.lt_iff_lt, hq, f.units_infinity, ← twoPow_add]
    exact Nat.pow_lt_pow_right (by decide) (by omega)
  have hNext : p < q := by
    rw [← f.strictMono_units.lt_iff_lt, hp, hq]
    exact Nat.pow_lt_pow_right (by decide) (by omega)
  have hBelow : r ≤ p := by
    by_contra hNot
    have hUnits : f.units m < twoPow f.top * twoPow f.scale :=
      f.units_infinity ▸ f.strictMono_units hFinite
    have hRoot : twoPow f.top * twoPow f.scale * twoPow f.scale = f.units p * f.units p := by
      rw [hp, ← twoPow_add, ← twoPow_add, ← twoPow_add]
      congr 1
      omega
    have hLt := calc 4 * (f.units m * twoPow f.scale)
        < 4 * (twoPow f.top * twoPow f.scale * twoPow f.scale) :=
          Nat.mul_lt_mul_of_pos_left (Nat.mul_lt_mul_of_pos_right hUnits (twoPow_pos _)) (by decide)
      _ = (2 * f.units p) * (2 * f.units p) := by rw [hRoot]; ring
      _ ≤ f.midpoint p * f.midpoint p := Nat.mul_self_le_mul_self (f.units_lt_midpoint p).le
    exact absurd (h p (Nat.lt_of_not_le hNot)) (Nat.not_le.mpr hLt)
  omega

/-- **The computed root is the nearest one**, of a finite pattern other than zero. -/
theorem rootsTo_nearest {m root square : Nat} (hPos : 0 < m) (hFinite : m < f.infinity)
    (hSquare : square = 4 * (f.units m * twoPow f.scale)) (hRoot : root = natSqrt square) :
    f.RootsTo square (f.nearest root (root * root ≠ square)) := by
  have hUnits : 0 < f.units m := f.units_zero ▸ f.strictMono_units hPos
  have hNe (k : Nat) : f.midpoint k * f.midpoint k ≠ square :=
    hSquare ▸ f.midpoint_mul_self_ne k f.scale hUnits
  obtain ⟨hLow, hHigh⟩ := natSqrt_bracket square
  rw [← hRoot] at hLow hHigh
  have hBelow := succ_lt_infinity hFinite fun k hk => hSquare ▸ midpoint_mul_self_le (f := f) hLow hk
  constructor
  · intro k hk
    exact Nat.lt_of_le_of_ne (midpoint_mul_self_le hLow hk) (hNe k)
  · intro k hk
    exact Nat.lt_of_le_of_ne (le_midpoint_mul_self hHigh (by omega) hk) (hNe k).symm

end FloatWidth

namespace Binary

variable {f : FloatWidth}

/-! ## Neighbours -/

/-- Two finite values with none between them. -/
structure IsNext (x y : Binary f) : Prop where
  isFinite : x.isFinite = true ∧ y.isFinite = true
  lt : x.value < y.value
  beyond : ∀ z : Binary f, z.isFinite = true → z.value ≤ x.value ∨ y.value ≤ z.value

theorem value_of_nonneg {x : Binary f} (h : x.isNegative = false) :
    x.value = f.units x.magnitude / twoPow f.scale := by
  rw [value_eq, h]
  rfl

/-- Patterns that follow each other are neighbours. -/
theorem isNext_of_magnitude {x y : Binary f} (hx : x.isNegative = false) (hy : y.isNegative = false)
    (hNext : x.magnitude + 1 = y.magnitude) (hFinite : y.magnitude < f.infinity) : IsNext x y := by
  have hKey : x.orderKey + 1 = y.orderKey := by
    rw [orderKey_of_nonneg hx, orderKey_of_nonneg hy]
    exact_mod_cast hNext
  refine ⟨⟨decide_eq_true (by omega), decide_eq_true hFinite⟩, ?_, fun z hz => ?_⟩
  · rw [← not_le, ← orderKey_le_iff]
    omega
  · rw [← orderKey_le_iff, ← orderKey_le_iff]
    omega

/-! ## The nearest root -/

/-- The real square root of `q` lies between the midpoints around `r`, as their squares tell, so that
no other value is as close to it. -/
structure IsNearestRoot (q : ℚ) (r : Binary f) : Prop where
  isFinite : r.isFinite = true
  pos : 0 < r.value
  midpoints : ∃ l u : Binary f, IsNext l r ∧ IsNext r u ∧ 0 ≤ l.value ∧
    ((l.value + r.value) / 2) ^ 2 < q ∧ q < ((r.value + u.value) / 2) ^ 2
  closer : ∀ z : Binary f, z.isFinite = true → z.value ≠ r.value →
    |(r.value : ℝ) - √(q : ℝ)| < |(z.value : ℝ) - √(q : ℝ)|

theorem abs_sub_sqrt_lt {q l r u z : ℝ} (hNonneg : 0 ≤ l) (hLow : l < r) (hHigh : r < u)
    (hAbove : ((l + r) / 2) ^ 2 < q) (hBelow : q < ((r + u) / 2) ^ 2) (hBeyond : z ≤ l ∨ u ≤ z) :
    |r - √q| < |z - √q| := by
  have hFirst : (l + r) / 2 < √q := (Real.lt_sqrt (by linarith)).mpr hAbove
  have hSecond : √q < (r + u) / 2 := (Real.sqrt_lt' (by linarith)).mpr hBelow
  rcases hBeyond with hz | hz
  · rw [abs_of_neg (by linarith : z - √q < 0), abs_lt]
    constructor <;> linarith
  · rw [abs_of_pos (by linarith : 0 < z - √q), abs_lt]
    constructor <;> linarith

theorem isNearestRoot_of_midpoints {q : ℚ} {l r u : Binary f} (hLow : IsNext l r) (hHigh : IsNext r u)
    (hNonneg : 0 ≤ l.value) (hAbove : ((l.value + r.value) / 2) ^ 2 < q)
    (hBelow : q < ((r.value + u.value) / 2) ^ 2) : IsNearestRoot q r where
  isFinite := hHigh.isFinite.1
  pos := hNonneg.trans_lt hLow.lt
  midpoints := ⟨l, u, hLow, hHigh, hNonneg, hAbove, hBelow⟩
  closer z hz hNe := by
    have hBeyond : z.value ≤ l.value ∨ u.value ≤ z.value := by
      rcases hLow.beyond z hz with hLeft | hRight
      · exact .inl hLeft
      · exact .inr ((hHigh.beyond z hz).resolve_left fun h => hNe (le_antisymm h hRight))
    exact abs_sub_sqrt_lt (l := l.value) (u := u.value) (by exact_mod_cast hNonneg)
      (by exact_mod_cast hLow.lt) (by exact_mod_cast hHigh.lt) (by exact_mod_cast hAbove)
      (by exact_mod_cast hBelow) (by exact_mod_cast hBeyond)

/-! ## The computed root -/

theorem sqrt_of_isNaN {x : Binary f} (h : x.isNaN = true) : x.sqrt = x := if_pos (.inl h)

/-- A zero is its own root, with its sign. -/
theorem sqrt_of_isZero {x : Binary f} (h : x.isZero = true) : x.sqrt = x := if_pos (.inr h)

theorem sqrt_infinity : (infinity false : Binary f).sqrt = infinity false := by
  cases f <;> rfl

/-- There is no root of a number below zero. -/
theorem sqrt_of_isNegative {x : Binary f} (hNumber : x.isNaN = false) (hZero : x.isZero = false)
    (hSign : x.isNegative = true) : x.sqrt = nan false := by
  rw [sqrt, hNumber, hZero, hSign]
  rfl

theorem isNaN_sqrt_of_isNegative {x : Binary f} (hZero : x.isZero = false)
    (hSign : x.isNegative = true) : x.sqrt.isNaN = true := by
  cases hNumber : x.isNaN with
  | true => rw [sqrt_of_isNaN hNumber, hNumber]
  | false => rw [sqrt_of_isNegative hNumber hZero hSign, isNaN_nan]

/-- The pattern computed for a finite value above zero is the one that the root rounds to. -/
theorem rootsTo_sqrt {x : Binary f} (hFinite : x.isFinite = true) (hSign : x.isNegative = false)
    (hPos : 0 < x.magnitude) :
    x.sqrt.isNegative = false ∧ x.sqrt.magnitude + 1 < f.infinity ∧
      f.RootsTo (4 * (x.units * twoPow f.scale)) x.sqrt.magnitude := by
  have hLt : x.magnitude < f.infinity := of_decide_eq_true hFinite
  obtain ⟨m, hRoot, hRoots⟩ : ∃ m, x.sqrt = ofMagnitude false m ∧
      f.RootsTo (4 * (x.units * twoPow f.scale)) m := by
    refine ⟨_, ?_, FloatWidth.rootsTo_nearest hPos hLt rfl rfl⟩
    have hZero : x.isZero = false := decide_eq_false hPos.ne'
    rw [sqrt, isNaN_of_isFinite hFinite, hZero, hSign, isInfinite_of_isFinite hFinite]
    rfl
  have hBelow := FloatWidth.succ_lt_infinity hLt fun k hk => (hRoots.lower k hk).le
  have hMagnitude : x.sqrt.magnitude = m := by
    rw [hRoot, magnitude_ofMagnitude _ (by omega)]
  rw [hMagnitude]
  refine ⟨?_, hBelow, hRoots⟩
  rw [hRoot, isNegative_ofMagnitude _ (by omega)]

/-- The square that the root is computed of, in quarters of a squared unit. -/
theorem value_eq_square {x : Binary f} (h : x.isNegative = false) :
    x.value = (4 * (x.units * twoPow f.scale) : Nat) / (4 * (twoPow f.scale * twoPow f.scale)) := by
  have hScale := twoPow_scale_pos f
  rw [value_of_nonneg h, ← units]
  push_cast
  field_simp

/-- And that of the middle between two values. -/
theorem sq_middle (f : FloatWidth) (k : Nat) :
    (((f.units k : ℚ) / twoPow f.scale + f.units (k + 1) / twoPow f.scale) / 2) ^ 2 =
      (f.midpoint k * f.midpoint k : Nat) / (4 * (twoPow f.scale * twoPow f.scale)) := by
  rw [FloatWidth.midpoint]
  push_cast
  field_simp
  ring

/-- **The computed root is the value nearest to the real one.** -/
theorem isNearestRoot_sqrt {x : Binary f} (hFinite : x.isFinite = true)
    (hSign : x.isNegative = false) (hPos : 0 < x.magnitude) : IsNearestRoot x.value x.sqrt := by
  have hScale := twoPow_scale_pos f
  obtain ⟨hRootSign, hBelow, hRoots⟩ := rootsTo_sqrt hFinite hSign hPos
  have hUnits : 0 < x.units := f.units_zero ▸ f.strictMono_units hPos
  obtain ⟨m, hm⟩ := Nat.exists_eq_add_of_le' (hRoots.pos (by have := twoPow_pos f.scale; positivity))
  have hValue := value_eq_square hSign
  have hDen : (0 : ℚ) < 4 * (twoPow f.scale * twoPow f.scale) := by positivity
  have hPattern (k : Nat) (hk : k < f.infinity) :
      (ofMagnitude false k : Binary f).isNegative = false ∧
        (ofMagnitude false k : Binary f).magnitude = k :=
    ⟨isNegative_ofMagnitude _ hk.le, magnitude_ofMagnitude _ hk.le⟩
  obtain ⟨hLowSign, hLow⟩ := hPattern m (by omega)
  obtain ⟨hHighSign, hHigh⟩ := hPattern (m + 2) (by omega)
  refine isNearestRoot_of_midpoints (isNext_of_magnitude hLowSign hRootSign (by omega) (by omega))
    (isNext_of_magnitude hRootSign hHighSign (by omega) (by omega)) ?_ ?_ ?_
  · rw [value_of_nonneg hLowSign]
    positivity
  · rw [value_of_nonneg hLowSign, value_of_nonneg hRootSign, hLow, hm, sq_middle, hValue,
      div_lt_div_iff_of_pos_right hDen]
    exact_mod_cast hRoots.lower m (by omega)
  · rw [value_of_nonneg hRootSign, value_of_nonneg hHighSign, hHigh, hm, sq_middle, hValue,
      div_lt_div_iff_of_pos_right hDen]
    exact_mod_cast hRoots.upper (m + 1) hm.le

/-! ## Squares -/

/-- The root of the square of a value is the value without its sign. -/
theorem sqrt_of_sq {x z : Binary f} (hx : x.isFinite = true) (hSign : x.isNegative = false)
    (hPos : 0 < x.magnitude) (hSquare : x.value = z.value ^ 2) :
    x.sqrt.value = |z.value| := by
  have hScale := twoPow_scale_pos f
  obtain ⟨hRootSign, -, hRoots⟩ := rootsTo_sqrt hx hSign hPos
  have hUnits : x.units * twoPow f.scale = z.units * z.units := by
    rw [← sq_abs, abs_value, size, value_of_nonneg hSign, ← units] at hSquare
    have hSquare' : (x.units : ℚ) * twoPow f.scale = z.units * z.units := by
      rw [← div_mul_cancel₀ (x.units : ℚ) hScale.ne', hSquare]
      field_simp
    exact_mod_cast hSquare'
  rw [hUnits] at hRoots
  rw [value_of_nonneg hRootSign, abs_value, size, hRoots.unique (.mul_self z.magnitude), units]

/-! ## Monotonicity -/

/-- The cases of a number that has a root. -/
theorem zero_or_infinity_or_finite {x : Binary f} (hNumber : x.isNaN = false)
    (hKey : 0 ≤ x.orderKey) :
    x.isZero = true ∨ x = infinity false ∨
      x.isFinite = true ∧ x.isNegative = false ∧ 0 < x.magnitude := by
  have hSame := x.natAbs_orderKey
  by_cases hZero : x.magnitude = 0
  · exact .inl (decide_eq_true hZero)
  have hSign : x.isNegative = false := by
    by_contra hNot
    rw [orderKey, if_pos (eq_true_of_ne_false hNot)] at hKey
    omega
  rcases isFinite_or_isInfinite hNumber with hFinite | hInfinite
  · exact .inr (.inr ⟨hFinite, hSign, Nat.pos_of_ne_zero hZero⟩)
  · exact .inr (.inl (hSign ▸ eq_infinity hInfinite))

theorem orderKey_sqrt_nonneg {x : Binary f} (hNumber : x.isNaN = false) (hKey : 0 ≤ x.orderKey) :
    x.sqrt.isNaN = false ∧ 0 ≤ x.sqrt.orderKey := by
  rcases zero_or_infinity_or_finite hNumber hKey with hZero | rfl | ⟨hFinite, hSign, hPos⟩
  · rw [sqrt_of_isZero hZero]
    exact ⟨hNumber, hKey⟩
  · rw [sqrt_infinity]
    exact ⟨hNumber, hKey⟩
  · obtain ⟨hRootSign, hBelow, -⟩ := rootsTo_sqrt hFinite hSign hPos
    rw [orderKey_of_nonneg hRootSign]
    exact ⟨decide_eq_false (by omega), Int.natCast_nonneg _⟩

/-- Where there is a root, there is one of everything that is greater. -/
theorem orderKey_nonneg_of_isNaN_sqrt {x : Binary f} (h : x.sqrt.isNaN = false) :
    0 ≤ x.orderKey := by
  cases hZero : x.isZero with
  | true => exact (orderKey_of_isZero hZero).ge
  | false =>
      cases hSign : x.isNegative with
      | false => exact orderKey_of_nonneg hSign ▸ Int.natCast_nonneg _
      | true => exact absurd h (by rw [isNaN_sqrt_of_isNegative hZero hSign]; decide)

/-- **Square roots are monotone** from zero on. -/
theorem le_sqrt_sqrt {x y : Binary f} (hLe : le x y = true) (hRoot : x.sqrt.isNaN = false) :
    le x.sqrt y.sqrt = true := by
  obtain ⟨hx, hy, hKeys⟩ := le_iff.mp hLe
  have hKey := orderKey_nonneg_of_isNaN_sqrt hRoot
  obtain ⟨hRoot', hKey'⟩ := orderKey_sqrt_nonneg hy (hKey.trans hKeys)
  refine le_iff.mpr ⟨hRoot, hRoot', ?_⟩
  rcases zero_or_infinity_or_finite hx hKey with hZero | rfl | ⟨hFinite, hSign, hPos⟩
  · rw [sqrt_of_isZero hZero, orderKey_of_isZero hZero]
    exact hKey'
  · rw [orderKey_infinity] at hKeys
    rw [eq_infinity_of_orderKey hy hKeys]
  obtain ⟨hRootSign, hBelow, hRoots⟩ := rootsTo_sqrt hFinite hSign hPos
  rw [orderKey_of_nonneg hSign] at hKeys
  rw [orderKey_of_nonneg hRootSign]
  rcases zero_or_infinity_or_finite hy (by omega) with hZero | rfl | ⟨hFinite', hSign', hPos'⟩
  · rw [orderKey_of_isZero hZero] at hKeys
    omega
  · rw [sqrt_infinity, orderKey_infinity]
    omega
  · obtain ⟨hRootSign', -, hRoots'⟩ := rootsTo_sqrt hFinite' hSign' hPos'
    rw [orderKey_of_nonneg hSign', Int.ofNat_le] at hKeys
    have hUnits : x.units ≤ y.units := f.strictMono_units.monotone hKeys
    rw [orderKey_of_nonneg hRootSign', Int.ofNat_le]
    exact hRoots.mono hRoots' (Nat.mul_le_mul_left 4 (Nat.mul_le_mul_right _ hUnits))

/-! ## All values -/

theorem magnitude_pos_of_value {x : Binary f} (h : 0 < x.value) :
    x.isNegative = false ∧ 0 < x.magnitude := by
  have hSize : 0 < x.size := abs_value x ▸ abs_pos.mpr h.ne'
  have hUnits := units_pos_of_size hSize
  constructor
  · by_contra hNot
    rw [value_eq, eq_true_of_ne_false hNot] at h
    exact absurd (show 0 < -x.size from h) (by linarith)
  · exact Nat.pos_of_ne_zero fun hZero => hUnits.ne' (f.units_eq_zero_iff.mpr hZero)

theorem isZero_of_value {x : Binary f} (h : x.value = 0) : x.isZero = true := by
  have hUnits : (x.units : ℚ) = 0 := by
    rw [← size_mul, ← abs_value, h, abs_zero, zero_mul]
  exact decide_eq_true (f.units_eq_zero_iff.mp (by exact_mod_cast hUnits))

/-- **Square roots are correctly rounded.** The root of a finite number above zero, normal or
subnormal, is the value nearest to the real one, which lies strictly between the midpoints around it. A
zero is its own root, the root of infinity is infinity, and a NaN and the numbers below zero have a NaN
for a root. So roots are monotone, and they are exact on squares. -/
theorem sqrt_nearest (x : Binary f) :
    (x.isFinite = true → 0 < x.value → IsNearestRoot x.value x.sqrt) ∧
      (x.isZero = true → x.sqrt = x) ∧
      (infinity false : Binary f).sqrt = infinity false ∧
      (x.isNaN = true ∨ x.isNegative = true ∧ x.isZero = false → x.sqrt.isNaN = true) ∧
      (∀ y, le x y = true → x.sqrt.isNaN = false → le x.sqrt y.sqrt = true) ∧
      ∀ z : Binary f, x.isFinite = true → z.isFinite = true → x.value = z.value ^ 2 →
        x.sqrt.isFinite = true ∧ x.sqrt.value = |z.value| := by
  refine ⟨fun hFinite hPos => ?_, sqrt_of_isZero, sqrt_infinity, ?_, fun y => le_sqrt_sqrt,
    fun z hFinite _ hSquare => ?_⟩
  · obtain ⟨hSign, hMagnitude⟩ := magnitude_pos_of_value hPos
    exact isNearestRoot_sqrt hFinite hSign hMagnitude
  · rintro (hNaN | ⟨hSign, hZero⟩)
    · rw [sqrt_of_isNaN hNaN, hNaN]
    · exact isNaN_sqrt_of_isNegative hZero hSign
  · by_cases hz : z.value = 0
    · have hx : x.value = 0 := by rw [hSquare, hz, zero_pow two_ne_zero]
      rw [sqrt_of_isZero (isZero_of_value hx), hx, hz, abs_zero]
      exact ⟨hFinite, rfl⟩
    · obtain ⟨hSign, hMagnitude⟩ := magnitude_pos_of_value (hSquare ▸ sq_pos_of_ne_zero hz)
      exact ⟨(isNearestRoot_sqrt hFinite hSign hMagnitude).isFinite,
        sqrt_of_sq hFinite hSign hMagnitude hSquare⟩

/-- The least subnormal value; four as the square of minus two; minus one; and zero before four. -/
theorem sqrt_nearest_least :
    IsNearestRoot (⟨1#32⟩ : Binary .f32).value (⟨1#32⟩ : Binary .f32).sqrt ∧
      (⟨0x40800000#32⟩ : Binary .f32).sqrt.value = |(⟨0xc0000000#32⟩ : Binary .f32).value| ∧
      (⟨0xbf800000#32⟩ : Binary .f32).sqrt.isNaN = true ∧
      le (⟨0#32⟩ : Binary .f32).sqrt (⟨0x40800000#32⟩ : Binary .f32).sqrt = true := by
  obtain ⟨hLeast, -⟩ := sqrt_nearest (⟨1#32⟩ : Binary .f32)
  obtain ⟨-, -, -, -, -, hFour⟩ := sqrt_nearest (⟨0x40800000#32⟩ : Binary .f32)
  obtain ⟨-, -, -, hMinusOne, -⟩ := sqrt_nearest (⟨0xbf800000#32⟩ : Binary .f32)
  obtain ⟨-, hZero, -, -, hMono, -⟩ := sqrt_nearest (⟨0#32⟩ : Binary .f32)
  exact ⟨hLeast (by decide) (by decide +kernel),
    (hFour ⟨0xc0000000#32⟩ (by decide) (by decide) (by decide +kernel)).2,
    hMinusOne (.inr (by decide)),
    hMono _ (by decide) (by rw [hZero (by decide)]; decide)⟩

end Binary

end WidthExact
