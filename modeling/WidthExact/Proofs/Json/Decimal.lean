import WidthExact.Proofs.Json.Scaling
import WidthExact.Proofs.Json.Text

/-!
# JSON numbers as decimals

A JSON number denotes a decimal: all its digits, and the power of ten that the point and the
exponent come to. The number that is written for a decimal denotes a decimal of the same value. Where
the digits and the power are small enough, reading rounds that value once; and a value that is not at
the upper end of the wide format is always read.

## Main results

* `JsonNumber.ofDecimal_writes` — the number that is written for a decimal.
* `JsonNumber.wide?_exact`, `JsonNumber.isSome_wide?` — how a number is read.
-/

namespace WidthExact.JsonNumber

open Text

/-- All digits of a number, as one natural number. -/
def significand (n : JsonNumber) : Nat := Nat.ofDigitChars 10 (n.whole ++ n.fraction) 0

/-- The exponent that is written. -/
def exponentValue (n : JsonNumber) : Int :=
  match n.exponent with
  | none => 0
  | some (negative, digits) =>
    if negative then -(Nat.ofDigitChars 10 digits 0 : Int) else Nat.ofDigitChars 10 digits 0

/-- The power of ten behind all digits. -/
def power (n : JsonNumber) : Int := n.exponentValue - n.fraction.length

/-- The magnitude of a number. -/
def decimal (n : JsonNumber) : Decimal := ⟨n.significand, n.power⟩

/-! ## Reading -/

theorem le_ofDigitChars (digits : List Char) (start : Nat) :
    start ≤ Nat.ofDigitChars 10 digits start := by
  rw [Nat.ofDigitChars_eq_ofDigitChars_zero]
  exact (Nat.le_mul_of_pos_left start (Nat.pow_pos (by decide))).trans (Nat.le_add_right _ _)

/-- Digits are taken from the front, as many as fit. -/
theorem absorb_spec (digits : List Char) : ∀ start, ∃ taken dropped, digits = taken ++ dropped ∧
    absorb start digits = (Nat.ofDigitChars 10 taken start, dropped) := by
  induction digits with
  | nil => exact fun start => ⟨[], [], rfl, rfl⟩
  | cons digit digits ih =>
      intro start
      by_cases hFits : 10 * start + (digit.toNat - 48) < twoPow 64
      · obtain ⟨taken, dropped, hSplit, hRest⟩ := ih (10 * start + (digit.toNat - 48))
        refine ⟨digit :: taken, dropped, by rw [hSplit, List.cons_append], ?_⟩
        rw [Nat.ofDigitChars_cons]
        exact (if_pos hFits).trans hRest
      · exact ⟨[], digit :: digits, rfl, if_neg hFits⟩

/-- If all of them fit, all are taken. -/
theorem absorb_eq {digits : List Char} : ∀ {start}, Nat.ofDigitChars 10 digits start < twoPow 64 →
    absorb start digits = (Nat.ofDigitChars 10 digits start, []) := by
  induction digits with
  | nil => exact fun _ => rfl
  | cons digit digits ih =>
      intro start h
      rw [Nat.ofDigitChars_cons] at h ⊢
      exact (if_pos (Nat.lt_of_le_of_lt (le_ofDigitChars _ _) h)).trans (ih h)

theorem absorb_lt (digits : List Char) : ∀ {start}, start < twoPow 64 →
    (absorb start digits).1 < twoPow 64 := by
  induction digits with
  | nil => exact fun h => h
  | cons digit digits ih =>
      intro start h
      by_cases hFits : 10 * start + (digit.toNat - 48) < twoPow 64
      · rw [absorb, if_pos hFits]
        exact ih hFits
      · rw [absorb, if_neg hFits]
        exact h

theorem exponentValue_of_none {n : JsonNumber} (h : n.exponent = none) : n.exponentValue = 0 := by
  rw [exponentValue, h]

theorem exponentValue_of_some {n : JsonNumber} {negative : Bool} {digits : List Char}
    (h : n.exponent = some (negative, digits)) :
    n.exponentValue = if negative then -(Nat.ofDigitChars 10 digits 0 : Int)
      else Nat.ofDigitChars 10 digits 0 := by
  rw [exponentValue, h]

/-- The magnitude that a number is read as, from the digits that are taken. -/
theorem magnitude?_eq {n : JsonNumber} {taken : Nat} {dropped : List Char}
    (hWhole : Nat.ofDigitChars 10 n.whole 0 < twoPow 64)
    (hFraction : absorb (Nat.ofDigitChars 10 n.whole 0) n.fraction = (taken, dropped))
    (hSize : ∀ negative digits, n.exponent = some (negative, digits) →
      Nat.ofDigitChars 10 digits 0 < twoPow 31) :
    n.magnitude? = scaleByTen (Binary.ofNat taken)
      (n.exponentValue - (n.fraction.length - dropped.length : Nat)) := by
  unfold magnitude? writtenExponent
  simp only [absorb_eq hWhole, hFraction, List.length_nil]
  cases hExponent : n.exponent with
  | none =>
      rw [exponentValue_of_none hExponent]
      show scaleByTen _ _ = scaleByTen _ _
      congr 1
      omega
  | some written =>
      obtain ⟨negative, digits⟩ := written
      rw [exponentValue_of_some hExponent]
      simp only [if_pos (hSize negative digits hExponent)]
      cases negative <;>
      · show scaleByTen _ _ = scaleByTen _ _
        congr 1
        simp only [Bool.false_eq_true, if_false, if_true]
        omega

/-- An exponent that is far too small gives zero. -/
theorem magnitude?_of_small {n : JsonNumber} {digits : List Char}
    (hExponent : n.exponent = some (true, digits))
    (hSize : ¬ Nat.ofDigitChars 10 digits 0 < twoPow 31) :
    n.magnitude? = some (Binary.zero false) := by
  unfold magnitude? writtenExponent
  simp only [hExponent, if_neg hSize]

/-- **A number below the upper end of the wide format is read**, perhaps not as the nearest value. -/
theorem isSome_magnitude? {n : JsonNumber} (hWhole : Nat.ofDigitChars 10 n.whole 0 < twoPow 64)
    (hSize : ∀ digits, n.exponent = some (false, digits) →
      Nat.ofDigitChars 10 digits 0 < twoPow 31)
    (hValue : n.decimal.value ≤ twoPow 1024 - 5 * twoPow 970) : n.magnitude?.isSome = true := by
  by_cases hSmall : ∃ digits, n.exponent = some (true, digits) ∧
      ¬ Nat.ofDigitChars 10 digits 0 < twoPow 31
  · obtain ⟨digits, hExponent, hSize⟩ := hSmall
    rw [magnitude?_of_small hExponent hSize]
    rfl
  have hSizes : ∀ negative digits, n.exponent = some (negative, digits) →
      Nat.ofDigitChars 10 digits 0 < twoPow 31 := by
    intro negative digits hExponent
    cases negative with
    | false => exact hSize digits hExponent
    | true => exact not_not.mp fun hGreat => hSmall ⟨digits, hExponent, hGreat⟩
  obtain ⟨taken, dropped, hSplit, hFraction⟩ :=
    absorb_spec n.fraction (Nat.ofDigitChars 10 n.whole 0)
  rw [magnitude?_eq hWhole hFraction hSizes]
  refine isSome_scaleByTen (le_trans ?_ hValue)
  -- The digits that are dropped only make the number smaller.
  have hDigits : n.significand = 10 ^ dropped.length *
      Nat.ofDigitChars 10 taken (Nat.ofDigitChars 10 n.whole 0) + Nat.ofDigitChars 10 dropped 0 := by
    rw [significand, hSplit, Nat.ofDigitChars_append, Nat.ofDigitChars_append,
      Nat.ofDigitChars_eq_ofDigitChars_zero (l := dropped)]
  have hLength : n.fraction.length = taken.length + dropped.length := by
    rw [hSplit, List.length_append]
  have hPower : n.exponentValue - (n.fraction.length - dropped.length : Nat) =
      n.power + dropped.length := by
    rw [power]
    omega
  have hTaken : (Nat.ofDigitChars 10 taken (Nat.ofDigitChars 10 n.whole 0) : ℚ) *
      10 ^ dropped.length ≤ n.significand := by
    rw [mul_comm]
    exact_mod_cast hDigits ▸ Nat.le_add_right _ _
  rw [hPower, zpow_add₀ (by norm_num), zpow_natCast, mul_comm (_ ^ n.power), ← mul_assoc]
  exact mul_le_mul_of_nonneg_right hTaken (by positivity)

/-- No number is read as an infinity. -/
theorem isFinite_magnitude? {n : JsonNumber} {x : Binary .f64} (h : n.magnitude? = some x) :
    x.isFinite = true := by
  have hDigits : Binary.isFinite (f := .f64) (.ofNat (absorb (absorb 0 n.whole).1 n.fraction).1) =
      true :=
    isFinite_ofNat (absorb_lt _ (absorb_lt _ (twoPow_pos 64))).le
  unfold magnitude? at h
  simp only at h
  split at h
  · exact isFinite_scaleByTen hDigits h
  · exact isFinite_scaleByTen hDigits h
  · exact Option.some.inj h ▸ rfl
  · exact Option.some.inj (Option.ite_none_right_eq_some.mp h).2 ▸ rfl

/-- **One rounding.** A number with digits below `2 ^ 53` and a power of ten up to 22 is read as the
nearest wide value. -/
theorem magnitude?_exact {n : JsonNumber} (hDigits : n.significand < twoPow 53)
    (hLow : -22 ≤ n.power) (hHigh : n.power ≤ 22)
    (hSize : ∀ digits, n.exponent = some (false, digits) →
      Nat.ofDigitChars 10 digits 0 < twoPow 31) :
    n.magnitude? = some (Binary.ofMagnitude false (n.decimal.nearest .f64)) := by
  have hFits : n.significand < twoPow 64 := hDigits.trans_le (twoPow_le (by decide))
  have hWhole : Nat.ofDigitChars 10 n.whole 0 < twoPow 64 := by
    rw [significand, Nat.ofDigitChars_append] at hFits
    exact Nat.lt_of_le_of_lt (le_ofDigitChars _ _) hFits
  have hFraction : absorb (Nat.ofDigitChars 10 n.whole 0) n.fraction = (n.significand, []) := by
    rw [significand, Nat.ofDigitChars_append] at hFits ⊢
    exact absorb_eq hFits
  have hSizes : ∀ negative digits, n.exponent = some (negative, digits) →
      Nat.ofDigitChars 10 digits 0 < twoPow 31 := by
    intro negative digits hExponent
    cases negative with
    | false => exact hSize digits hExponent
    | true =>
        have hSmall : Nat.ofDigitChars 10 digits 0 ≤ 22 := by
          rw [power, exponentValue_of_some hExponent, if_pos rfl] at hLow
          omega
        exact Nat.lt_of_le_of_lt hSmall (by decide)
  rw [magnitude?_eq hWhole hFraction hSizes]
  exact scaleByTen_exact hDigits hLow hHigh

/-! ## Signs and formats -/

theorem negate_ofMagnitude (negative : Bool) {m : Nat} (h : m ≤ FloatWidth.f64.infinity) :
    (Binary.ofMagnitude negative m : Binary .f64).negate = Binary.ofMagnitude (!negative) m := by
  rw [Binary.negate, Binary.isNegative_ofMagnitude negative h, Binary.magnitude_ofMagnitude _ h]

theorem wide?_exact {n : JsonNumber} (hDigits : n.significand < twoPow 53)
    (hLow : -22 ≤ n.power) (hHigh : n.power ≤ 22)
    (hSize : ∀ digits, n.exponent = some (false, digits) →
      Nat.ofDigitChars 10 digits 0 < twoPow 31) :
    n.wide? = some (Binary.ofMagnitude n.negative (n.decimal.nearest .f64)) := by
  have hLe := (n.decimal.nearest_roundsTo (f := .f64)).le_infinity
  rw [wide?, magnitude?_exact hDigits hLow hHigh hSize, Option.map_some]
  cases n.negative with
  | false => rfl
  | true => exact congrArg some (negate_ofMagnitude false hLe)

theorem isSome_wide? {n : JsonNumber} (h : n.magnitude?.isSome = true) : n.wide?.isSome = true := by
  rw [wide?, Option.isSome_map]
  exact h

theorem isFinite_wide? {n : JsonNumber} {x : Binary .f64} (h : n.wide? = some x) :
    x.isFinite = true := by
  obtain ⟨y, hMagnitude, rfl⟩ := Option.map_eq_some_iff.mp h
  have hFinite := isFinite_magnitude? hMagnitude
  split
  · rw [Binary.isFinite_negate]
    exact hFinite
  · exact hFinite

/-- A number with a point or an exponent is read by way of the wide format. -/
theorem binary?_eq {f : FloatWidth} {n : JsonNumber} (h : n.isIntegerLiteral = false) :
    n.binary? f = n.wide?.map fun x => x.toFormat f := by
  have hInt : n.int? = none := by
    rw [int?, h]
    rfl
  rw [binary?, hInt]

/-! ## Writing -/

/-- The number that is written for a decimal: it has a point or an exponent, the point not far from
the front, and denotes the decimal's value. -/
structure Writes (n : JsonNumber) (negative : Bool) (d : Decimal) : Prop where
  negative_eq : n.negative = negative
  wellFormed : n.WellFormed
  not_integer : n.isIntegerLiteral = false
  value_eq : n.decimal.value = d.value
  whole_lt : Nat.ofDigitChars 10 n.whole 0 < twoPow 64
  exponent_le : ∀ digits, n.exponent = some (false, digits) →
    (10 : ℚ) ^ Nat.ofDigitChars 10 digits 0 ≤ d.value

theorem whole_lt_of_length {whole : List Char} (h : AllDigits whole) (hLength : whole.length ≤ 16) :
    Nat.ofDigitChars 10 whole 0 < twoPow 64 :=
  (ofDigitChars_lt h).trans_le ((Nat.pow_le_pow_right (by decide) hLength).trans (by decide))

/-- The digits of a positive number begin with another digit than zero, also if some are cut off or
added behind them. -/
theorem head?_decimal {c : Nat} (hPos : c ≠ 0) {whole : List Char}
    (hFront : whole.head? = (Text.decimal c).head?) : whole.head? ≠ some '0' := by
  rw [hFront]
  exact decimal_head hPos

theorem head?_take_decimal {c p : Nat} (hPos : c ≠ 0) (hp : 0 < p) :
    ((Text.decimal c).take p).head? ≠ some '0' := by
  refine head?_decimal hPos ?_
  rw [List.head?_take, if_neg (Nat.ne_of_gt hp)]

/-- A zero before the point and one behind it. -/
theorem writes_zero (negative : Bool) : Writes ⟨negative, ['0'], ['0'], none⟩ negative ⟨0, 0⟩ := by
  have hDigits : Nat.ofDigitChars 10 ['0', '0'] 0 = 0 := rfl
  refine ⟨rfl, ⟨allDigits_zeros 1, List.cons_ne_nil _ _, .inl rfl, allDigits_zeros 1, nofun⟩, rfl,
    ?_, twoPow_pos 64, nofun⟩
  simp only [Decimal.value, decimal, significand, List.cons_append, List.nil_append, hDigits,
    Nat.cast_zero, zero_mul]

/-- Zeros behind the digits, and one behind the point. -/
theorem writes_zeros_behind {c k : Nat} (hPos : c ≠ 0) (negative : Bool)
    (hShort : (Text.decimal c).length + k ≤ 16) :
    Writes ⟨negative, Text.decimal c ++ List.replicate k '0', ['0'], none⟩ negative ⟨c, k⟩ := by
  have hDigits := (allDigits_decimal c).append (allDigits_zeros k)
  have hNonempty := decimal_ne_nil c
  refine ⟨rfl, ⟨hDigits, ?_, .inr (head?_decimal hPos ?_), allDigits_zeros 1, nofun⟩, rfl, ?_,
    whole_lt_of_length hDigits ?_, nofun⟩
  · exact fun h => hNonempty (List.append_eq_nil_iff.mp h).1
  · obtain ⟨digit, digits, hCons⟩ := List.exists_cons_of_ne_nil hNonempty
    rw [hCons]
    rfl
  · have hSignificand : Nat.ofDigitChars 10 (Text.decimal c ++ List.replicate k '0' ++ ['0']) 0 =
        10 ^ 1 * (10 ^ k * c) := by
      rw [Nat.ofDigitChars_append, Nat.ofDigitChars_append, ofDigitChars_decimal,
        Nat.ofDigitChars_replicate_zero]
      exact Nat.ofDigitChars_replicate_zero (n := 1)
    show ((Nat.ofDigitChars 10 (Text.decimal c ++ List.replicate k '0' ++ ['0']) 0 : Nat) : ℚ) *
      10 ^ (0 - 1 : Int) = c * 10 ^ (k : Int)
    rw [hSignificand, zpow_natCast]
    push_cast
    norm_num
    ring
  · rw [List.length_append, List.length_replicate]
    exact hShort

/-- The point among the digits. -/
theorem writes_inside {c p : Nat} (hPos : c ≠ 0) (negative : Bool) (hp : 0 < p) (hShort : p ≤ 16)
    (hInside : p < (Text.decimal c).length) :
    Writes ⟨negative, (Text.decimal c).take p, (Text.decimal c).drop p, none⟩ negative
      ⟨c, p - (Text.decimal c).length⟩ := by
  have hDigits := allDigits_decimal c
  have hWhole : AllDigits ((Text.decimal c).take p) :=
    fun d hd => hDigits d (List.mem_of_mem_take hd)
  have hLength : ((Text.decimal c).take p).length = p := by
    rw [List.length_take, Nat.min_eq_left hInside.le]
  have hFraction : (Text.decimal c).drop p ≠ [] := by
    rw [ne_eq, List.drop_eq_nil_iff]
    omega
  refine ⟨rfl, ⟨hWhole, ?_, .inr (head?_take_decimal hPos hp),
    fun d hd => hDigits d (List.mem_of_mem_drop hd), nofun⟩, ?_, ?_,
    whole_lt_of_length hWhole (hLength.trans_le hShort), nofun⟩
  · exact fun h => hp.ne' (hLength.symm.trans (congrArg List.length h))
  · rw [isIntegerLiteral, List.isEmpty_eq_false_iff.mpr hFraction, Bool.false_and]
  · have hDecimal : (⟨negative, (Text.decimal c).take p, (Text.decimal c).drop p, none⟩ :
        JsonNumber).decimal = ⟨c, p - (Text.decimal c).length⟩ := by
      rw [decimal, significand, power, exponentValue_of_none rfl, List.take_append_drop,
        ofDigitChars_decimal, List.length_drop]
      congr 1
      omega
    rw [hDecimal]

/-- Zeros before the digits. -/
theorem writes_zeros_before (c : Nat) (negative : Bool) (k : Nat) :
    Writes ⟨negative, ['0'], List.replicate k '0' ++ Text.decimal c, none⟩ negative
      ⟨c, -(k + (Text.decimal c).length : Nat)⟩ := by
  have hFraction : List.replicate k '0' ++ Text.decimal c ≠ [] :=
    fun h => decimal_ne_nil c (List.append_eq_nil_iff.mp h).2
  refine ⟨rfl, ⟨allDigits_zeros 1, List.cons_ne_nil _ _, .inl rfl,
    (allDigits_zeros k).append (allDigits_decimal c), nofun⟩, ?_, ?_,
    whole_lt_of_length (allDigits_zeros 1) (Nat.le_add_left 1 15), nofun⟩
  · rw [isIntegerLiteral, List.isEmpty_eq_false_iff.mpr hFraction, Bool.false_and]
  · have hZeros : ['0'] ++ (List.replicate k '0' ++ Text.decimal c) =
        List.replicate (k + 1) '0' ++ Text.decimal c := rfl
    have hDecimal : (⟨negative, ['0'], List.replicate k '0' ++ Text.decimal c, none⟩ :
        JsonNumber).decimal = ⟨c, -(k + (Text.decimal c).length : Nat)⟩ := by
      rw [decimal, significand, power, exponentValue_of_none rfl, hZeros, Nat.ofDigitChars_append,
        Nat.ofDigitChars_replicate_zero, Nat.mul_zero, ofDigitChars_decimal, List.length_append,
        List.length_replicate]
      congr 1
      omega
    rw [hDecimal]

/-- One digit before the point, and an exponent. -/
theorem writes_exponent {c : Nat} (hPos : c ≠ 0) (negative : Bool) (point : Int) :
    Writes ⟨negative, (Text.decimal c).take 1, (Text.decimal c).drop 1,
      some (point ≤ 0, Text.decimal (point - 1).natAbs)⟩ negative
      ⟨c, point - (Text.decimal c).length⟩ := by
  have hDigits := allDigits_decimal c
  have hWhole : AllDigits ((Text.decimal c).take 1) :=
    fun d hd => hDigits d (List.mem_of_mem_take hd)
  have hLong : 0 < (Text.decimal c).length := List.length_pos_iff.mpr (decimal_ne_nil c)
  have hLength : ((Text.decimal c).take 1).length = 1 := by
    rw [List.length_take, Nat.min_eq_left hLong]
  refine ⟨rfl, ⟨hWhole, ?_, .inr (head?_take_decimal hPos Nat.one_pos),
    fun d hd => hDigits d (List.mem_of_mem_drop hd), ?_⟩, ?_, ?_,
    whole_lt_of_length hWhole (hLength.trans_le (by decide)), ?_⟩
  · exact fun h => Nat.one_ne_zero (hLength.symm.trans (congrArg List.length h))
  · rintro _ _ hExponent
    obtain ⟨-, rfl⟩ := Prod.mk.inj (Option.some.inj hExponent)
    exact ⟨allDigits_decimal _, decimal_ne_nil _⟩
  · exact Bool.and_false _
  · have hDecimal : (⟨negative, (Text.decimal c).take 1, (Text.decimal c).drop 1,
        some (point ≤ 0, Text.decimal (point - 1).natAbs)⟩ : JsonNumber).decimal =
          ⟨c, point - (Text.decimal c).length⟩ := by
      rw [decimal, significand, power, exponentValue_of_some rfl, List.take_append_drop,
        ofDigitChars_decimal, ofDigitChars_decimal, List.length_drop]
      congr 1
      by_cases hSign : point ≤ 0
      · rw [decide_eq_true hSign, if_pos rfl]
        omega
      · rw [decide_eq_false hSign, if_neg Bool.false_ne_true]
        omega
    rw [hDecimal]
  · intro digits hExponent
    obtain ⟨hSign, rfl⟩ := Prod.mk.inj (Option.some.inj hExponent)
    have hUp : ¬ point ≤ 0 := of_decide_eq_false hSign
    rw [ofDigitChars_decimal]
    -- The digits stand for at least the power of ten of the first of them.
    have hFirst : (10 : ℚ) ^ ((Text.decimal c).length - 1) ≤ c := by exact_mod_cast ten_pow_le_decimal hPos
    have hPower : (10 : ℚ) ^ (point - 1).natAbs = 10 ^ ((Text.decimal c).length - 1) *
        10 ^ (point - (Text.decimal c).length) := by
      rw [← zpow_natCast, ← zpow_natCast, ← zpow_add₀ (by norm_num)]
      congr 1
      omega
    rw [hPower]
    exact mul_le_mul_of_nonneg_right hFirst (by positivity)

/-- **The number that is written for a positive decimal** denotes its value. -/
theorem ofDecimal_writes (f : FloatWidth) (negative : Bool) {c : Nat} (e : Int) (hPos : c ≠ 0) :
    (ofDecimal f negative ⟨c, e⟩).Writes negative ⟨c, e⟩ := by
  have hMost : (positionalRange f).2 ≤ 16 := by cases f <;> decide
  unfold ofDecimal
  simp only
  split
  · next h =>
      obtain ⟨k, rfl⟩ := Int.eq_ofNat_of_zero_le h.1
      rw [Int.toNat_natCast]
      exact writes_zeros_behind hPos negative (by omega)
  · next hDown =>
      split
      · next hInside =>
          obtain ⟨p, hp⟩ := Int.eq_ofNat_of_zero_le hInside.1.le
          obtain rfl : e = p - (Text.decimal c).length := by omega
          rw [hp, Int.toNat_natCast]
          exact writes_inside hPos negative (by omega) (by omega) (by omega)
      · split
        · next hBefore =>
            obtain ⟨k, hk⟩ := Int.eq_ofNat_of_zero_le (Int.neg_nonneg_of_nonpos hBefore.2)
            obtain rfl : e = -(k + (Text.decimal c).length : Nat) := by omega
            rw [hk, Int.toNat_natCast]
            exact writes_zeros_before c negative k
        · have hWrites := writes_exponent hPos negative ((Text.decimal c).length + e)
          rw [add_sub_cancel_left] at hWrites
          exact hWrites

end WidthExact.JsonNumber
