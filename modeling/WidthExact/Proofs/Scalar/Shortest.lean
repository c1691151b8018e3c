import WidthExact.Proofs.Binary.Format
import WidthExact.Proofs.Decimal.Shortest
import WidthExact.Proofs.Scalar.Float

/-!
# Written floating-point values are shortest

What is written for a finite value other than zero, and that no shorter numeral will do. The digits
that count are the significant ones: those from the first to the last digit that is not a zero. A
numeral denotes the number of its significant digits at some power of ten, wherever its point stands
and whatever its exponent, so that all numerals with so many digits are decimals with such a
coefficient.

## Main results

* `Numeral.exists_value_significant` — a numeral is its significant digits at some power of ten.
* `Numeral.exists_displayed` — what is written for a decimal.
* `Numeral.length_significant_le` — no numeral that rounds to a pattern has fewer significant digits.
* `Scalar.text_shortest` — floating-point values.
-/

namespace WidthExact

open Text

variable {f : FloatWidth}

namespace Numeral

variable {n m : Numeral}

/-! ## Significant digits -/

/-- The digits without the zeros in front of all others and behind them, wherever the point is. -/
def significant (n : Numeral) : List Char := Text.significant (n.whole ++ n.places)

theorem WellFormed.significant (h : n.WellFormed) : AllDigits n.significant :=
  (h.whole.append h.places).significant

/-- The number of the significant digits, at a power of ten. -/
theorem exists_value_significant (n : Numeral) : ∃ e : Int,
    n.decimal.value = (⟨Nat.ofDigitChars 10 n.significant 0, e⟩ : Decimal).value := by
  obtain ⟨back, hBack⟩ := exists_ofDigitChars_significant (n.whole ++ n.places)
  refine ⟨n.exponentValue - n.places.length + back, ?_⟩
  rw [decimal, hBack, Decimal.value_zeros]
  rfl

/-- **No numeral that rounds to a pattern has fewer significant digits** than one that denotes the
shortest decimal. -/
theorem length_significant_le {tie : Tie} {k : Nat} (hPos : k ≠ 0) (hFinite : k < f.infinity)
    (hn : n.WellFormed) (hm : m.WellFormed)
    (hShortest : n.decimal.value = (Decimal.shortest f tie k).value)
    (hRounds : m.decimal.nearest f = k) : n.significant.length ≤ m.significant.length := by
  obtain ⟨e, hValue⟩ := n.exists_value_significant
  obtain ⟨e', hValue'⟩ := m.exists_value_significant
  have hAbove : (Decimal.shortest f tie k).coefficient < 10 ^ m.significant.length :=
    Decimal.coefficient_shortest_lt hPos hFinite (ofDigitChars_lt hm.significant)
      ((Decimal.nearest_congr hValue').symm.trans hRounds)
  by_cases hNone : n.significant = []
  · rw [hNone]
    exact Nat.zero_le _
  · have hLast : Nat.ofDigitChars 10 n.significant 0 % 10 ≠ 0 :=
      mt (ofDigitChars_mod_ten_eq_zero_iff hn.significant hNone).mp (getLast?_significant _)
    have hLeast := Decimal.coefficient_le
      (d := ⟨Nat.ofDigitChars 10 n.significant 0, e⟩) hLast (hValue.symm.trans hShortest)
    have hDigits := ten_pow_le_ofDigitChars hn.significant hNone (head?_significant _)
    have hLess := (Nat.pow_lt_pow_iff_right (by decide)).mp ((hDigits.trans hLeast).trans_lt hAbove)
    omega

/-! ## Display -/

/-- A numeral as numbers are displayed: without an exponent, with a digit before the point, and with
no point or zero at the end of a fraction. -/
structure Displayed (n : Numeral) : Prop where
  wellFormed : n.WellFormed
  whole : n.whole ≠ []
  exponent : n.exponent = none
  fraction : ∀ digits, n.fraction = some digits → digits ≠ [] ∧ digits.getLast? ≠ some '0'

/-- What is written for a decimal whose coefficient has no zeros at its end. -/
theorem exists_displayed {d : Decimal} (hLast : d.coefficient % 10 ≠ 0) :
    ∃ n : Numeral, n.Displayed ∧ d.positional = n.text ∧ n.decimal.value = d.value := by
  rcases d.positional_form with
    ⟨digits, hDigits, hNonempty, hText, hValue⟩ |
      ⟨whole, fraction, hWhole, hFraction, hNonempty, hPlaces, hText, hEq⟩
  · refine ⟨⟨digits, none, none⟩, ⟨⟨hDigits, nofun, ?_, nofun⟩, hNonempty, rfl, nofun⟩, ?_, ?_⟩
    · exact fun h => hNonempty (List.append_eq_nil_iff.mp h).1
    · rw [hText]
      exact (List.append_nil digits).symm
    · show ((Nat.ofDigitChars 10 (digits ++ []) 0 : Nat) : ℚ) * 10 ^ (0 - 0 : Int) = _
      rw [hValue, List.append_nil, sub_zero, zpow_zero, mul_one]
  · have hDecimal : (⟨whole, some fraction, none⟩ : Numeral).decimal = d := by
      rw [hEq, ← Int.zero_sub]
      rfl
    refine ⟨⟨whole, some fraction, none⟩,
      ⟨⟨hWhole, hFraction, ?_, nofun⟩, hNonempty, rfl, ?_⟩, ?_, congrArg Decimal.value hDecimal⟩
    · exact fun h => hNonempty (List.append_eq_nil_iff.mp h).1
    · rintro _ ⟨⟩
      have hAll := hWhole.append hFraction
      have hSome : whole ++ fraction ≠ [] := fun h => hNonempty (List.append_eq_nil_iff.mp h).1
      refine ⟨hPlaces, fun hZero => hLast ?_⟩
      rw [hEq]
      refine (ofDigitChars_mod_ten_eq_zero_iff hAll hSome).mpr ?_
      rw [List.getLast?_append_of_ne_nil whole hPlaces, hZero]
    · rw [hText]
      exact congrArg (whole ++ ·) (List.append_nil _).symm

end Numeral

namespace Binary

variable {x : Binary f}

theorem text_of_isFinite (hFinite : x.isFinite = true) (hNonzero : x.isZero = false) :
    x.text = (if x.isNegative then ['-'] else []) ++
      (Decimal.shortest f .up x.magnitude).positional := by
  have hInfinite := isInfinite_of_isFinite hFinite
  rw [text, isNaN_of_isFinite hFinite, if_neg Bool.false_ne_true, magnitudeText, hInfinite,
    if_neg Bool.false_ne_true, hNonzero, if_neg Bool.false_ne_true]
  cases x.isNegative <;> rfl

/-- What a numeral is read as has the pattern that the numeral rounds to. -/
theorem nearest_of_read {m : Numeral} {negative : Bool}
    (h : (FloatMagnitude.number m).read negative = x) : m.decimal.nearest f = x.magnitude := by
  rw [← h, FloatMagnitude.read, ofDecimal,
    magnitude_ofMagnitude _ (Decimal.nearest_roundsTo (f := f) _).le_infinity]

end Binary

namespace Scalar

/-- What is read as a value is a numeral that rounds to its pattern. -/
theorem wellFormed_of_parse {x : Binary f} {sign : WrittenSign} {m : Numeral} {text : String}
    (hSpelled : FloatLiteral.Spelled ⟨sign, .number m⟩ text.toList)
    (hParse : parse (.float f) text = .ok (float f x)) :
    m.WellFormed ∧ m.decimal.nearest f = x.magnitude := by
  have hForm : m.WellFormed := by
    obtain ⟨-, -, -, -, ⟨hForm, -⟩, -⟩ := hSpelled
    exact hForm
  rw [parse_spelled hSpelled] at hParse
  injection Except.ok.inj hParse with _ hRead
  exact ⟨hForm, Binary.nearest_of_read hRead⟩

/-- **A floating-point value is written as short as can be.** What is written for a finite value other
than zero is, before its type, a minus sign if the value is negative, and digits with at most one point
among them; there is no exponent, and no point or zero at the end of a fraction. It is read as the
value. No numeral with fewer significant digits is, with any sign, exponent and white space. -/
theorem text_shortest {x : Binary f} (hFinite : x.isFinite = true) (hNonzero : x.isZero = false) :
    ∃ (n : Numeral) (body : String), n.Displayed ∧
      body.toList = (if x.isNegative then ['-'] else []) ++ n.text ∧
      (float f x).text = body ++ f.text ∧
      parse (.float f) body = .ok (float f x) ∧
      ∀ (sign : WrittenSign) (m : Numeral) (text : String),
        FloatLiteral.Spelled ⟨sign, .number m⟩ text.toList →
        m.significant.length < n.significant.length →
        parse (.float f) text ≠ .ok (float f x) := by
  have hPos : x.magnitude ≠ 0 := of_decide_eq_false hNonzero
  have hLt : x.magnitude < f.infinity := of_decide_eq_true hFinite
  have hLast : (Decimal.shortest f .up x.magnitude).coefficient % 10 ≠ 0 :=
    Decimal.coefficient_shortest_mod hPos hLt
  obtain ⟨n, hDisplayed, hText, hValue⟩ := Numeral.exists_displayed hLast
  have hLiteral := Binary.text_of_isFinite hFinite hNonzero
  rw [hText] at hLiteral
  have hWhole : (float f x).text = String.ofList x.text ++ String.ofList (float f x).suffix :=
    String.ofList_append
  have hType : String.ofList (float f x).suffix = f.text := String.ofList_toList
  have hParse := ((parse_text.1 (float f x) (String.ofList x.text) "" "" hWhole nofun nofun).1
    (Binary.isNaN_of_isFinite hFinite))
  rw [String.empty_append, String.append_empty] at hParse
  refine ⟨n, String.ofList x.text, hDisplayed, ?_, hType ▸ hWhole, hParse,
    fun sign m text hSpelled hFewer hRead => ?_⟩
  · rw [String.toList_ofList, hLiteral]
  · obtain ⟨hForm, hRounds⟩ := wellFormed_of_parse hSpelled hRead
    exact absurd (Numeral.length_significant_le hPos hLt hDisplayed.wellFormed hForm hValue hRounds)
      (not_le.mpr hFewer)

/-- The value next to minus one third in the narrow format. -/
theorem text_shortest_third : ∃ (n : Numeral) (body : String), n.Displayed ∧
    body.toList = '-' :: n.text ∧ (float .f32 ⟨0xbeaaaaab#32⟩).text = body ++ "f32" ∧
    ∀ (sign : WrittenSign) (m : Numeral) (text : String),
      FloatLiteral.Spelled ⟨sign, .number m⟩ text.toList →
      m.significant.length < n.significant.length →
      parse (.float .f32) text ≠ .ok (float .f32 ⟨0xbeaaaaab#32⟩) := by
  obtain ⟨n, body, hDisplayed, hBody, hText, -, hShortest⟩ :=
    text_shortest (x := (⟨0xbeaaaaab#32⟩ : Binary .f32)) (by decide) (by decide)
  exact ⟨n, body, hDisplayed, hBody, hText, hShortest⟩

/-- It takes eight digits. -/
example : (float .f32 ⟨0xbeaaaaab#32⟩).text = "-0.33333334f32" ∧
    parse (.float .f32) "-0.33333334" = .ok (float .f32 ⟨0xbeaaaaab#32⟩) ∧
    parse (.float .f32) "-3333333e-7" ≠ .ok (float .f32 ⟨0xbeaaaaab#32⟩) := by decide +kernel

end Scalar

end WidthExact
