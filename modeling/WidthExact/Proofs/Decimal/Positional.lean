import WidthExact.Decimal.Numeral
import WidthExact.Proofs.Decimal.Value
import WidthExact.Proofs.Text.Digits

/-!
# Positional numerals

A decimal that is written positionally reads back as a decimal of the same value. It need not be the
same decimal: the zeros behind a whole number become digits of its coefficient.

## Main results

* `Decimal.read?_whole`, `Decimal.read?_pointed` — numerals without an exponent.
* `Decimal.read?_positional` — the round trip.
-/

namespace WidthExact

namespace Decimal

open Text

/-! ## Reading numerals without an exponent -/

/-- Digits without a point. -/
theorem read?_whole {digits : List Char} (hDigits : AllDigits digits) (hNonempty : digits ≠ []) :
    read? digits = some ⟨Nat.ofDigitChars 10 digits 0, 0⟩ := by
  simp only [read?, span_allDigits hDigits, spanFraction, List.append_nil,
    readDecimal?_of_allDigits hDigits hNonempty, Option.bind_some, readExponent?, Option.map_some,
    List.length_nil]
  rfl

/-- Digits with a point among, before or behind them. -/
theorem read?_pointed {whole fraction : List Char} (hWhole : AllDigits whole)
    (hFraction : AllDigits fraction) (hNonempty : whole ++ fraction ≠ []) :
    read? (whole ++ '.' :: fraction) =
      some ⟨Nat.ofDigitChars 10 (whole ++ fraction) 0, -fraction.length⟩ := by
  have hSpan : (whole ++ '.' :: fraction).span Char.isDigit = (whole, '.' :: fraction) :=
    span_digits hWhole rfl
  simp only [read?, hSpan, spanFraction, span_allDigits hFraction,
    readDecimal?_of_allDigits (hWhole.append hFraction) hNonempty, Option.bind_some, readExponent?,
    Option.map_some, Int.zero_sub]

/-! ## Writing -/

/-- The form that a decimal is written in: digits, with a point among them or none. -/
theorem positional_form (d : Decimal) :
    (∃ digits, AllDigits digits ∧ digits ≠ [] ∧ d.positional = digits ∧
      d.value = Nat.ofDigitChars 10 digits 0) ∨
    ∃ whole fraction, AllDigits whole ∧ AllDigits fraction ∧ whole ≠ [] ∧ fraction ≠ [] ∧
      d.positional = whole ++ '.' :: fraction ∧
      d = ⟨Nat.ofDigitChars 10 (whole ++ fraction) 0, -fraction.length⟩ := by
  have hDigits := allDigits_decimal d.coefficient
  have hNonempty := decimal_ne_nil d.coefficient
  have hNumber := ofDigitChars_decimal d.coefficient
  unfold positional
  simp only
  generalize decimal d.coefficient = digits at *
  obtain ⟨coefficient, exponent⟩ := d
  by_cases hWhole : 0 ≤ exponent
  · -- Zeros behind the digits.
    rw [if_pos hWhole]
    refine Or.inl ⟨_, hDigits.append (allDigits_zeros _), ?_, rfl, ?_⟩
    · exact fun h => hNonempty (List.append_eq_nil_iff.mp h).1
    · rw [Nat.ofDigitChars_append, hNumber, Nat.ofDigitChars_replicate_zero, value]
      obtain ⟨n, rfl⟩ := Int.eq_ofNat_of_zero_le hWhole
      push_cast
      rw [Int.toNat_natCast, zpow_natCast]
      ring
  · rw [if_neg hWhole]
    obtain ⟨places, rfl⟩ : ∃ places : Nat, exponent = -places := ⟨(-exponent).toNat, by omega⟩
    rw [Int.neg_neg, Int.toNat_natCast]
    by_cases hInside : places < digits.length
    · -- The point stands among the digits.
      rw [if_pos hInside]
      refine Or.inr ⟨_, _, fun c hc => hDigits c (List.mem_of_mem_take hc),
        fun c hc => hDigits c (List.mem_of_mem_drop hc), ?_, ?_, rfl, ?_⟩
      · intro hNil
        have hLength := congrArg List.length hNil
        rw [List.length_take, List.length_nil] at hLength
        omega
      · rw [ne_eq, List.drop_eq_nil_iff]
        omega
      · rw [List.take_append_drop, hNumber, List.length_drop, Nat.sub_sub_self (by omega)]
    · -- The point and zeros stand before the digits.
      rw [if_neg hInside]
      refine Or.inr ⟨['0'], List.replicate (places - digits.length) '0' ++ digits,
        allDigits_zeros 1, (allDigits_zeros _).append hDigits, List.cons_ne_nil _ _,
        List.append_ne_nil_of_right_ne_nil _ hNonempty, rfl, ?_⟩
      have hLength : (List.replicate (places - digits.length) '0' ++ digits).length = places := by
        rw [List.length_append, List.length_replicate]
        omega
      have hZeros : ['0'] ++ (List.replicate (places - digits.length) '0' ++ digits) =
          List.replicate (places - digits.length + 1) '0' ++ digits := rfl
      rw [hLength, hZeros, Nat.ofDigitChars_append, Nat.ofDigitChars_replicate_zero, Nat.mul_zero,
        hNumber]

/-- **A written decimal reads back**, as a decimal of the same value. -/
theorem read?_positional (d : Decimal) : ∃ d', read? d.positional = some d' ∧ d'.value = d.value := by
  rcases d.positional_form with
    ⟨digits, hDigits, hNonempty, hText, hValue⟩ |
      ⟨whole, fraction, hWhole, hFraction, hNonempty, -, hText, hEq⟩
  · refine ⟨⟨Nat.ofDigitChars 10 digits 0, 0⟩, ?_, ?_⟩
    · rw [hText, read?_whole hDigits hNonempty]
    · rw [hValue, value, zpow_zero, mul_one]
  · have hRead := read?_pointed hWhole hFraction (fun h => hNonempty (List.append_eq_nil_iff.mp h).1)
    refine ⟨d, ?_, rfl⟩
    rw [hText, hRead, ← hEq]

/-- A written decimal begins with a digit. -/
theorem exists_digit_cons_positional (d : Decimal) :
    ∃ c rest, d.positional = c :: rest ∧ c.isDigit = true := by
  rcases d.positional_form with
    ⟨digits, hDigits, hNonempty, hText, -⟩ | ⟨whole, fraction, hWhole, -, hNonempty, -, hText, -⟩
  · obtain ⟨c, rest, rfl⟩ := List.exists_cons_of_ne_nil hNonempty
    exact ⟨c, rest, hText, hDigits c List.mem_cons_self⟩
  · obtain ⟨c, rest, rfl⟩ := List.exists_cons_of_ne_nil hNonempty
    exact ⟨c, rest ++ '.' :: fraction, hText, hWhole c List.mem_cons_self⟩

theorem noBlank_positional (d : Decimal) : NoBlank d.positional := by
  rcases d.positional_form with
    ⟨digits, hDigits, -, hText, -⟩ | ⟨whole, fraction, hWhole, hFraction, -, -, hText, -⟩
  · rw [hText]
    exact hDigits.noBlank
  · rw [hText]
    exact hWhole.noBlank.append (.cons (by decide) hFraction.noBlank)

end Decimal

end WidthExact
