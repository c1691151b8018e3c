import WidthExact.Proofs.Scalar.Numeral
import WidthExact.Proofs.Scalar.Zero

/-!
# Integer literals

The texts that are integer literals, and what each of them denotes. Digits behind a sign, or behind
none, are decimal, and write a number in the signed range of the width. Digits behind `0x`, perhaps
with a plus sign between, are hexadecimal, and write the pattern of a word. There is white space around
a literal, but not in it.

A literal is read by its number alone: zeros in front of the digits do not matter, and a number out of
range is not reduced into it.

## Main results

* `IntLead.read_eq_some_iff` — the words that numbers are read as.
* `Word.read?_text_of_wellFormed`, `Word.exists_literal_of_read?` — the reader accepts the literals.
* `IntLookalike.not_wellFormed` — texts that are close to literals and are none.
* `Scalar.parse_int` — with white space around them, and with the error.
-/

namespace WidthExact

open Text

/-! ## Literals -/

/-- What stands before the digits of an integer literal: a sign or none, or the mark of hexadecimal
digits. The mark has its letter in either case and may end in a plus sign. -/
inductive IntLead where
  | sign (sign : WrittenSign)
  | mark (capital plus : Bool)

namespace IntLead

/-- The letter of a mark. -/
def letter (capital : Bool) : Char := if capital then 'X' else 'x'

/-- The plus sign behind a mark, or nothing. -/
def plusText (plus : Bool) : List Char := if plus then ['+'] else []

/-- The characters. -/
def text : IntLead → List Char
  | sign s => s.text
  | mark capital plus => '0' :: letter capital :: plusText plus

/-- The base of the digits. -/
def base : IntLead → Nat
  | sign _ => 10
  | mark _ _ => 16

/-- Whether there is a literal of the width whose digits write `n`: a decimal one must lie in the signed
range, and a hexadecimal one must be a pattern of the width. -/
def InRange (w : IntWidth) (n : Nat) : IntLead → Prop
  | sign s => -2 ^ (w.bits - 1) ≤ s.apply n ∧ s.apply n ≤ 2 ^ (w.bits - 1) - 1
  | mark _ _ => n < 2 ^ w.bits

instance (w : IntWidth) (n : Nat) : (lead : IntLead) → Decidable (lead.InRange w n)
  | sign _ => inferInstanceAs (Decidable (_ ∧ _))
  | mark _ _ => inferInstanceAs (Decidable (_ < _))

/-- The integer that is denoted: the number with its sign, or the two's-complement reading of the
pattern. -/
def value (w : IntWidth) (n : Nat) : IntLead → Int
  | sign s => s.apply n
  | mark _ _ => if 2 * n < 2 ^ w.bits then n else n - 2 ^ w.bits

/-- What digits of the number `n` are read as. -/
def read {w : IntWidth} (n : Nat) : IntLead → Option (Word w)
  | sign s => Word.exactly? (s.apply n)
  | mark _ _ => ((some n).filter (· < twoPow w.bits)).map Word.ofUnsigned

end IntLead

/-- An integer literal: digits, and what stands before them. -/
structure IntLiteral where
  lead : IntLead
  digits : List Char

namespace IntLiteral

variable (l : IntLiteral)

/-- The characters of a literal. -/
def text : List Char := l.lead.text ++ l.digits

/-- There are digits to the base only, and at least one. -/
def WellFormed : Prop := DigitsTo l.lead.base l.digits

instance : Decidable l.WellFormed := inferInstanceAs (Decidable (DigitsTo _ _))

/-- The number that the digits write. -/
def number : Nat := positionalValue l.lead.base l.digits

/-- Whether the number has a word of the width. -/
def InRange (w : IntWidth) : Prop := l.lead.InRange w l.number

instance (w : IntWidth) : Decidable (l.InRange w) := inferInstanceAs (Decidable (l.lead.InRange w _))

/-- What a literal of the width denotes. -/
def value (w : IntWidth) : Int := l.lead.value w l.number

/-- The texts of a literal, with white space around it. -/
def Spelled (text : List Char) : Prop :=
  l.WellFormed ∧ ∃ before after, AllBlank before ∧ AllBlank after ∧ text = before ++ l.text ++ after

/-- The literal with zeros in front of its digits. -/
def pad (zeros : Nat) : IntLiteral := { l with digits := List.replicate zeros '0' ++ l.digits }

theorem number_pad (zeros : Nat) : (l.pad zeros).number = l.number :=
  positionalValue_zeros zeros

end IntLiteral

/-! ## Characters of literals -/

theorem IntLead.base_le (lead : IntLead) : lead.base ≤ 16 := by
  cases lead with
  | sign _ => exact (by decide : 10 ≤ 16)
  | mark _ _ => exact Nat.le_refl 16

theorem IntLead.ascii (lead : IntLead) : lead.text.all (·.toNat < 128) = true := by
  rcases lead with (_ | _ | _) | ⟨_ | _, _ | _⟩ <;> decide

namespace IntLiteral

variable {l : IntLiteral}

theorem WellFormed.digitValue_lt (h : l.WellFormed) {c : Char} (hc : c ∈ l.digits) :
    digitValue c < 16 :=
  (h.below c hc).trans_le l.lead.base_le

/-- A literal ends in a digit. -/
theorem WellFormed.exists_append_text (h : l.WellFormed) :
    ∃ front c, l.text = front ++ [c] ∧ digitValue c < 16 := by
  refine ⟨l.lead.text ++ l.digits.dropLast, l.digits.getLast h.nonempty, ?_,
    h.digitValue_lt (List.getLast_mem h.nonempty)⟩
  rw [List.append_assoc, List.dropLast_append_getLast, text]

/-- The characters of a literal that are no digits stand before its digits. -/
theorem WellFormed.not_mem_text (h : l.WellFormed) {c : Char} (hLead : c ∉ l.lead.text)
    (hDigit : l.lead.base ≤ digitValue c) : c ∉ l.text := by
  intro hc
  rcases List.mem_append.mp hc with hc | hc
  · exact hLead hc
  · exact absurd (h.below c hc) (Nat.not_lt.mpr hDigit)

theorem WellFormed.noBlank_text (h : l.WellFormed) : NoBlank l.text := by
  have hLead : NoBlank l.lead.text := by
    rcases l.lead with (_ | _ | _) | ⟨_ | _, _ | _⟩ <;> decide
  exact hLead.append fun c hc => isBlank_of_digitValue_lt (h.digitValue_lt hc)

/-- The letter of a mark tells a hexadecimal literal. -/
theorem WellFormed.exists_lead_eq_mark (h : l.WellFormed) {capital : Bool}
    (hLetter : IntLead.letter capital ∈ l.text) : ∃ capital plus, l.lead = .mark capital plus := by
  cases hLead : l.lead with
  | mark capital plus => exact ⟨capital, plus, rfl⟩
  | sign s =>
      have hDigit : 10 ≤ digitValue (IntLead.letter capital) := by cases capital <;> decide
      refine absurd hLetter (h.not_mem_text ?_ ?_) <;> rw [hLead]
      · cases s <;> cases capital <;> decide
      · exact hDigit

/-- A literal is what is left when the white space around it is taken off. -/
theorem spelled_iff {text : List Char} : l.Spelled text ↔ l.WellFormed ∧ trim text = l.text := by
  refine and_congr_right fun h => ⟨?_, fun hTrim => ?_⟩
  · rintro ⟨before, after, hBefore, hAfter, rfl⟩
    exact trim_around hBefore hAfter h.noBlank_text (List.append_ne_nil_of_right_ne_nil _ h.nonempty)
  · obtain ⟨before, after, hBefore, hAfter, hText⟩ := exists_around_trim text
    exact ⟨before, after, hBefore, hAfter, hTrim ▸ hText⟩

instance (l : IntLiteral) (text : List Char) : Decidable (l.Spelled text) :=
  decidable_of_iff _ spelled_iff.symm

end IntLiteral

/-! ## Texts that are no literals -/

/-- Texts that are close to integer literals. -/
inductive IntLookalike : List Char → Prop where
  /-- A sign or a mark, or nothing at all, without digits. -/
  | bare (lead : IntLead) : IntLookalike lead.text
  /-- A sign before the mark. -/
  | signBefore (sign : WrittenSign) (capital : Bool) (rest : List Char) (h : sign ≠ .none) :
      IntLookalike (sign.text ++ ((IntLead.mark capital false).text ++ rest))
  /-- A minus sign behind the mark. -/
  | minusBehind (capital : Bool) (rest : List Char) :
      IntLookalike ((IntLead.mark capital false).text ++ '-' :: rest)
  /-- White space within. -/
  | blank (text : List Char) (c : Char) (hMem : c ∈ text) (hBlank : isBlank c = true) :
      IntLookalike text
  /-- The type behind the literal. -/
  | typed (body : List Char) (w : IntWidth) : IntLookalike (body ++ w.text.toList)
  /-- A character outside of ASCII, which may be a digit elsewhere. -/
  | foreign (text : List Char) (c : Char) (hMem : c ∈ text) (hForeign : 128 ≤ c.toNat) :
      IntLookalike text

/-- No text of these is a literal. -/
theorem IntLookalike.not_wellFormed {l : IntLiteral} (hText : IntLookalike l.text) :
    ¬ l.WellFormed := by
  intro h
  generalize hEq : l.text = text at hText
  cases hText with
  | bare lead =>
      obtain ⟨front, c, hEnd, hDigit⟩ := h.exists_append_text
      have hLast : lead.text.getLast? = some c := by
        rw [← hEq, hEnd, List.getLast?_concat]
      -- the last character of a sign or a mark is no digit
      rcases lead with (_ | _ | _) | ⟨_ | _, _ | _⟩ <;> cases hLast <;>
        exact absurd hDigit (by decide)
  | signBefore s capital rest hSign =>
      have hLetter : IntLead.letter capital ∈ l.text := by
        rw [hEq]
        exact List.mem_append_right _ (List.mem_append_left _ (.tail _ (.head _)))
      obtain ⟨capital', plus, hLead⟩ := h.exists_lead_eq_mark hLetter
      rw [IntLiteral.text, hLead] at hEq
      -- the text begins with the sign, and the literal with a zero
      cases s with
      | none => exact hSign rfl
      | plus => exact absurd (List.cons.inj hEq).1 (by decide)
      | minus => exact absurd (List.cons.inj hEq).1 (by decide)
  | minusBehind capital rest =>
      have hLetter : IntLead.letter capital ∈ l.text := by
        rw [hEq]
        exact List.mem_append_left _ (.tail _ (.head _))
      obtain ⟨capital', plus, hLead⟩ := h.exists_lead_eq_mark hLetter
      rw [IntLiteral.text, hLead] at hEq
      have hBehind : IntLead.plusText plus ++ l.digits = '-' :: rest :=
        (List.cons.inj (List.cons.inj hEq).2).2
      cases plus with
      | true => exact absurd (List.cons.inj hBehind).1 (by decide)
      | false =>
          have hMinus : '-' ∈ l.digits := by
            rw [show l.digits = '-' :: rest from hBehind]
            exact List.mem_cons_self
          exact absurd (h.digitValue_lt hMinus) (by decide)
  | blank _ c hMem hBlank =>
      have hNoBlank := h.noBlank_text c (hEq ▸ hMem)
      rw [hBlank] at hNoBlank
      cases hNoBlank
  | typed body w =>
      have hLetter : 'i' ∈ l.text := by
        rw [hEq]
        exact List.mem_append_right _ (by cases w <;> decide)
      refine h.not_mem_text ?_ (l.lead.base_le.trans (by decide)) hLetter
      rcases l.lead with (_ | _ | _) | ⟨_ | _, _ | _⟩ <;> decide
  | foreign _ c hMem hForeign =>
      refine h.not_mem_text ?_ ?_ (hEq ▸ hMem)
      · intro hLead
        have hAscii := of_decide_eq_true (List.all_eq_true.mp l.lead.ascii c hLead)
        omega
      · rw [digitValue_of_not_ascii hForeign]
        exact l.lead.base_le

/-! ## Reading literals -/

namespace Word

variable {w : IntWidth}

theorem ofSigned_eq_iff {n : Int} (hRange : -2 ^ (w.bits - 1) ≤ n ∧ n ≤ 2 ^ (w.bits - 1) - 1)
    {x : Word w} : ofSigned n = x ↔ x.signed = n := by
  have hPow := two_mul_two_pow_pred w
  rw [← signed_inj, signed_ofSigned (by omega) (by omega), eq_comm]

theorem ofUnsigned_eq_iff {n : Nat} (h : n < 2 ^ w.bits) {x : Word w} :
    ofUnsigned n = x ↔ x.signed = if 2 * n < 2 ^ w.bits then (n : Int) else n - 2 ^ w.bits := by
  rw [← signed_inj, (ofUnsigned n).signed_eq, unsigned_ofUnsigned h, eq_comm]

theorem exactly?_eq_some_iff {n : Int} {x : Word w} : exactly? n = some x ↔
    (-2 ^ (w.bits - 1) ≤ n ∧ n ≤ 2 ^ (w.bits - 1) - 1) ∧ x.signed = n := by
  have hPow : ((twoPow (w.bits - 1) : Nat) : Int) = 2 ^ (w.bits - 1) := Nat.cast_pow 2 _
  rw [exactly?, Option.ite_none_right_eq_some, Option.some_inj, hPow, ← Int.le_sub_one_iff]
  exact and_congr_right fun hRange => ofSigned_eq_iff hRange

end Word

/-- A number is read as the word that is denoted, if it is in range. -/
theorem IntLead.read_eq_some_iff {w : IntWidth} {lead : IntLead} {n : Nat} {x : Word w} :
    lead.read n = some x ↔ lead.InRange w n ∧ x.signed = lead.value w n := by
  cases lead with
  | sign s => exact Word.exactly?_eq_some_iff
  | mark capital plus =>
      rw [read, Option.map_eq_some_iff]
      simp only [Option.filter_eq_some_iff, Option.some.injEq, decide_eq_true_eq]
      constructor
      · rintro ⟨_, ⟨rfl, hRange⟩, hWord⟩
        exact ⟨hRange, (Word.ofUnsigned_eq_iff hRange).mp hWord⟩
      · rintro ⟨hRange, hSigned⟩
        exact ⟨n, ⟨rfl, hRange⟩, (Word.ofUnsigned_eq_iff hRange).mpr hSigned⟩

/-- And every number in range is the number of a word. -/
theorem IntLead.InRange.exists_read {w : IntWidth} {lead : IntLead} {n : Nat}
    (h : lead.InRange w n) : ∃ x : Word w, lead.read n = some x := by
  cases lead with
  | sign s => exact ⟨_, read_eq_some_iff.mpr ⟨h, (Word.ofSigned_eq_iff h).mp rfl⟩⟩
  | mark _ _ => exact ⟨_, read_eq_some_iff.mpr ⟨h, (Word.ofUnsigned_eq_iff h).mp rfl⟩⟩

namespace Word

variable {w : IntWidth}

/-- A plus sign in front of hexadecimal digits is skipped. -/
theorem readHex?_plusText {digits : List Char} (h : DigitsTo 16 digits) (plus : Bool) :
    (readHex? (IntLead.plusText plus ++ digits) : Option (Word w)) =
      ((some (positionalValue 16 digits)).filter (· < twoPow w.bits)).map ofUnsigned := by
  have hDigits : Text.readHex? digits = some (positionalValue 16 digits) :=
    readHex?_iff_digitsTo.mpr ⟨h, rfl⟩
  rw [← hDigits]
  cases plus with
  | true => rfl
  | false =>
      show readHex? digits = _
      unfold readHex?
      split
      · exact absurd (h.below '+' List.mem_cons_self) (by decide)
      · rfl

theorem exists_digits_of_readHex? {text : List Char} {x : Word w} (h : readHex? text = some x) :
    ∃ plus digits, DigitsTo 16 digits ∧ text = IntLead.plusText plus ++ digits := by
  have hDigits : ∀ {digits : List Char},
      ((Text.readHex? digits).filter (· < twoPow w.bits)).map ofUnsigned = some x →
        DigitsTo 16 digits := by
    intro digits hRead
    obtain ⟨n, hFilter, -⟩ := Option.map_eq_some_iff.mp hRead
    exact (readHex?_iff_digitsTo.mp (Option.filter_eq_some_iff.mp hFilter).1).1
  unfold readHex? at h
  split at h
  · next digits => exact ⟨true, digits, hDigits h, rfl⟩
  · exact ⟨false, text, hDigits h, rfl⟩

/-- A literal is read by its number. -/
theorem read?_text_of_wellFormed {l : IntLiteral} (h : l.WellFormed) :
    (read? l.text : Option (Word w)) = l.lead.read l.number := by
  obtain ⟨lead, digits⟩ := l
  cases lead with
  | sign s =>
      have hNoMark : ∀ capital, IntLead.letter capital ∉ (IntLiteral.mk (.sign s) digits).text := by
        intro capital hLetter
        obtain ⟨_, _, hLead⟩ := h.exists_lead_eq_mark hLetter
        cases hLead
      obtain ⟨hDigits, hNonempty⟩ := digitsTo_ten_iff.mp h
      have hInt : Decimal.readInt? (s.text ++ digits) =
          some (s.apply (Nat.ofDigitChars 10 digits 0)) :=
        Decimal.readInt?_eq_some_iff.mpr ⟨s, digits, hDigits, hNonempty, rfl, rfl⟩
      rw [read?_decimal (hNoMark false) (hNoMark true), IntLiteral.text, IntLead.text, hInt,
        ← positionalValue_ten hDigits]
      rfl
  | mark capital plus =>
      cases capital with
      | true => exact readHex?_plusText h plus
      | false => exact readHex?_plusText h plus

/-- Nothing else is read. -/
theorem exists_literal_of_read? {text : List Char} {x : Word w} (h : read? text = some x) :
    ∃ l : IntLiteral, l.WellFormed ∧ text = l.text := by
  unfold read? at h
  split at h
  · obtain ⟨plus, digits, hDigits, rfl⟩ := exists_digits_of_readHex? h
    exact ⟨⟨.mark false plus, digits⟩, hDigits, rfl⟩
  · obtain ⟨plus, digits, hDigits, rfl⟩ := exists_digits_of_readHex? h
    exact ⟨⟨.mark true plus, digits⟩, hDigits, rfl⟩
  · obtain ⟨n, hInt, -⟩ := Option.bind_eq_some_iff.mp h
    obtain ⟨s, digits, hDigits, hNonempty, hText, -⟩ := Decimal.readInt?_eq_some_iff.mp hInt
    exact ⟨⟨.sign s, digits⟩, digitsTo_ten_iff.mpr ⟨hDigits, hNonempty⟩, hText⟩

end Word

namespace Scalar

variable {w : IntWidth} {text : String}

/-- A literal is read at an integer type by its number. -/
theorem parse_spelled_int {l : IntLiteral} (h : l.Spelled text.toList) {s : Scalar} :
    parse (.int w) text = .ok s ↔ (l.lead.read l.number).map (int w) = some s := by
  obtain ⟨hForm, hTrim⟩ := IntLiteral.spelled_iff.mp h
  rw [parse_eq_ok_iff, read?, hTrim, Word.read?_text_of_wellFormed hForm]

theorem exists_parse_of_inRange {l : IntLiteral} (h : l.Spelled text.toList) (hRange : l.InRange w) :
    ∃ x : Word w, parse (.int w) text = .ok (.int w x) ∧ x.signed = l.value w := by
  obtain ⟨x, hRead⟩ := IntLead.InRange.exists_read hRange
  refine ⟨x, (parse_spelled_int h).mpr ?_, (IntLead.read_eq_some_iff.mp hRead).2⟩
  rw [hRead, Option.map_some]

/-- No number out of range is read. -/
theorem inRange_of_parse {l : IntLiteral} (h : l.Spelled text.toList) {s : Scalar}
    (hParse : parse (.int w) text = .ok s) : l.InRange w := by
  obtain ⟨x, hRead, -⟩ := Option.map_eq_some_iff.mp ((parse_spelled_int h).mp hParse)
  exact (IntLead.read_eq_some_iff.mp hRead).1

theorem exists_parse_int_iff : (∃ s, parse (.int w) text = .ok s) ↔
    ∃ l : IntLiteral, l.Spelled text.toList ∧ l.InRange w := by
  constructor
  · rintro ⟨s, hParse⟩
    obtain ⟨x, hRead, -⟩ := Option.map_eq_some_iff.mp (parse_eq_ok_iff.mp hParse)
    obtain ⟨l, hForm, hTrim⟩ := Word.exists_literal_of_read? hRead
    have hSpelled : l.Spelled text.toList := IntLiteral.spelled_iff.mpr ⟨hForm, hTrim⟩
    exact ⟨l, hSpelled, inRange_of_parse hSpelled hParse⟩
  · rintro ⟨l, hSpelled, hRange⟩
    obtain ⟨x, hParse, -⟩ := exists_parse_of_inRange hSpelled hRange
    exact ⟨_, hParse⟩

/-- **Integer literals are read by their grammar, with the right value.** A text is read at an integer
type if it is the text of a literal in range, and refused as it is otherwise. What a literal is read as
is what it denotes: the number with its sign, or the two's-complement reading of the pattern. A number
out of range is refused, whatever it is modulo the range; zeros in front of the digits make no
difference; and the texts that are close to literals are refused. -/
theorem parse_int (w : IntWidth) (text : String) :
    ((∃ s, parse (.int w) text = .ok s) ↔ ∃ l : IntLiteral, l.Spelled text.toList ∧ l.InRange w) ∧
      ((¬ ∃ l : IntLiteral, l.Spelled text.toList ∧ l.InRange w) →
        parse (.int w) text = .error (.invalidLiteral w.text text)) ∧
      (∀ l : IntLiteral, l.Spelled text.toList → l.InRange w →
        ∃ x : Word w, parse (.int w) text = .ok (.int w x) ∧ x.signed = l.value w) ∧
      (∀ l : IntLiteral, l.Spelled text.toList → ¬ l.InRange w →
        parse (.int w) text = .error (.invalidLiteral w.text text)) ∧
      (∀ (l : IntLiteral) (zeros : Nat) (text' : String), l.Spelled text.toList →
        (l.pad zeros).Spelled text'.toList →
          ∀ s, parse (.int w) text = .ok s ↔ parse (.int w) text' = .ok s) ∧
      (IntLookalike (trim text.toList) →
        parse (.int w) text = .error (.invalidLiteral w.text text)) := by
  have hRefused : (∀ s, parse (.int w) text ≠ .ok s) →
      parse (.int w) text = .error (.invalidLiteral w.text text) :=
    fun hNone => parse_eq_error_iff.mpr ⟨rfl, hNone⟩
  refine ⟨exists_parse_int_iff, fun hNone => hRefused fun s hParse => ?_,
    fun l hSpelled hRange => exists_parse_of_inRange hSpelled hRange,
    fun l hSpelled hRange => hRefused fun s hParse => hRange (inRange_of_parse hSpelled hParse),
    fun l zeros text' hSpelled hPadded s => ?_, fun hLookalike => hRefused fun s hParse => ?_⟩
  · exact hNone (exists_parse_int_iff.mp ⟨s, hParse⟩)
  · rw [parse_spelled_int hSpelled, parse_spelled_int hPadded, l.number_pad]
    rfl
  · obtain ⟨l, hSpelled, -⟩ := exists_parse_int_iff.mp ⟨s, hParse⟩
    obtain ⟨hForm, hTrim⟩ := IntLiteral.spelled_iff.mp hSpelled
    exact (hTrim ▸ hLookalike).not_wellFormed hForm

/-- At 8 bits: the least word, which has no positive counterpart; a pattern behind a plus sign, with
zeros and without; and a blank between digits. -/
theorem parse_int_byte :
    (∃ x : Word .w8, parse (.int .w8) "\t-128" = .ok (.int .w8 x) ∧ x.signed = -128) ∧
      parse (.int .w8) "128" = .error (.invalidLiteral "i8" "128") ∧
      (∃ x : Word .w8, parse (.int .w8) "0x+fF" = .ok (.int .w8 x) ∧ x.signed = -1) ∧
      (∀ s, parse (.int .w8) "0x+fF" = .ok s ↔ parse (.int .w8) "0x+000fF" = .ok s) ∧
      parse (.int .w8) "1 2 " = .error (.invalidLiteral "i8" "1 2 ") := by
  obtain ⟨-, -, hValue, -⟩ := parse_int .w8 "\t-128"
  obtain ⟨-, -, -, hNoWrap, -⟩ := parse_int .w8 "128"
  obtain ⟨-, -, hPattern, -, hZeros, -⟩ := parse_int .w8 "0x+fF"
  obtain ⟨-, -, -, -, -, hLookalike⟩ := parse_int .w8 "1 2 "
  exact ⟨hValue ⟨.sign .minus, ['1', '2', '8']⟩ (by decide) (by decide),
    hNoWrap ⟨.sign .none, ['1', '2', '8']⟩ (by decide) (by decide),
    hPattern ⟨.mark false true, ['f', 'F']⟩ (by decide) (by decide),
    hZeros ⟨.mark false true, ['f', 'F']⟩ 3 "0x+000fF" (by decide) (by decide),
    hLookalike (.blank _ ' ' (by decide) (by decide))⟩

end Scalar

end WidthExact
