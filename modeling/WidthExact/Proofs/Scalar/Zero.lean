import WidthExact.Proofs.Scalar.Literal
import WidthExact.Proofs.Text.Base
import WidthExact.Proofs.Word.Readings

/-!
# Literals of zero

A divisor is given as text, and the texts that are read as zero are many: any number of zeros, with a
sign or without, or behind `0x`. They are one family all the same, a short prefix and zeros behind it,
at every integer width.

## Main results

* `readDecimal?_eq_zero_iff`, `readHex?_eq_zero_iff` — digits that write zero.
* `Word.read?_eq_zero_iff`, `Scalar.parse_eq_zero_iff` — literals that are read as the zero word.
-/

namespace WidthExact

namespace Text

/-! ## Digits -/

/-- One zero or more. -/
def Zeros (text : List Char) : Prop := ∃ n, text = List.replicate (n + 1) '0'

variable {digits : List Char}

theorem zeros_iff : Zeros digits ↔ digits ≠ [] ∧ ∀ c ∈ digits, c = '0' := by
  constructor
  · rintro ⟨n, rfl⟩
    exact ⟨List.cons_ne_nil _ _, fun c hc => List.eq_of_mem_replicate hc⟩
  · rintro ⟨hNonempty, hZeros⟩
    have hLen : digits.length - 1 + 1 = digits.length := by
      have := List.length_pos_of_ne_nil hNonempty
      omega
    exact ⟨digits.length - 1, List.eq_replicate_iff.mpr ⟨hLen.symm, hZeros⟩⟩

/-- By induction on the digits, over the number that stands in front of them. -/
theorem ofDigitChars_eq_zero_iff (h : AllDigits digits) (start : Nat) :
    Nat.ofDigitChars 10 digits start = 0 ↔ start = 0 ∧ ∀ c ∈ digits, c = '0' := by
  induction digits generalizing start with
  | nil => simp
  | cons c digits ih =>
      obtain ⟨hDigit, hDigits⟩ := List.forall_mem_cons.mp h
      have hLow : '0'.toNat ≤ c.toNat := (Char.isDigit_iff_toNat.mp hDigit).1
      have hChar : c = '0' ↔ c.toNat = '0'.toNat := Char.toNat_inj.symm
      rw [Nat.ofDigitChars_cons, ih hDigits, List.forall_mem_cons, hChar, ← and_assoc]
      exact and_congr_left fun _ => by omega

theorem readDecimal?_eq_zero_iff : readDecimal? digits = some 0 ↔ Zeros digits := by
  rw [zeros_iff, readDecimal?_eq_some_iff]
  constructor
  · rintro ⟨hDigits, hNonempty, hZero⟩
    exact ⟨hNonempty, ((ofDigitChars_eq_zero_iff hDigits 0).mp hZero.symm).2⟩
  · rintro ⟨hNonempty, hZeros⟩
    have hDigits : AllDigits digits := by
      intro c hc
      rw [hZeros c hc]
      rfl
    exact ⟨hDigits, hNonempty, ((ofDigitChars_eq_zero_iff hDigits 0).mpr ⟨rfl, hZeros⟩).symm⟩

theorem hexValue?_eq_zero_iff {c : Char} : hexValue? c = some 0 ↔ c = '0' := by
  rw [hexValue?_eq_some_iff, ← digitValue_eq_zero_iff, eq_comm (a := 0), and_iff_right_iff_imp]
  intro hZero
  rw [hZero]
  decide

theorem readHexFrom?_eq_zero_iff (start : Nat) :
    readHexFrom? start digits = some 0 ↔ start = 0 ∧ ∀ c ∈ digits, c = '0' := by
  induction digits generalizing start with
  | nil => simp [readHexFrom?]
  | cons c digits ih =>
      rw [readHexFrom?, Option.bind_eq_some_iff, List.forall_mem_cons]
      constructor
      · rintro ⟨d, hDigit, hRest⟩
        obtain ⟨hStart, hZeros⟩ := (ih _).mp hRest
        obtain rfl : d = 0 := by omega
        exact ⟨by omega, hexValue?_eq_zero_iff.mp hDigit, hZeros⟩
      · rintro ⟨rfl, rfl, hZeros⟩
        exact ⟨0, rfl, (ih _).mpr ⟨rfl, hZeros⟩⟩

theorem readHex?_eq_zero_iff : readHex? digits = some 0 ↔ Zeros digits := by
  rw [zeros_iff]
  cases digits with
  | nil => simp [readHex?]
  | cons c digits =>
      have hFrom := @readHexFrom?_eq_zero_iff (c :: digits) 0
      rw [readHex?]
      exact hFrom.trans (and_congr_left fun _ => ⟨fun _ => List.cons_ne_nil _ _, fun _ => rfl⟩)

/-! ## Literals -/

/-- Zeros behind one of the given marks. -/
def ZerosBehind (marks : List (List Char)) (text : List Char) : Prop :=
  ∃ mark ∈ marks, ∃ zeros, Zeros zeros ∧ text = mark ++ zeros

/-- A spelling of the integer zero: zeros, behind a sign or without, or behind the mark of a
hexadecimal literal and perhaps a plus sign. -/
def SpellsZero : List Char → Prop :=
  ZerosBehind [[], ['-'], ['+'], ['0', 'x'], ['0', 'X'], ['0', 'x', '+'], ['0', 'X', '+']]

end Text

open Text

/-- The digits of an integer, to which the reader may put a sign. -/
theorem Decimal.signed_eq_zero_iff {digits : List Char} {sign : Int → Int}
    (hSign : ∀ n, sign n = 0 ↔ n = 0) :
    ((readDecimal? digits).bind fun n => some (n : Int)).map sign = some 0 ↔ Zeros digits := by
  rw [← readDecimal?_eq_zero_iff]
  simp only [Option.map_eq_some_iff, hSign, exists_eq_right, Option.bind_eq_some_iff,
    Option.some.injEq, Int.natCast_eq_zero]

theorem Decimal.readInt?_eq_zero_iff {text : List Char} :
    readInt? text = some 0 ↔ ZerosBehind [[], ['-'], ['+']] text := by
  unfold readInt?
  split
  · refine (signed_eq_zero_iff fun n => Int.neg_eq_zero).trans ?_
    simp [ZerosBehind, zeros_iff]
  · refine (signed_eq_zero_iff fun n => Iff.rfl).trans ?_
    simp [ZerosBehind, zeros_iff]
  · next hMinus hPlus =>
      have hNoMinus : ∀ digits, text ≠ '-' :: digits := hMinus
      have hNoPlus : ∀ digits, text ≠ '+' :: digits := hPlus
      refine (signed_eq_zero_iff fun n => Iff.rfl).trans ?_
      simp [ZerosBehind, hNoMinus, hNoPlus]

namespace Word

variable {w : IntWidth}

theorem exactly?_eq_zero_iff {n : Int} : (exactly? n : Option (Word w)) = some zero ↔ n = 0 := by
  constructor
  · intro h
    unfold exactly? at h
    split at h
    · next hRange =>
        have hRead := congrArg signed (Option.some.inj h)
        have hPow : 2 * ((twoPow (w.bits - 1) : Nat) : Int) = 2 ^ w.bits := by
          cases w <;> decide
        rwa [signed_ofSigned (by omega) (by omega), signed_zero] at hRead
    · cases h
  · rintro rfl
    cases w <;> rfl

theorem readHex?_eq_zero_iff {text : List Char} :
    (readHex? text : Option (Word w)) = some zero ↔ ZerosBehind [[], ['+']] text := by
  have hDigits : ∀ digits, ((Text.readHex? digits).filter (· < twoPow w.bits)).map ofUnsigned =
      some (zero : Word w) ↔ Zeros digits := by
    intro digits
    rw [← Text.readHex?_eq_zero_iff, Option.map_eq_some_iff]
    simp only [Option.filter_eq_some_iff, decide_eq_true_eq]
    constructor
    · rintro ⟨n, ⟨hRead, hLt⟩, hZero⟩
      have hNat : n % twoPow w.bits = 0 := (BitVec.toNat_ofNat n w.bits).symm.trans
        ((unsigned_eq_zero_iff _).mpr hZero)
      rw [Nat.mod_eq_of_lt hLt] at hNat
      rw [hRead, hNat]
    · intro hRead
      exact ⟨0, ⟨hRead, twoPow_pos w.bits⟩, rfl⟩
  unfold readHex?
  split
  · simp [hDigits, ZerosBehind, zeros_iff]
  · next hPlus =>
      have hNoPlus : ∀ digits, text ≠ '+' :: digits := hPlus
      simp [hDigits, ZerosBehind, hNoPlus]

theorem read?_eq_zero_iff {text : List Char} :
    (read? text : Option (Word w)) = some zero ↔ SpellsZero text := by
  unfold read?
  split
  · rw [readHex?_eq_zero_iff]
    simp [SpellsZero, ZerosBehind, zeros_iff]
  · rw [readHex?_eq_zero_iff]
    simp [SpellsZero, ZerosBehind, zeros_iff]
  · next hLower hUpper =>
      have hNoLower : ∀ digits, text ≠ '0' :: 'x' :: digits := hLower
      have hNoUpper : ∀ digits, text ≠ '0' :: 'X' :: digits := hUpper
      rw [Option.bind_eq_some_iff]
      simp only [exactly?_eq_zero_iff, exists_eq_right, Decimal.readInt?_eq_zero_iff]
      simp [SpellsZero, ZerosBehind, hNoLower, hNoUpper]

end Word

namespace Scalar

theorem parse_eq_ok_iff {type : ScalarType} {text : String} {value : Scalar} :
    parse type text = .ok value ↔ read? type (trim text.toList) = some value := by
  unfold parse
  cases read? type (trim text.toList) <;> simp

/-- A text that is no literal is refused as it is, white space included. -/
theorem parse_eq_error_iff {type : ScalarType} {text : String} {error : ParseError} :
    parse type text = .error error ↔
      error = .invalidLiteral type.text text ∧ ∀ value, parse type text ≠ .ok value := by
  unfold parse
  cases read? type (trim text.toList) <;> simp [eq_comm]

theorem type_of_read? {type : ScalarType} {text : List Char} {value : Scalar}
    (h : read? type text = some value) : value.type = type := by
  cases type <;>
    · obtain ⟨_, -, rfl⟩ := Option.map_eq_some_iff.mp h
      rfl

theorem type_of_parse {type : ScalarType} {text : String} {value : Scalar}
    (h : parse type text = .ok value) : value.type = type :=
  type_of_read? (parse_eq_ok_iff.mp h)

/-- The texts that are read as an integer zero. -/
theorem parse_eq_zero_iff {w : IntWidth} {text : String} :
    parse (.int w) text = .ok (.int w Word.zero) ↔ SpellsZero (trim text.toList) := by
  rw [parse_eq_ok_iff, ← Word.read?_eq_zero_iff (w := w), read?, Option.map_eq_some_iff]
  simp only [Scalar.int.injEq, heq_eq_eq, true_and, exists_eq_right]

end Scalar

end WidthExact
