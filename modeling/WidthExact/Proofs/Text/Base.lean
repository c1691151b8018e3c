import Mathlib.Data.Nat.Digits.Defs
import WidthExact.Proofs.Text.Digits

/-!
# Numbers written to a base

What digits to a base up to sixteen write, said of all bases at once and apart from the readers. A
character is a digit to a base if its value is below the base, and digits write the sum of their values
weighed by the powers of the base. Decimal digits and hexadecimal ones are both told by this.
No character outside of ASCII has a value below sixteen, and a zero in front of digits adds nothing.

## Main results

* `digitsTo_ten_iff`, `positionalValue_ten` — decimal digits.
* `readHex?_iff_digitsTo` — what the hexadecimal reader reads.
* `positionalValue_zeros` — leading zeros.
* `positionalValue_hex` — what a hexadecimal numeral writes.
-/

namespace WidthExact.Text

/-- The digits to base sixteen in order. -/
def digitRow : List Char :=
  ['0', '1', '2', '3', '4', '5', '6', '7', '8', '9', 'a', 'b', 'c', 'd', 'e', 'f']

/-- The value of a digit is its place in the row, where a letter counts in either case. A character
that is no digit has the value sixteen. -/
def digitValue (c : Char) : Nat := digitRow.idxOf c.toLower

/-- Digits to the base only, and at least one. -/
structure DigitsTo (base : Nat) (digits : List Char) : Prop where
  nonempty : digits ≠ []
  below : ∀ c ∈ digits, digitValue c < base

instance (base : Nat) (digits : List Char) : Decidable (DigitsTo base digits) :=
  decidable_of_iff (digits ≠ [] ∧ digits.all (digitValue · < base) = true) <| by
    rw [List.all_eq_true]
    exact ⟨fun h => ⟨h.1, fun c hc => of_decide_eq_true (h.2 c hc)⟩,
      fun h => ⟨h.nonempty, fun c hc => decide_eq_true (h.below c hc)⟩⟩

/-- The number that digits write to the base. -/
def positionalValue (base : Nat) (digits : List Char) : Nat :=
  Nat.ofDigits base (digits.map digitValue).reverse

/-! ## Digits -/

/-- What holds of the 128 characters of ASCII, one by one. -/
theorem forall_ascii {P : Char → Prop} (h : ∀ n < 128, P (Char.ofNat n)) {c : Char}
    (hAscii : c.toNat < 128) : P c := by
  have hc := h c.toNat hAscii
  rwa [Char.ofNat_toNat] at hc

theorem digitValue_of_not_ascii {c : Char} (h : 128 ≤ c.toNat) : digitValue c = 16 := by
  have hLower : c.toLower = c := by
    unfold Char.toLower
    split
    · next hUpper =>
        have hHigh : c.toNat ≤ 90 := hUpper.2
        omega
    · rfl
  have hRow : digitRow.all (·.toNat < 128) = true := by decide
  rw [digitValue, hLower]
  exact List.idxOf_eq_length fun hMem =>
    absurd (of_decide_eq_true (List.all_eq_true.mp hRow c hMem)) (Nat.not_lt.mpr h)

theorem hexValue?_eq (c : Char) :
    hexValue? c = if digitValue c < 16 then some (digitValue c) else none := by
  rcases Nat.lt_or_ge c.toNat 128 with hAscii | hNot
  · exact forall_ascii
      (P := fun c => hexValue? c = if digitValue c < 16 then some (digitValue c) else none)
      (by decide +kernel) hAscii
  · have hAbove : ∀ d : Char, d.toNat < 128 → ¬ c ≤ d := by
      intro d hd hLe
      have hLe' : c.toNat ≤ d.toNat := Char.le_def.mp hLe
      omega
    rw [digitValue_of_not_ascii hNot, hexValue?, if_neg fun h => hAbove '9' (by decide) h.2,
      if_neg fun h => hAbove 'f' (by decide) h.2, if_neg fun h => hAbove 'F' (by decide) h.2]
    rfl

theorem hexValue?_eq_some_iff {c : Char} {d : Nat} :
    hexValue? c = some d ↔ digitValue c < 16 ∧ d = digitValue c := by
  rw [hexValue?_eq, Option.ite_none_right_eq_some, Option.some_inj, eq_comm (a := d)]

theorem isDigit_iff {c : Char} : c.isDigit = true ↔ digitValue c < 10 := by
  rcases Nat.lt_or_ge c.toNat 128 with hAscii | hNot
  · exact forall_ascii (P := fun c => c.isDigit = true ↔ digitValue c < 10)
      (by decide +kernel) hAscii
  · rw [digitValue_of_not_ascii hNot, Char.isDigit_iff_toNat]
    have hNine : '9'.toNat = 57 := rfl
    omega

theorem digitValue_eq_zero_iff {c : Char} : digitValue c = 0 ↔ c = '0' := by
  rcases Nat.lt_or_ge c.toNat 128 with hAscii | hNot
  · exact forall_ascii (P := fun c => digitValue c = 0 ↔ c = '0') (by decide +kernel) hAscii
  · rw [digitValue_of_not_ascii hNot]
    refine iff_of_false (by decide) ?_
    rintro rfl
    exact absurd hNot (by decide)

theorem toNat_sub_of_isDigit {c : Char} (h : c.isDigit = true) :
    c.toNat - '0'.toNat = digitValue c := by
  have hAscii : c.toNat < 128 := by
    have hHigh : c.toNat ≤ 57 := (Char.isDigit_iff_toNat.mp h).2
    omega
  exact forall_ascii (P := fun c => c.isDigit = true → c.toNat - '0'.toNat = digitValue c)
    (by decide +kernel) hAscii h

theorem isBlank_of_digitValue_lt {c : Char} (h : digitValue c < 16) : isBlank c = false := by
  rcases Nat.lt_or_ge c.toNat 128 with hAscii | hNot
  · exact forall_ascii (P := fun c => digitValue c < 16 → isBlank c = false)
      (by decide +kernel) hAscii h
  · rw [digitValue_of_not_ascii hNot] at h
    exact absurd h (Nat.lt_irrefl 16)

/-- A digit is a visible character of ASCII. -/
theorem ascii_of_digitValue_lt {c : Char} (h : digitValue c < 16) :
    0x20 ≤ c.toNat ∧ c.toNat < 0x7f := by
  rcases Nat.lt_or_ge c.toNat 128 with hAscii | hNot
  · exact forall_ascii (P := fun c => digitValue c < 16 → 0x20 ≤ c.toNat ∧ c.toNat < 0x7f)
      (by decide +kernel) hAscii h
  · rw [digitValue_of_not_ascii hNot] at h
    exact absurd h (Nat.lt_irrefl 16)

/-! ## Numbers -/

variable {base : Nat} {digits : List Char}

theorem positionalValue_nil : positionalValue base [] = 0 := rfl

/-- The first digit weighs as much as the number of digits behind it tells. -/
theorem positionalValue_cons (c : Char) :
    positionalValue base (c :: digits) =
      digitValue c * base ^ digits.length + positionalValue base digits := by
  rw [positionalValue, List.map_cons, List.reverse_cons, Nat.ofDigits_append, Nat.ofDigits_singleton,
    List.length_reverse, List.length_map, Nat.add_comm, Nat.mul_comm]
  rfl

/-- A digit taken over to the number that stands in front of the others. -/
theorem positionalValue_behind (start : Nat) (c : Char) :
    (base * start + digitValue c) * base ^ digits.length + positionalValue base digits =
      start * base ^ (c :: digits).length + positionalValue base (c :: digits) := by
  rw [positionalValue_cons, List.length_cons, Nat.pow_succ']
  ring

/-- Zeros in front of a number do not change it. -/
theorem positionalValue_zeros (zeros : Nat) :
    positionalValue base (List.replicate zeros '0' ++ digits) = positionalValue base digits := by
  have hZero : digitValue '0' = 0 := by decide
  induction zeros with
  | zero => rfl
  | succ zeros ih =>
      rw [List.replicate_succ, List.cons_append, positionalValue_cons, ih, hZero, Nat.zero_mul,
        Nat.zero_add]

/-! ## The readers -/

theorem digitsTo_ten_iff : DigitsTo 10 digits ↔ AllDigits digits ∧ digits ≠ [] := by
  constructor
  · rintro ⟨hNonempty, hBelow⟩
    exact ⟨fun c hc => isDigit_iff.mpr (hBelow c hc), hNonempty⟩
  · rintro ⟨hDigits, hNonempty⟩
    exact ⟨hNonempty, fun c hc => isDigit_iff.mp (hDigits c hc)⟩

theorem positionalValue_ten (h : AllDigits digits) :
    positionalValue 10 digits = Nat.ofDigitChars 10 digits 0 := by
  induction digits with
  | nil => rfl
  | cons c digits ih =>
      obtain ⟨hDigit, hDigits⟩ := List.forall_mem_cons.mp h
      rw [Nat.ofDigitChars_cons, Nat.ofDigitChars_eq_ofDigitChars_zero, ← ih hDigits,
        toNat_sub_of_isDigit hDigit, Nat.mul_zero, Nat.zero_add, positionalValue_cons, Nat.mul_comm]

/-- By induction on the digits, over the number that stands in front of them. -/
theorem readHexFrom?_eq_some_iff {start n : Nat} :
    readHexFrom? start digits = some n ↔
      (∀ c ∈ digits, digitValue c < 16) ∧
        n = start * 16 ^ digits.length + positionalValue 16 digits := by
  induction digits generalizing start with
  | nil =>
      rw [readHexFrom?, positionalValue_nil, List.length_nil, Nat.pow_zero, Nat.mul_one, Nat.add_zero,
        Option.some_inj, eq_comm]
      exact ⟨fun h => ⟨nofun, h⟩, And.right⟩
  | cons c digits ih =>
      rw [readHexFrom?, Option.bind_eq_some_iff, List.forall_mem_cons, and_assoc,
        ← positionalValue_behind]
      constructor
      · rintro ⟨d, hDigit, hRest⟩
        obtain ⟨hBelow, rfl⟩ := hexValue?_eq_some_iff.mp hDigit
        exact ⟨hBelow, ih.mp hRest⟩
      · rintro ⟨hBelow, hRest⟩
        exact ⟨_, hexValue?_eq_some_iff.mpr ⟨hBelow, rfl⟩, ih.mpr hRest⟩

/-- Hexadecimal digits are read as the number that they write. -/
theorem readHex?_iff_digitsTo {n : Nat} :
    readHex? digits = some n ↔ DigitsTo 16 digits ∧ n = positionalValue 16 digits := by
  rw [readHex?]
  split
  · next hEmpty => exact iff_of_false nofun fun h => h.1.nonempty (List.isEmpty_iff.mp hEmpty)
  · next hNonempty =>
      rw [readHexFrom?_eq_some_iff, Nat.zero_mul, Nat.zero_add]
      refine and_congr_left fun _ => ⟨fun hBelow => ⟨?_, hBelow⟩, DigitsTo.below⟩
      exact fun hEmpty => hNonempty (List.isEmpty_iff.mpr hEmpty)

/-! ## Hexadecimal numerals -/

theorem digitValue_hexDigit {d : Nat} (h : d < 16) : digitValue (hexDigit d) = d := by
  have hRow : ∀ d < 16, digitValue (hexDigit d) = d := by decide +kernel
  exact hRow d h

/-- By induction on the number, whose last digit is put in front of `tail` at each step. -/
theorem hexOnto_digits (n : Nat) {tail : List Char} (hTail : ∀ c ∈ tail, digitValue c < 16) :
    DigitsTo 16 (hexOnto n tail) ∧
      positionalValue 16 (hexOnto n tail) = n * 16 ^ tail.length + positionalValue 16 tail := by
  have hCons : ∀ d < 16, ∀ t : List Char, (∀ c ∈ t, digitValue c < 16) →
      ∀ c ∈ hexDigit d :: t, digitValue c < 16 := by
    intro d hd t ht
    exact List.forall_mem_cons.mpr ⟨(digitValue_hexDigit hd).trans_lt hd, ht⟩
  induction n, tail using hexOnto.induct with
  | case1 n tail hSmall =>
      rw [hexOnto, if_pos hSmall, positionalValue_cons, digitValue_hexDigit hSmall]
      exact ⟨⟨List.cons_ne_nil _ _, hCons n hSmall tail hTail⟩, rfl⟩
  | case2 n tail hLarge ih =>
      have hLast : n % 16 < 16 := Nat.mod_lt n (by decide)
      obtain ⟨hDigits, hValue⟩ := ih (hCons _ hLast tail hTail)
      rw [hexOnto, if_neg hLarge]
      refine ⟨hDigits, ?_⟩
      rw [hValue, ← positionalValue_behind, digitValue_hexDigit hLast, Nat.div_add_mod]

theorem digitsTo_hex (n : Nat) : DigitsTo 16 (hex n) := (hexOnto_digits n (List.forall_mem_nil _)).1

/-- A hexadecimal numeral writes its number. -/
theorem positionalValue_hex (n : Nat) : positionalValue 16 (hex n) = n := by
  rw [hex, (hexOnto_digits n (List.forall_mem_nil _)).2, positionalValue_nil, List.length_nil,
    Nat.pow_zero, Nat.mul_one, Nat.add_zero]

end WidthExact.Text
