import WidthExact.Proofs.Text.Digits
import WidthExact.Width

/-!
# Written widths

Which texts are widths. The two families differ in their letter and in their bit counts, and in
nothing else: `IsWidthNotation` says of one family what its functions come to,
`IsWidthNotation.of_reader` derives it from the table of bit counts, and each family is an instance.

A bit count is read as a numeral, so a width has a spelling for every number of zeros in front of
its bit count, with a plus sign and without. The limit of 2³² takes no spelling away, since every
width is far below it; what it refuses are the numbers at which a 32-bit counter would come back to
a width.

## Main results

* `readBitCount?_eq_some_iff` — the texts that are read as a bit count.
* `width_notation` — the two families.
-/

namespace WidthExact

open Text

/-! ## Bit counts -/

/-- What may stand before the digits of a bit count. -/
def bitCountSigns : List (List Char) := [[], ['+']]

variable {text digits sign : List Char} {n : Nat}

/-- A sign is skipped, and the digits behind it are read. -/
theorem readBitCount?_append (hSign : sign ∈ bitCountSigns) (h : AllDigits digits) :
    readBitCount? (sign ++ digits) = (readDecimal? digits).filter (· < twoPow 32) := by
  rcases List.mem_pair.mp hSign with rfl | rfl
  · cases digits with
    | nil => rfl
    | cons c digits =>
        have hPlus : c ≠ '+' := by
          rintro rfl
          exact absurd (h '+' List.mem_cons_self) (by decide)
        simp [readBitCount?, hPlus]
  · rfl

/-- A bit count is a numeral of a number below 2³², behind zeros and perhaps a plus sign. -/
theorem readBitCount?_eq_some_iff : readBitCount? text = some n ↔
    n < 2 ^ 32 ∧ ∃ sign ∈ bitCountSigns, ∃ zeros,
      text = sign ++ (List.replicate zeros '0' ++ decimal n) := by
  constructor
  · intro h
    have hSplit : ∃ sign ∈ bitCountSigns, ∃ digits, text = sign ++ digits ∧
        (readDecimal? digits).filter (· < twoPow 32) = some n := by
      unfold readBitCount? at h
      split at h
      · next rest => exact ⟨['+'], by simp [bitCountSigns], rest, rfl, h⟩
      · exact ⟨[], by simp [bitCountSigns], text, rfl, h⟩
    obtain ⟨sign, hSign, digits, rfl, hRead⟩ := hSplit
    obtain ⟨hDecimal, hLt⟩ := Option.filter_eq_some_iff.mp hRead
    obtain ⟨hDigits, hNonempty, rfl⟩ := readDecimal?_eq_some_iff.mp hDecimal
    obtain ⟨zeros, hZeros⟩ := exists_eq_zeros_append_decimal hDigits hNonempty
    exact ⟨of_decide_eq_true hLt, sign, hSign, zeros, congrArg (sign ++ ·) hZeros⟩
  · rintro ⟨hLt, sign, hSign, zeros, rfl⟩
    have hDigits : AllDigits (List.replicate zeros '0' ++ decimal n) :=
      (allDigits_zeros zeros).append (allDigits_decimal n)
    have hNonempty : List.replicate zeros '0' ++ decimal n ≠ [] :=
      List.append_ne_nil_of_right_ne_nil _ (decimal_ne_nil n)
    have hValue : Nat.ofDigitChars 10 (List.replicate zeros '0' ++ decimal n) 0 = n := by
      rw [Nat.ofDigitChars_append, Nat.ofDigitChars_replicate_zero, Nat.mul_zero,
        ofDigitChars_decimal]
    rw [readBitCount?_append hSign hDigits, readDecimal?_of_allDigits hDigits hNonempty, hValue]
    exact Option.filter_eq_some_iff.mpr ⟨rfl, decide_eq_true hLt⟩

/-- Digits of a number from 2³² on are no bit count. -/
theorem readBitCount?_eq_none (hSign : sign ∈ bitCountSigns) (h : AllDigits digits)
    (hLarge : 2 ^ 32 ≤ Nat.ofDigitChars 10 digits 0) : readBitCount? (sign ++ digits) = none := by
  rw [readBitCount?_append hSign h, Option.filter_eq_none_iff]
  intro n hRead hLt
  obtain ⟨-, -, rfl⟩ := readDecimal?_eq_some_iff.mp hRead
  exact absurd (of_decide_eq_true hLt) (Nat.not_lt.mpr hLarge)

/-! ## Families of widths -/

/-- The spellings of a width: the letter of its family, perhaps a plus sign, any number of zeros,
and the bit count. -/
def SpellsWidth (letter : Char) (bits : Nat) (text : List Char) : Prop :=
  ∃ sign ∈ bitCountSigns, ∃ zeros,
    text = letter :: (sign ++ (List.replicate zeros '0' ++ decimal bits))

/-- What the functions of a family of widths come to. A text is parsed to a width if it is one of
its spellings, and refused as it is otherwise; a number from 2³² on is refused whatever it is modulo
2³². A bit count is looked up as the width that has it, and told as unsupported otherwise. The
written form of a width, letter and bit count, is parsed to the width. -/
structure IsWidthNotation {W : Type} (letter : Char) (bits : W → Nat) (text : W → String)
    (ofBits? : Nat → Option W) (ofBits : Nat → Except ParseError W)
    (parse : String → Except ParseError W) : Prop where
  parse_eq_ok_iff : ∀ s w, parse s = .ok w ↔ SpellsWidth letter (bits w) s.toList
  parse_eq_error_iff : ∀ s error, parse s = .error error ↔
    error = .unknownWidth s ∧ ∀ w, ¬ SpellsWidth letter (bits w) s.toList
  parse_of_large : ∀ s, ∀ sign ∈ bitCountSigns, ∀ digits, AllDigits digits →
    2 ^ 32 ≤ Nat.ofDigitChars 10 digits 0 → s.toList = letter :: (sign ++ digits) →
      parse s = .error (.unknownWidth s)
  ofBits?_eq_some_iff : ∀ n w, ofBits? n = some w ↔ bits w = n
  ofBits_eq_ok_iff : ∀ n w, ofBits n = .ok w ↔ bits w = n
  ofBits_eq_error_iff : ∀ n error, ofBits n = .error error ↔
    error = .unsupportedBits n ∧ ∀ w, bits w ≠ n
  toList_text : ∀ w, (text w).toList = letter :: decimal (bits w)
  parse_text : ∀ w, parse (text w) = .ok w

section

variable {W : Type} {letter : Char} {bits : W → Nat} {written : W → String}
  {ofBits? : Nat → Option W} {ofBits : Nat → Except ParseError W}
  {parse : String → Except ParseError W} {read? : List Char → Option W}

theorem elim_eq_ok_iff {found : Option W} {reason : ParseError} {w : W} :
    found.elim (.error reason) Except.ok = .ok w ↔ found = some w := by
  cases found <;> simp

theorem elim_eq_error_iff {found : Option W} {reason error : ParseError} :
    found.elim (.error reason) Except.ok = .error error ↔
      error = reason ∧ ∀ w, found ≠ some w := by
  cases found <;> simp [eq_comm]

/-- A family is what it is meant to be if its table of bit counts is right and it reads a bit count
behind its letter. -/
theorem IsWidthNotation.of_reader (hTable : ∀ n w, ofBits? n = some w ↔ bits w = n)
    (hSmall : ∀ w, bits w < 2 ^ 32) (hText : ∀ w, (written w).toList = letter :: decimal (bits w))
    (hRead : ∀ t w, read? t = some w ↔
      ∃ count, t = letter :: count ∧ (readBitCount? count).bind ofBits? = some w)
    (hParse : ∀ s, parse s = (read? s.toList).elim (.error (.unknownWidth s)) .ok)
    (hOfBits : ∀ n, ofBits n = (ofBits? n).elim (.error (.unsupportedBits n)) .ok) :
    IsWidthNotation letter bits written ofBits? ofBits parse := by
  have hSpells : ∀ t w, read? t = some w ↔ SpellsWidth letter (bits w) t := by
    intro t w
    simp only [hRead, Option.bind_eq_some_iff, hTable, readBitCount?_eq_some_iff]
    constructor
    · rintro ⟨_, rfl, n, ⟨-, sign, hSign, zeros, rfl⟩, rfl⟩
      exact ⟨sign, hSign, zeros, rfl⟩
    · rintro ⟨sign, hSign, zeros, rfl⟩
      exact ⟨_, rfl, bits w, ⟨hSmall w, sign, hSign, zeros, rfl⟩, rfl⟩
  have hOk : ∀ s w, parse s = .ok w ↔ SpellsWidth letter (bits w) s.toList := by
    intro s w
    rw [hParse, elim_eq_ok_iff, hSpells]
  refine ⟨hOk, ?_, ?_, hTable, ?_, ?_, hText, ?_⟩
  · intro s error
    simp only [hParse, elim_eq_error_iff, ne_eq, hSpells]
  · intro s sign hSign digits hDigits hLarge hChars
    rw [hParse, elim_eq_error_iff]
    refine ⟨rfl, fun w hSome => ?_⟩
    obtain ⟨count, hCount, hBits⟩ := (hRead _ w).mp hSome
    rw [hChars] at hCount
    rw [← (List.cons.inj hCount).2, readBitCount?_eq_none hSign hDigits hLarge] at hBits
    cases hBits
  · intro n w
    rw [hOfBits, elim_eq_ok_iff, hTable]
  · intro n error
    simp only [hOfBits, elim_eq_error_iff, ne_eq, hTable]
  · intro w
    rw [hOk, hText]
    exact ⟨[], by simp [bitCountSigns], 0, rfl⟩

end

/-! ## The two families -/

theorem IntWidth.ofBits?_eq_some_iff (n : Nat) (w : IntWidth) :
    ofBits? n = some w ↔ w.bits = n := by
  constructor
  · intro h
    unfold ofBits? at h
    split at h <;> cases h <;> rfl
  · rintro rfl
    exact w.ofBits?_bits

theorem FloatWidth.ofBits?_eq_some_iff (n : Nat) (f : FloatWidth) :
    ofBits? n = some f ↔ f.bits = n := by
  constructor
  · intro h
    unfold ofBits? at h
    split at h <;> cases h <;> rfl
  · rintro rfl
    exact f.ofBits?_bits

theorem IntWidth.read?_eq_some_iff (t : List Char) (w : IntWidth) : read? t = some w ↔
    ∃ count, t = 'i' :: count ∧ (readBitCount? count).bind ofBits? = some w := by
  unfold read?
  split
  · simp
  · next hOther => exact ⟨nofun, fun ⟨count, hCount, _⟩ => absurd hCount (hOther count)⟩

theorem FloatWidth.read?_eq_some_iff (t : List Char) (f : FloatWidth) : read? t = some f ↔
    ∃ count, t = 'f' :: count ∧ (readBitCount? count).bind ofBits? = some f := by
  unfold read?
  split
  · simp
  · next hOther => exact ⟨nofun, fun ⟨count, hCount, _⟩ => absurd hCount (hOther count)⟩

theorem IntWidth.isWidthNotation :
    IsWidthNotation 'i' IntWidth.bits IntWidth.text IntWidth.ofBits? IntWidth.ofBits
      IntWidth.parse := by
  refine .of_reader ofBits?_eq_some_iff ?_ ?_ read?_eq_some_iff ?_ ?_
  · rintro (_ | _ | _ | _) <;> decide
  · rintro (_ | _ | _ | _) <;> rfl
  · intro s
    rw [parse]
    cases read? s.toList <;> rfl
  · intro n
    rw [ofBits]
    cases ofBits? n <;> rfl

theorem FloatWidth.isWidthNotation :
    IsWidthNotation 'f' FloatWidth.bits FloatWidth.text FloatWidth.ofBits? FloatWidth.ofBits
      FloatWidth.parse := by
  refine .of_reader ofBits?_eq_some_iff ?_ ?_ read?_eq_some_iff ?_ ?_
  · rintro (_ | _) <;> decide
  · rintro (_ | _) <;> rfl
  · intro s
    rw [parse]
    cases read? s.toList <;> rfl
  · intro n
    rw [ofBits]
    cases ofBits? n <;> rfl

/-- **Widths are read exactly.** A text is an integer width if it is the letter `i`, perhaps a plus
sign, any number of zeros and the bit count, and a floating-point width alike with the letter `f`;
any other text is refused as it is, a number beyond 32 bits among them. Look-up by bit count,
parsing and writing agree, and no text is a width of both families. -/
theorem width_notation :
    IsWidthNotation 'i' IntWidth.bits IntWidth.text IntWidth.ofBits? IntWidth.ofBits IntWidth.parse ∧
    IsWidthNotation 'f' FloatWidth.bits FloatWidth.text FloatWidth.ofBits? FloatWidth.ofBits
      FloatWidth.parse ∧
    ∀ text (w : IntWidth) (f : FloatWidth),
      ¬ (IntWidth.parse text = .ok w ∧ FloatWidth.parse text = .ok f) := by
  refine ⟨IntWidth.isWidthNotation, FloatWidth.isWidthNotation, ?_⟩
  rintro text w f ⟨hInt, hFloat⟩
  obtain ⟨_, -, _, hI⟩ := (IntWidth.isWidthNotation.parse_eq_ok_iff text w).mp hInt
  obtain ⟨_, -, _, hF⟩ := (FloatWidth.isWidthNotation.parse_eq_ok_iff text f).mp hFloat
  exact absurd (List.cons.inj (hI.symm.trans hF)).1 (by decide)

/-- A plus sign and zeros in front of 8; 2³² + 8, which a 32-bit counter takes for 8, and 2³² + 64;
and a bit count that only the other family has. -/
theorem width_notation_wrapped :
    IntWidth.parse "i+0008" = .ok .w8 ∧
      IntWidth.parse "i4294967304" = .error (.unknownWidth "i4294967304") ∧
      FloatWidth.parse "f+4294967360" = .error (.unknownWidth "f+4294967360") ∧
      FloatWidth.ofBits 16 = .error (.unsupportedBits 16) := by
  obtain ⟨hInt, hFloat, -⟩ := width_notation
  refine ⟨(hInt.parse_eq_ok_iff _ _).mpr ⟨['+'], by decide, 3, by decide⟩, ?_, ?_, ?_⟩
  · exact hInt.parse_of_large _ [] (by decide) "4294967304".toList
      (List.all_eq_true.mp (by decide)) (by decide) (by decide)
  · exact hFloat.parse_of_large _ ['+'] (by decide) "4294967360".toList
      (List.all_eq_true.mp (by decide)) (by decide) (by decide)
  · exact (hFloat.ofBits_eq_error_iff 16 _).mpr ⟨rfl, by rintro (_ | _) <;> decide⟩

end WidthExact
