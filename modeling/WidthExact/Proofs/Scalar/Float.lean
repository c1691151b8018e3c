import WidthExact.Proofs.Binary.Nearest
import WidthExact.Proofs.Scalar.Numeral
import WidthExact.Proofs.Scalar.Zero

/-!
# Floating-point literals

The texts that are floating-point literals, and what each of them denotes. A literal is a sign, or none,
before a numeral or one of the words for infinity and NaN, between white space. A numeral denotes the
value that its number is rounded to, in the format that is asked for; the number is exact, so that
nothing is rounded before.

## Main results

* `FloatMagnitude.denotes_read` — what a literal is read as.
* `Binary.readMagnitude?_eq_some_iff`, `Binary.read?_eq_some_iff` — the reader accepts the literals.
* `Scalar.parse_spelled`, `Scalar.exists_parse_iff` — with white space around them.
* `Scalar.parse_float` — and with the error.
-/

namespace WidthExact

open Text

namespace Text

theorem toLower_blank {c : Char} (hBlank : isBlank c = true) : c.toLower = c := by
  unfold Char.toLower
  split
  · next hUpper =>
      obtain ⟨hLow, hHigh⟩ := hUpper
      have hLow' : 65 ≤ c.toNat := hLow
      have hHigh' : c.toNat ≤ 90 := hHigh
      refine absurd hBlank ?_
      unfold isBlank inRanges blankRanges
      rw [List.any_eq_true]
      rintro ⟨range, hRange, hInside⟩
      simp only [List.mem_cons, List.not_mem_nil, or_false] at hRange
      simp only [Bool.and_eq_true, decide_eq_true_eq] at hInside
      rcases hRange with rfl | rfl | rfl | rfl | rfl | rfl | rfl | rfl | rfl | rfl <;> omega
  · rfl

/-- White space has no case. -/
theorem noBlank_of_toLower {text : List Char} (h : NoBlank (text.map Char.toLower)) :
    NoBlank text := by
  intro c hc
  by_contra hNot
  have hBlank : isBlank c = true := eq_true_of_ne_false hNot
  have hLower := h c.toLower (List.mem_map_of_mem hc)
  rw [toLower_blank hBlank, hBlank] at hLower
  cases hLower

end Text

/-! ## Literals -/

/-- What a floating-point literal is behind its sign. -/
inductive FloatMagnitude where
  | infinity | nan
  | number (n : Numeral)

namespace FloatMagnitude

/-- How it is spelled: a word in letters of either case, or a numeral. -/
def Spelled : FloatMagnitude → List Char → Prop
  | infinity, text => text.map Char.toLower ∈ ["inf".toList, "infinity".toList]
  | nan, text => text.map Char.toLower = "nan".toList
  | number n, text => n.WellFormed ∧ text = n.text

/-- What it denotes: a numeral, the value that its number is rounded to. -/
def Denotes {f : FloatWidth} (negative : Bool) : FloatMagnitude → Binary f → Prop
  | infinity, x => x = .infinity negative
  | nan, x => x.isNaN = true
  | number n, x => x.IsRounded negative n.value

/-- What it is read as. -/
def read {f : FloatWidth} (negative : Bool) : FloatMagnitude → Binary f
  | infinity => .infinity negative
  | nan => .nan negative
  | number n => .ofDecimal negative n.decimal

theorem denotes_read {f : FloatWidth} (negative : Bool) (m : FloatMagnitude) :
    m.Denotes negative (m.read negative : Binary f) := by
  cases m with
  | infinity => rfl
  | nan => exact Binary.isNaN_nan negative
  | number n =>
      have hRounds := n.decimal.nearest_roundsTo (f := f)
      rw [n.value_decimal] at hRounds
      refine (Binary.isRounded_iff n.value_nonneg).mpr ?_
      rw [read, Binary.ofDecimal, Binary.isNegative_ofMagnitude _ hRounds.le_infinity,
        Binary.magnitude_ofMagnitude _ hRounds.le_infinity]
      exact ⟨rfl, hRounds⟩

/-- No spelling has white space in it, or begins with a sign. -/
theorem Spelled.form {m : FloatMagnitude} {text : List Char} (h : m.Spelled text) :
    NoBlank text ∧ ∃ c rest, text = c :: rest ∧ c ≠ '-' ∧ c ≠ '+' := by
  have hWord : ∀ c word, text.map Char.toLower = c :: word → NoBlank (c :: word) →
      c ≠ '-' → c ≠ '+' → NoBlank text ∧ ∃ c rest, text = c :: rest ∧ c ≠ '-' ∧ c ≠ '+' := by
    intro c word hText hNoBlank hMinus hPlus
    refine ⟨noBlank_of_toLower (hText ▸ hNoBlank), ?_⟩
    obtain ⟨first, rest, rfl, rfl, -⟩ := List.map_eq_cons_iff.mp hText
    refine ⟨first, rest, rfl, ?_, ?_⟩
    · rintro rfl
      exact hMinus rfl
    · rintro rfl
      exact hPlus rfl
  cases m with
  | infinity =>
      rcases List.mem_pair.mp h with h | h
      · exact hWord _ _ h (by decide) (by decide) (by decide)
      · exact hWord _ _ h (by decide) (by decide) (by decide)
  | nan => exact hWord _ _ h (by decide) (by decide) (by decide)
  | number n =>
      obtain ⟨hForm, rfl⟩ := h
      obtain ⟨c, rest, hText, hFirst⟩ := hForm.exists_cons_text
      refine ⟨hForm.noBlank_text, c, rest, hText, ?_, ?_⟩ <;>
      · rintro rfl
        exact absurd hFirst (by decide)

end FloatMagnitude

namespace Binary

variable {f : FloatWidth}

theorem readMagnitude?_eq_some_iff {negative : Bool} {text : List Char} {x : Binary f} :
    readMagnitude? negative text = some x ↔
      ∃ m : FloatMagnitude, m.Spelled text ∧ x = m.read negative := by
  have hInfinity : text.map Char.toLower ∈ ["inf".toList, "infinity".toList] ↔
      text.map Char.toLower = ['i', 'n', 'f'] ∨
        text.map Char.toLower = ['i', 'n', 'f', 'i', 'n', 'i', 't', 'y'] := List.mem_pair
  constructor
  · intro h
    unfold readMagnitude? at h
    simp only at h
    split at h
    · next hWord => exact ⟨.infinity, hInfinity.mpr hWord, (Option.some.inj h).symm⟩
    · split at h
      · next hWord => exact ⟨.nan, hWord, (Option.some.inj h).symm⟩
      · obtain ⟨d, hRead, rfl⟩ := Option.map_eq_some_iff.mp h
        obtain ⟨n, hForm, rfl, rfl⟩ := Decimal.read?_eq_some_iff.mp hRead
        exact ⟨.number n, ⟨hForm, rfl⟩, rfl⟩
  · rintro ⟨m, hSpelled, rfl⟩
    unfold readMagnitude?
    simp only
    cases m with
    | infinity => rw [if_pos (hInfinity.mp hSpelled)]; rfl
    | nan =>
        have hWord : text.map Char.toLower = ['n', 'a', 'n'] := hSpelled
        rw [hWord, if_neg (by decide), if_pos rfl]
        rfl
    | number n =>
        obtain ⟨hForm, rfl⟩ := hSpelled
        obtain ⟨c, rest, hText, hFirst⟩ := hForm.exists_cons_text
        have hLower : c.toLower ≠ 'i' ∧ c.toLower ≠ 'n' := by
          rcases hFirst with hDigit | rfl
          · rw [toLower_digit hDigit]
            constructor <;> rintro rfl <;> cases hDigit
          · decide
        have hRead : Decimal.read? n.text = some n.decimal :=
          Decimal.read?_eq_some_iff.mpr ⟨n, hForm, rfl, rfl⟩
        have hNotInfinity : ¬ (n.text.map Char.toLower = ['i', 'n', 'f'] ∨
            n.text.map Char.toLower = ['i', 'n', 'f', 'i', 'n', 'i', 't', 'y']) := by
          rw [hText]
          rintro (hWord | hWord) <;> exact hLower.1 (List.cons.inj hWord).1
        have hNotNaN : n.text.map Char.toLower ≠ ['n', 'a', 'n'] := by
          rw [hText]
          exact fun hWord => hLower.2 (List.cons.inj hWord).1
        rw [if_neg hNotInfinity, if_neg hNotNaN, hRead]
        rfl

/-- **A text is read as a floating-point value if it is a literal.** -/
theorem read?_eq_some_iff {text : List Char} {x : Binary f} :
    read? text = some x ↔ ∃ (sign : WrittenSign) (m : FloatMagnitude) (body : List Char),
      m.Spelled body ∧ text = sign.text ++ body ∧ x = m.read sign.negative := by
  constructor
  · intro h
    unfold read? at h
    split at h <;> obtain ⟨m, hSpelled, rfl⟩ := readMagnitude?_eq_some_iff.mp h
    · exact ⟨.minus, m, _, hSpelled, rfl, rfl⟩
    · exact ⟨.plus, m, _, hSpelled, rfl, rfl⟩
    · exact ⟨.none, m, _, hSpelled, rfl, rfl⟩
  · rintro ⟨sign, m, body, hSpelled, rfl, rfl⟩
    have hRead : readMagnitude? sign.negative body = some (m.read sign.negative : Binary f) :=
      readMagnitude?_eq_some_iff.mpr ⟨m, hSpelled, rfl⟩
    cases sign with
    | minus => exact hRead
    | plus => exact hRead
    | none =>
        obtain ⟨-, c, rest, rfl, hMinus, hPlus⟩ := hSpelled.form
        exact (read?_unsigned hMinus hPlus).trans hRead

end Binary

/-- A floating-point literal. -/
structure FloatLiteral where
  sign : WrittenSign
  magnitude : FloatMagnitude

namespace FloatLiteral

/-- The texts of a literal, with white space around it. -/
def Spelled (l : FloatLiteral) (text : List Char) : Prop :=
  ∃ before body after, AllBlank before ∧ l.magnitude.Spelled body ∧ AllBlank after ∧
    text = before ++ (l.sign.text ++ body) ++ after

/-- What a literal denotes. -/
def Denotes {f : FloatWidth} (l : FloatLiteral) (x : Binary f) : Prop :=
  l.magnitude.Denotes l.sign.negative x

/-- A literal is what is left when the white space around it is taken off. -/
theorem spelled_iff {l : FloatLiteral} {text : List Char} :
    l.Spelled text ↔ ∃ body, l.magnitude.Spelled body ∧ trim text = l.sign.text ++ body := by
  constructor
  · rintro ⟨before, body, after, hBefore, hSpelled, hAfter, rfl⟩
    obtain ⟨hNoBlank, c, rest, hBody, -⟩ := hSpelled.form
    have hSign : NoBlank l.sign.text := by cases l.sign <;> decide
    refine ⟨body, hSpelled, trim_around hBefore hAfter (hSign.append hNoBlank) ?_⟩
    rw [hBody]
    exact List.append_ne_nil_of_right_ne_nil _ (List.cons_ne_nil _ _)
  · rintro ⟨body, hSpelled, hTrim⟩
    obtain ⟨before, after, hBefore, hAfter, hText⟩ := exists_around_trim text
    exact ⟨before, body, after, hBefore, hSpelled, hAfter, hTrim ▸ hText⟩

end FloatLiteral

namespace Scalar

variable {f : FloatWidth} {text : String}

theorem parse_spelled {l : FloatLiteral} (h : l.Spelled text.toList) :
    parse (.float f) text = .ok (.float f (l.magnitude.read l.sign.negative)) := by
  obtain ⟨body, hBody, hTrim⟩ := FloatLiteral.spelled_iff.mp h
  rw [parse_eq_ok_iff, read?, hTrim,
    Binary.read?_eq_some_iff.mpr ⟨l.sign, l.magnitude, body, hBody, rfl, rfl⟩]
  rfl

theorem exists_parse_iff :
    (∃ s, parse (.float f) text = .ok s) ↔ ∃ l : FloatLiteral, l.Spelled text.toList := by
  constructor
  · rintro ⟨s, hParse⟩
    obtain ⟨x, hRead, -⟩ := Option.map_eq_some_iff.mp (parse_eq_ok_iff.mp hParse)
    obtain ⟨sign, m, body, hBody, hTrim, -⟩ := Binary.read?_eq_some_iff.mp hRead
    exact ⟨⟨sign, m⟩, FloatLiteral.spelled_iff.mpr ⟨body, hBody, hTrim⟩⟩
  · rintro ⟨l, hSpelled⟩
    exact ⟨_, parse_spelled hSpelled⟩

/-- **Floating-point literals are read by their grammar and rounded once.** A text is read at a
floating-point type if it is the text of a literal, and refused as it is otherwise. What a literal is
read as is what it denotes; for a numeral that is the value nearest to its exact number, whatever the
number of its digits. The narrow format is rounded to at once: there are texts that the wide format
would lead to another value. -/
theorem parse_float (f : FloatWidth) (text : String) :
    ((∃ s, parse (.float f) text = .ok s) ↔ ∃ l : FloatLiteral, l.Spelled text.toList) ∧
      ((¬ ∃ l : FloatLiteral, l.Spelled text.toList) →
        parse (.float f) text = .error (.invalidLiteral f.text text)) ∧
      (∀ l : FloatLiteral, l.Spelled text.toList →
        ∃ x, parse (.float f) text = .ok (.float f x) ∧ l.Denotes x) ∧
      ∃ text' x y, parse (.float .f32) text' = .ok (.float .f32 x) ∧
        parse (.float .f64) text' = .ok (.float .f64 y) ∧ x ≠ y.fpconv .f32 := by
  refine ⟨exists_parse_iff, fun hNone => ?_,
    fun l hSpelled => ⟨_, parse_spelled hSpelled, l.magnitude.denotes_read _⟩,
    "1.00000005960464477539062500000000000001", ⟨0x3f800001#32⟩, ⟨0x3ff0000010000000#64⟩, ?_, ?_, ?_⟩
  · exact parse_eq_error_iff.mpr ⟨rfl, fun s hParse => hNone (exists_parse_iff.mp ⟨s, hParse⟩)⟩
  · decide +kernel
  · decide +kernel
  · decide +kernel

end Scalar

end WidthExact
