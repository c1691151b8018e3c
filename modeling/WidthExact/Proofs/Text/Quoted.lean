import WidthExact.Proofs.Text.Base
import WidthExact.Text.Quoted

/-!
# Quoted text on one line, and back

There are three ways to write a character between quotes: itself, a backslash and a letter, and its
code point. `Escape` says so of one character and `Escaped` of a text. What `encode` writes is
`Escaped`, and the rest is proved of that relation, one character at a time with anything behind it:
nothing in a written text ends a line, `decode` reads it back, and each double quote in it is
escaped. So a reader that looks for the closing quote finds it where it is, and the words in front
of a quoted text can be told from it.

## Main results

* `Escaped.oneLine`, `Escaped.decode`, `Escaped.untilQuote` — written text is one line, is read
  back, and ends at its closing quote.
* `quote_injective`, `append_quote_inj` — a quoted text is determined by its characters, and so are
  the words in front of it.
-/

namespace WidthExact.Text

/-! ## Lines -/

/-- Whether a character ends a line: a line feed, a vertical tab, a form feed, a carriage return,
the next line, and the separators of lines and of paragraphs. -/
def endsLine (c : Char) : Bool :=
  (0xa ≤ c.toNat && c.toNat ≤ 0xd) || c.toNat = 0x85 || c.toNat = 0x2028 || c.toNat = 0x2029

/-- No control, and nothing that ends a line. -/
def OneLine (text : List Char) : Prop := ∀ c ∈ text, isControl c = false ∧ endsLine c = false

instance (text : List Char) : Decidable (OneLine text) :=
  List.decidableBAll (fun c => isControl c = false ∧ endsLine c = false) text

theorem inLine_iff {c : Char} : isControl c = false ∧ endsLine c = false ↔
    (0x20 ≤ c.toNat ∧ c.toNat < 0x7f) ∨
      (0xa0 ≤ c.toNat ∧ c.toNat ≠ 0x2028 ∧ c.toNat ≠ 0x2029) := by
  simp only [isControl, endsLine, Bool.or_eq_false_iff, Bool.and_eq_false_iff,
    decide_eq_false_iff_not]
  omega

theorem oneLine_append {text text' : List Char} :
    OneLine (text ++ text') ↔ OneLine text ∧ OneLine text' :=
  List.forall_mem_append

/-- ASCII without its controls stands on one line. -/
theorem oneLine_of_ascii {text : List Char} (h : ∀ c ∈ text, 0x20 ≤ c.toNat ∧ c.toNat < 0x7f) :
    OneLine text :=
  fun c hc => inLine_iff.mpr (.inl (h c hc))

theorem oneLine_digits {digits : List Char} (h : ∀ c ∈ digits, digitValue c < 16) :
    OneLine digits :=
  oneLine_of_ascii fun c hc => ascii_of_digitValue_lt (h c hc)

theorem oneLine_decimal (n : Nat) : OneLine (decimal n) :=
  oneLine_digits fun c hc => (isDigit_iff.mp (allDigits_decimal n c hc)).trans (by decide)

/-- A visible character stands in a line: the two separators are in the table of those without a
visible form. -/
theorem inLine_of_isVisible {c : Char} (h : isVisible c = true) :
    isControl c = false ∧ endsLine c = false := by
  have hSeparators : inRanges unprintableRanges 0x2028 = true ∧
      inRanges unprintableRanges 0x2029 = true := by decide +kernel
  simp only [isVisible, Bool.and_eq_true, Bool.not_eq_true', Bool.or_eq_true, decide_eq_true_eq,
    Bool.or_eq_false_iff] at h
  obtain ⟨hControl, hAscii | ⟨-, hPrintable⟩⟩ := h
  · refine inLine_iff.mpr (.inl ⟨?_, hAscii⟩)
    simp only [isControl, Bool.or_eq_false_iff, decide_eq_false_iff_not] at hControl
    omega
  · have hNotSeparator : c.toNat ≠ 0x2028 ∧ c.toNat ≠ 0x2029 := by
      constructor
      · intro hCode
        rw [hCode, hSeparators.1] at hPrintable
        cases hPrintable
      · intro hCode
        rw [hCode, hSeparators.2] at hPrintable
        cases hPrintable
    refine inLine_iff.mpr ?_
    simp only [isControl, Bool.or_eq_false_iff, Bool.and_eq_false_iff, decide_eq_false_iff_not]
      at hControl
    omega

/-! ## Escapes -/

/-- A way to write a character between double quotes. -/
inductive Escape : Char → List Char → Prop
  /-- A visible character stands for itself, but for the quote and the backslash. -/
  | itself (c : Char) (hVisible : isVisible c = true) (hQuote : c ≠ '"') (hSlash : c ≠ '\\') :
      Escape c [c]
  /-- A backslash and a letter. -/
  | letter (c letter : Char) (h : ofEscapeLetter? letter = some c) : Escape c ['\\', letter]
  /-- The code point in hexadecimal digits. -/
  | code (c : Char) (digits : List Char) (hDigits : DigitsTo 16 digits)
      (hCode : positionalValue 16 digits = c.toNat) :
      Escape c ('\\' :: 'u' :: '\x7b' :: (digits ++ ['\x7d']))

/-- A text and its characters written one behind the other. -/
inductive Escaped : List Char → List Char → Prop
  | nil : Escaped [] []
  | cons {c : Char} {piece text written : List Char} (h : Escape c piece)
      (hRest : Escaped text written) : Escaped (c :: text) (piece ++ written)

theorem ofEscapeLetter?_of_escapeLetter? {c letter : Char} (h : escapeLetter? c = some letter) :
    ofEscapeLetter? letter = some c := by
  unfold escapeLetter? at h
  split at h <;> cases h <;> rfl

theorem escape_encodeChar (c : Char) : Escape c (encodeChar c) := by
  unfold encodeChar
  split
  · next letter hLetter => exact .letter c letter (ofEscapeLetter?_of_escapeLetter? hLetter)
  · next hNone =>
      split
      · next hVisible =>
          refine .itself c hVisible ?_ ?_
          · rintro rfl
            cases hNone
          · rintro rfl
            cases hNone
      · exact .code c _ (digitsTo_hex _) (positionalValue_hex _)

theorem escaped_encode (text : List Char) : Escaped text (encode text) := by
  unfold encode
  induction text with
  | nil => exact .nil
  | cons c text ih => exact .cons (escape_encodeChar c) ih

theorem oneLine_letter {c letter : Char} (h : ofEscapeLetter? letter = some c) :
    OneLine ['\\', letter] := by
  unfold ofEscapeLetter? at h
  split at h <;> first | decide | cases h

theorem Escape.oneLine {c : Char} {piece : List Char} (h : Escape c piece) : OneLine piece := by
  cases h with
  | itself hVisible hQuote hSlash =>
      intro d hd
      rw [List.mem_singleton.mp hd]
      exact inLine_of_isVisible hVisible
  | letter letter h => exact oneLine_letter h
  | code digits hDigits hCode =>
      have hOpen : OneLine ['\\', 'u', '\x7b'] := by decide
      have hClose : OneLine ['\x7d'] := by decide
      exact oneLine_append.mpr ⟨hOpen, oneLine_append.mpr ⟨oneLine_digits hDigits.below, hClose⟩⟩

theorem Escaped.oneLine {text written : List Char} (h : Escaped text written) :
    OneLine written := by
  induction h with
  | nil => exact List.forall_mem_nil _
  | cons h hRest ih => exact oneLine_append.mpr ⟨h.oneLine, ih⟩

/-! ## Reading back -/

theorem charOfCode?_toNat (c : Char) : charOfCode? c.toNat = some c := by
  have hValid : c.toNat.isValidChar := c.valid
  rw [charOfCode?, if_pos hValid, Char.ofNat_toNat]

theorem decodeFrom_digit {d : Char} (h : digitValue d < 16) (code : Option Nat) (rest : List Char) :
    decodeFrom (.digits code) (d :: rest) =
      decodeFrom (.digits (some (16 * code.getD 0 + digitValue d))) rest := by
  have hBrace : d ≠ '\x7d' := by
    rintro rfl
    exact absurd h (by decide)
  have hValue : hexValue? d = some (digitValue d) := hexValue?_eq_some_iff.mpr ⟨h, rfl⟩
  rw [decodeFrom, if_neg hBrace, hValue, Option.bind_some]

/-- By induction on the digits, over the number that stands in front of them. -/
theorem decodeFrom_digits {digits : List Char} (h : ∀ c ∈ digits, digitValue c < 16)
    (start : Nat) (rest : List Char) :
    decodeFrom (.digits (some start)) (digits ++ '\x7d' :: rest) =
      (charOfCode? (start * 16 ^ digits.length + positionalValue 16 digits)).bind fun c =>
        (decodeFrom .plain rest).map (c :: ·) := by
  induction digits generalizing start with
  | nil => simp [decodeFrom, positionalValue_nil]
  | cons d digits ih =>
      obtain ⟨hDigit, hDigits⟩ := List.forall_mem_cons.mp h
      rw [List.cons_append, decodeFrom_digit hDigit, Option.getD_some, ih hDigits,
        positionalValue_behind]

/-- **One character**, whatever stands behind it. -/
theorem Escape.decodeFrom {c : Char} {piece : List Char} (h : Escape c piece) (rest : List Char) :
    decodeFrom .plain (piece ++ rest) = (decodeFrom .plain rest).map (c :: ·) := by
  cases h with
  | itself hVisible hQuote hSlash => simp [Text.decodeFrom, hQuote, hSlash]
  | letter letter h =>
      have hLetter : letter ≠ 'u' := by
        rintro rfl
        cases h
      simp [Text.decodeFrom, hLetter, h]
  | code digits hDigits hCode =>
      obtain ⟨d, digits, rfl⟩ := List.exists_cons_of_ne_nil hDigits.nonempty
      obtain ⟨hFirst, hOthers⟩ := List.forall_mem_cons.mp hDigits.below
      have hOpen :
          Text.decodeFrom .plain ('\\' :: 'u' :: '\x7b' :: (d :: digits ++ ['\x7d']) ++ rest) =
            Text.decodeFrom (.digits none) (d :: (digits ++ '\x7d' :: rest)) := by
        simp [Text.decodeFrom]
      rw [positionalValue_cons] at hCode
      rw [hOpen, decodeFrom_digit hFirst, Option.getD_none, Nat.mul_zero, Nat.zero_add,
        decodeFrom_digits hOthers, hCode, charOfCode?_toNat, Option.bind_some]

theorem Escaped.decode {text written : List Char} (h : Escaped text written) :
    decode written = some text := by
  unfold Text.decode
  induction h with
  | nil => rfl
  | cons h hRest ih => rw [h.decodeFrom, ih, Option.map_some]

/-! ## The closing quote -/

/-- The text up to the first double quote that no backslash escapes, and what stands behind that
quote. -/
def untilQuote : (escaped : Bool) → List Char → Option (List Char × List Char)
  | _, [] => none
  | true, c :: rest => (untilQuote false rest).map fun (text, rest) => (c :: text, rest)
  | false, c :: rest =>
    if c = '"' then some ([], rest)
    else (untilQuote (c = '\\') rest).map fun (text, rest) => (c :: text, rest)

theorem untilQuote_digits {digits : List Char} (h : ∀ c ∈ digits, digitValue c < 16)
    (rest : List Char) :
    untilQuote false (digits ++ rest) =
      (untilQuote false rest).map fun (text, rest) => (digits ++ text, rest) := by
  induction digits with
  | nil => simp
  | cons d digits ih =>
      obtain ⟨hDigit, hDigits⟩ := List.forall_mem_cons.mp h
      have hQuote : d ≠ '"' := by
        rintro rfl
        exact absurd hDigit (by decide)
      have hSlash : d ≠ '\\' := by
        rintro rfl
        exact absurd hDigit (by decide)
      simp [untilQuote, hQuote, hSlash, ih hDigits, Function.comp_def]

theorem Escape.untilQuote {c : Char} {piece : List Char} (h : Escape c piece) (rest : List Char) :
    untilQuote false (piece ++ rest) =
      (untilQuote false rest).map fun (text, rest) => (piece ++ text, rest) := by
  cases h with
  | itself hVisible hQuote hSlash => simp [Text.untilQuote, hQuote, hSlash]
  | letter letter h => simp [Text.untilQuote, Function.comp_def]
  | code digits hDigits hCode =>
      simp [Text.untilQuote, untilQuote_digits hDigits.below, Function.comp_def]

theorem Escaped.untilQuote {text written : List Char} (h : Escaped text written)
    (rest : List Char) : untilQuote false (written ++ '"' :: rest) = some (written, rest) := by
  induction h with
  | nil => rfl
  | cons h hRest ih => rw [List.append_assoc, h.untilQuote, ih, Option.map_some]

theorem Escape.quote_escaped {c : Char} {piece front back : List Char} (h : Escape c piece)
    (hPiece : piece = front ++ '"' :: back) : front.getLast? = some '\\' := by
  have hMem : '"' ∈ piece := by simp [hPiece]
  cases h with
  | itself hVisible hQuote hSlash => exact absurd (List.mem_singleton.mp hMem).symm hQuote
  | letter letter h =>
      -- the quote is the letter, and what is in front of it the backslash
      cases front with
      | nil => cases hPiece
      | cons d front =>
          obtain ⟨rfl, hRest⟩ := List.cons.inj hPiece
          cases front with
          | nil => rfl
          | cons d front => simp at hRest
  | code digits hDigits hCode =>
      have hQuote : '"' ∈ digits := by simpa using hMem
      exact absurd (hDigits.below _ hQuote) (by decide)

/-- Each double quote in a written text stands directly behind a backslash. -/
theorem Escaped.quote_escaped {text written : List Char} (h : Escaped text written) :
    ∀ {front back : List Char}, written = front ++ '"' :: back → front.getLast? = some '\\' := by
  induction h with
  | nil => intro front back hWritten; simp at hWritten
  | cons h hRest ih =>
      intro front back hWritten
      rcases List.append_eq_append_iff.mp hWritten with
        ⟨before, rfl, hBehind⟩ | ⟨behind, hPiece, hBehind⟩
      · rw [List.getLast?_append, ih hBehind]
        rfl
      · cases behind with
        | nil =>
            have hNone : ([] : List Char).getLast? = some '\\' := ih hBehind.symm
            cases hNone
        | cons d behind =>
            rw [List.cons_append] at hBehind
            obtain ⟨rfl, -⟩ := List.cons.inj hBehind
            exact h.quote_escaped hPiece

/-! ## Quotes -/

theorem toList_quote (text : String) :
    (quote text).toList = '"' :: (encode text.toList ++ ['"']) := by
  simp [quote]

theorem oneLine_quote (text : String) : OneLine (quote text).toList := by
  have hQuote : OneLine ['"'] := by decide
  rw [toList_quote, ← List.singleton_append, oneLine_append, oneLine_append]
  exact ⟨hQuote, (escaped_encode _).oneLine, hQuote⟩

theorem encode_injective : Function.Injective encode := by
  intro text text' h
  have hDecode := congrArg decode h
  rw [(escaped_encode text).decode, (escaped_encode text').decode] at hDecode
  exact Option.some.inj hDecode

theorem quote_injective : Function.Injective quote := by
  intro text text' h
  have hChars := congrArg String.toList h
  rw [toList_quote, toList_quote, List.cons.injEq, List.append_left_inj] at hChars
  exact String.toList_inj.mp (encode_injective hChars.2)

/-- Behind the same words, quoted texts differ if the texts do. -/
theorem append_quote_cancel {front : List Char} {text text' : String}
    (h : front ++ (quote text).toList = front ++ (quote text').toList) : text = text' :=
  quote_injective (String.toList_inj.mp (List.append_cancel_left h))

/-- A quoted text does not begin within another one behind words that do not end in a backslash: it
would begin with a double quote that no backslash stands before. -/
theorem eq_of_quote_within {front between text text' : List Char}
    (hLast : (front ++ between).getLast? ≠ some '\\')
    (hSplit : '"' :: encode text = between ++ '"' :: encode text') :
    between = [] ∧ text = text' := by
  cases between with
  | nil => exact ⟨rfl, encode_injective (List.cons.inj hSplit).2⟩
  | cons d between =>
      have hSlash := (escaped_encode text).quote_escaped (List.cons.inj hSplit).2
      rw [List.getLast?_append, List.getLast?_cons, hSlash] at hLast
      exact absurd rfl hLast

/-- So such words and the text that is quoted behind them are both determined by the whole. -/
theorem append_quote_inj {front front' : List Char} {text text' : String}
    (hFront : front.getLast? ≠ some '\\') (hFront' : front'.getLast? ≠ some '\\')
    (h : front ++ (quote text).toList = front' ++ (quote text').toList) :
    front = front' ∧ text = text' := by
  rw [toList_quote, toList_quote, ← List.cons_append, ← List.cons_append, ← List.append_assoc,
    ← List.append_assoc, List.append_left_inj] at h
  rcases List.append_eq_append_iff.mp h with ⟨between, rfl, hSplit⟩ | ⟨between, rfl, hSplit⟩
  · obtain ⟨rfl, hText⟩ := eq_of_quote_within hFront' hSplit
    exact ⟨(List.append_nil front).symm, String.toList_inj.mp hText⟩
  · obtain ⟨rfl, hText⟩ := eq_of_quote_within hFront hSplit
    exact ⟨List.append_nil front', String.toList_inj.mp hText.symm⟩

end WidthExact.Text
