import Mathlib.Data.List.Forall2
import WidthExact.Json.Parser
import WidthExact.Json.Printer
import WidthExact.Proofs.Text.Digits

/-!
# Written JSON is read back

What the compact writer writes, the reader reads back to the same tree. Each part of a text is read
up to where it ends, whatever stands behind it; only a number has to be followed by a character that
cannot belong to it, as are the comma, the closing brackets and the end of the text.

Trees are `WellFormed` if their numbers have digits where a number needs them and their strings hold
characters only. The trees that the library writes are of this kind.

## Main results

* `readNumber?_text`, `readStringTail?_written` — numbers and strings.
* `readSequence?_separated` — elements between brackets.
* `read?_compact` — whole texts.
-/

namespace WidthExact

open Text

/-! ## Well-formed trees -/

/-- A number that can be written: digits before the point, without a needless zero in front, and
digits in the exponent if there is one. -/
structure JsonNumber.WellFormed (n : JsonNumber) : Prop where
  whole : AllDigits n.whole
  whole_ne_nil : n.whole ≠ []
  whole_lead : n.whole = ['0'] ∨ n.whole.head? ≠ some '0'
  fraction : AllDigits n.fraction
  exponent : ∀ negative digits, n.exponent = some (negative, digits) →
    AllDigits digits ∧ digits ≠ []

/-- A tree whose numbers can be written and whose strings are texts. -/
inductive Json.WellFormed : Json → Prop where
  | null : WellFormed .null
  | bool (value : Bool) : WellFormed (.bool value)
  | number {n : JsonNumber} (h : n.WellFormed) : WellFormed (.number n)
  | string (text : String) : WellFormed (.string (.ofText text))
  | array {items : List Json} (h : ∀ item ∈ items, item.WellFormed) : WellFormed (.array items)
  | object {fields : List (JsonString × Json)}
    (hNames : ∀ field ∈ fields, ∃ text, field.1 = .ofText text)
    (hValues : ∀ field ∈ fields, field.2.WellFormed) : WellFormed (.object fields)

namespace Json

theorem skipSpace_cons {c : Char} (h : isSpace c = false) (rest : List Char) :
    skipSpace (c :: rest) = c :: rest :=
  List.dropWhile_cons_of_neg (by simp [h])

/-- White space only. -/
def AllSpace (text : List Char) : Prop := ∀ c ∈ text, isSpace c = true

instance (text : List Char) : Decidable (AllSpace text) :=
  decidable_of_iff (text.all isSpace = true) List.all_eq_true

theorem allSpace_nil : AllSpace [] := nofun

theorem skipSpace_append {space : List Char} (h : AllSpace space) (text : List Char) :
    skipSpace (space ++ text) = skipSpace text :=
  List.dropWhile_append_of_pos h

/-! ## Numbers -/

/-- Whether a number that stands before the text ends there. -/
def endsNumber (rest : List Char) : Bool :=
  rest.head?.all fun c => !c.isDigit && c != '.' && c != 'e' && c != 'E'

variable {digits rest : List Char}

theorem readDigits?_append (h : AllDigits digits) (hNonempty : digits ≠ [])
    (hRest : rest.head?.all (!·.isDigit) = true) :
    readDigits? (digits ++ rest) = some (digits, rest) := by
  rw [readDigits?, span_digits h hRest]
  exact if_neg (by simpa using hNonempty)

/-- The digits behind the point, with the point, as they are written. -/
def fractionText (fraction : List Char) : List Char :=
  if fraction.isEmpty then [] else '.' :: fraction

/-- The exponent as it is written. -/
def exponentText : Option (Bool × List Char) → List Char
  | none => []
  | some (negative, digits) => 'e' :: (if negative then '-' else '+') :: digits

theorem text_number (n : JsonNumber) :
    n.text = (if n.negative then ['-'] else []) ++ n.whole ++ fractionText n.fraction
      ++ exponentText n.exponent := by
  cases n
  rfl

theorem readExponent?_exponentText {exponent : Option (Bool × List Char)}
    (h : ∀ negative digits, exponent = some (negative, digits) → AllDigits digits ∧ digits ≠ [])
    (hRest : endsNumber rest = true) :
    readExponent? (exponentText exponent ++ rest) = some (exponent, rest) := by
  cases exponent with
  | none =>
      cases rest with
      | nil => rfl
      | cons c rest =>
          have hEnds : ¬ (c = 'e' ∨ c = 'E') := by
            rintro (rfl | rfl) <;> cases hRest
          show readExponent? (c :: rest) = some (none, c :: rest)
          rw [readExponent?, if_neg hEnds]
  | some written =>
      obtain ⟨negative, digits⟩ := written
      obtain ⟨hDigits, hNonempty⟩ := h negative digits rfl
      have hDigit : rest.head?.all (!·.isDigit) = true := by
        cases rest with
        | nil => rfl
        | cons c rest =>
            simp only [endsNumber, List.head?_cons, Option.all_some, Bool.and_eq_true] at hRest ⊢
            exact hRest.1.1.1
      show readExponent? ('e' :: (if negative then '-' else '+') :: (digits ++ rest)) = _
      rw [readExponent?, if_pos (Or.inl rfl)]
      cases negative <;>
        simp only [readSign, Bool.false_eq_true, if_false, if_true,
          readDigits?_append hDigits hNonempty hDigit, Option.map_some]

theorem head?_exponentText_append {exponent : Option (Bool × List Char)}
    (hRest : endsNumber rest = true) :
    (exponentText exponent ++ rest).head?.all (fun c => !c.isDigit && c != '.') = true := by
  cases exponent with
  | none =>
      cases rest with
      | nil => rfl
      | cons c rest =>
          simp only [endsNumber, List.head?_cons, Option.all_some, Bool.and_eq_true] at hRest
          exact Bool.and_eq_true_iff.mpr hRest.1.1
  | some written => rfl

theorem readFraction?_fractionText {fraction : List Char} (h : AllDigits fraction)
    (hRest : rest.head?.all (fun c => !c.isDigit && c != '.') = true) :
    readFraction? (fractionText fraction ++ rest) = some (fraction, rest) := by
  cases fraction with
  | nil =>
      cases rest with
      | nil => rfl
      | cons c rest =>
          have hPoint : c ≠ '.' := by
            rintro rfl
            cases hRest
          show readFraction? (c :: rest) = some ([], c :: rest)
          unfold readFraction?
          split
          · next hText => exact absurd (List.cons.inj hText).1 hPoint
          · rfl
  | cons digit fraction =>
      refine readDigits?_append h (List.cons_ne_nil digit fraction) ?_
      cases rest with
      | nil => rfl
      | cons c rest => exact (Bool.and_eq_true_iff.mp hRest).1

theorem readWhole?_append (h : AllDigits digits) (hNonempty : digits ≠ [])
    (hLead : digits = ['0'] ∨ digits.head? ≠ some '0')
    (hRest : rest.head?.all (!·.isDigit) = true) :
    readWhole? (digits ++ rest) = some (digits, rest) := by
  rw [readWhole?, readDigits?_append h hNonempty hRest]
  exact Option.filter_some_pos (by simpa using hLead)

/-- Behind the digits before the point stands no digit. -/
theorem head?_fractionText_append {fraction : List Char}
    (hRest : rest.head?.all (fun c => !c.isDigit && c != '.') = true) :
    (fractionText fraction ++ rest).head?.all (!·.isDigit) = true := by
  cases fraction with
  | nil =>
      cases rest with
      | nil => rfl
      | cons c rest => exact (Bool.and_eq_true_iff.mp hRest).1
  | cons digit fraction => rfl

/-- A number begins with a digit or a minus sign. -/
theorem exists_cons_text {n : JsonNumber} (h : n.WellFormed) :
    ∃ c rest, n.text = c :: rest ∧ (c = '-' ∨ c.isDigit = true) := by
  rw [text_number]
  cases n.negative with
  | true => exact ⟨'-', _, rfl, .inl rfl⟩
  | false =>
      cases hWhole : n.whole with
      | nil => exact absurd hWhole h.whole_ne_nil
      | cons c whole => exact ⟨c, _, rfl, .inr (h.whole c (hWhole ▸ List.mem_cons_self))⟩

/-- The sign is read first. -/
theorem readNumber?_sign (negative : Bool) {text : List Char} (h : text.head? ≠ some '-') :
    readNumber? ((if negative then ['-'] else []) ++ text) = (do
      let (whole, text) ← readWhole? text
      let (fraction, text) ← readFraction? text
      let (exponent, text) ← readExponent? text
      return (⟨negative, whole, fraction, exponent⟩, text)) := by
  cases negative with
  | true => rfl
  | false =>
      cases text with
      | nil => rfl
      | cons c text =>
          have hMinus : c ≠ '-' := fun hc => h (hc ▸ rfl)
          show readNumber? (c :: text) = _
          unfold readNumber?
          simp only [List.cons.injEq, hMinus, false_and, imp_self, implies_true]

/-- **A written number is read back**, where it ends. -/
theorem readNumber?_text {n : JsonNumber} (h : n.WellFormed) (hRest : endsNumber rest = true) :
    readNumber? (n.text ++ rest) = some (n, rest) := by
  have hExponent := readExponent?_exponentText h.exponent hRest
  have hHead : (exponentText n.exponent ++ rest).head?.all (fun c => !c.isDigit && c != '.') = true :=
    head?_exponentText_append hRest
  have hFraction := readFraction?_fractionText h.fraction hHead
  have hWhole := readWhole?_append h.whole h.whole_ne_nil h.whole_lead
    (@head?_fractionText_append _ n.fraction hHead)
  have hMinus : (n.whole ++ (fractionText n.fraction ++ (exponentText n.exponent ++ rest))).head? ≠
      some '-' := by
    obtain ⟨c, whole, hCons⟩ := List.exists_cons_of_ne_nil h.whole_ne_nil
    have hDigit : c.isDigit = true := h.whole c (hCons ▸ List.mem_cons_self)
    rw [hCons]
    rintro hEq
    rw [Option.some.inj hEq] at hDigit
    cases hDigit
  rw [text_number]
  simp only [List.append_assoc, readNumber?_sign n.negative hMinus, hWhole, hFraction, hExponent,
    bind, Option.bind, pure]

/-! ## Strings -/

/-- The escape of a control character. -/
theorem readStringTail?_control {c : Char} (h : c.toNat < 0x20) (rest : List Char) :
    readStringTail? ('\\' :: 'u' :: hexFixed 4 c.toNat ++ rest) =
      (readStringTail? rest).map fun (tail, rest) => (.char c :: tail, rest) := by
  have hDigits : ∀ n < 0x20, readHex? (hexFixed 4 n) = some n := by decide
  have hFour : hexFixed 4 c.toNat = [hexDigit (c.toNat / 16 / 16 / 16 % 16),
      hexDigit (c.toNat / 16 / 16 % 16), hexDigit (c.toNat / 16 % 16), hexDigit (c.toNat % 16)] :=
    rfl
  have hRead := hDigits _ h
  rw [hFour] at hRead ⊢
  have hCode : ∀ tail, consCode c.toNat tail = .char c :: tail := by
    intro tail
    have hHigh : isHighSurrogate c.toNat = false := by
      rw [isHighSurrogate, decide_eq_false (by omega), Bool.false_and]
    have hLow : isLowSurrogate c.toNat = false := by
      rw [isLowSurrogate, decide_eq_false (by omega), Bool.false_and]
    unfold consCode
    rw [hHigh, hLow, Char.ofNat_toNat]
    rfl
  show readStringTail? ('\\' :: 'u' :: _ :: _ :: _ :: _ :: rest) = _
  rw [readStringTail?, hRead, Option.bind_some]
  simp only [hCode]

/-- A character that is written as it is. -/
theorem readStringTail?_plain {c : Char} (hQuote : c ≠ '"') (hSlash : c ≠ '\\')
    (hPrintable : ¬ c.toNat < 0x20) (rest : List Char) :
    readStringTail? (c :: rest) =
      (readStringTail? rest).map fun (tail, rest) => (.char c :: tail, rest) := by
  have hNot : ¬ (c = '\\' ∨ c.toNat < 0x20) := not_or.mpr ⟨hSlash, hPrintable⟩
  rw [readStringTail?, if_neg hNot]
  · exact hQuote
  · rintro _ _ _ _ _ rfl
    exact absurd rfl hSlash
  · rintro _ _ rfl
    exact absurd rfl hSlash

/-- A written character is read back. -/
theorem readStringTail?_char (c : Char) (rest : List Char) :
    readStringTail? (JsonChar.text (.char c) ++ rest) =
      (readStringTail? rest).map fun (tail, rest) => (.char c :: tail, rest) := by
  unfold JsonChar.text
  split
  · next hCode => cases hCode
  · next hChar => cases hChar; rfl
  · next hChar => cases hChar; rfl
  · next hChar => cases hChar; rfl
  · next hChar => cases hChar; rfl
  · next hChar => cases hChar; rfl
  · next hChar => cases hChar; rfl
  · next hChar => cases hChar; rfl
  · next hQuote hSlash _ _ _ _ _ hChar =>
      obtain rfl := JsonChar.char.inj hChar
      split
      · next hControl => exact readStringTail?_control hControl rest
      · next hPrintable =>
          exact readStringTail?_plain hQuote hSlash hPrintable rest

/-- **A written string is read back**, behind its opening quote. -/
theorem readStringTail?_written (text : String) (rest : List Char) :
    readStringTail? ((JsonString.ofText text).flatMap JsonChar.text ++ '"' :: rest) =
      some (JsonString.ofText text, rest) := by
  unfold JsonString.ofText
  induction text.toList with
  | nil => rfl
  | cons c chars ih =>
      rw [List.map_cons, List.flatMap_cons, List.append_assoc, readStringTail?_char, ih,
        Option.map_some]

theorem written_append (s : JsonString) (rest : List Char) :
    s.written ++ rest = '"' :: (s.flatMap JsonChar.text ++ '"' :: rest) := by
  rw [JsonString.written, List.cons_append, List.cons_append, List.append_assoc,
    List.singleton_append]

/-! ## Elements between brackets -/

/-- Texts with commas between them, and the bracket that closes them. -/
def separated (close : Char) : List (List Char) → List Char
  | [] => [close]
  | [text] => text ++ [close]
  | text :: texts => text ++ ',' :: separated close texts

theorem separated_cons (close : Char) (text next : List Char) (texts : List (List Char)) :
    separated close (text :: next :: texts) = text ++ ',' :: separated close (next :: texts) := rfl

theorem compactItems_eq (items : List Json) :
    compactItems items = separated ']' (items.map compact) := by
  induction items with
  | nil => rfl
  | cons item items ih =>
      cases items with
      | nil => rfl
      | cons next items =>
          show item.compact ++ ',' :: compactItems (next :: items) = _
          rw [ih]
          rfl

/-- A field as it is written, with white space behind the colon. -/
def fieldText (space : List Char) (print : Json → List Char) (field : JsonString × Json) : List Char :=
  field.1.written ++ ':' :: (space ++ print field.2)

theorem compactFields_eq (fields : List (JsonString × Json)) :
    compactFields fields = separated '\x7d' (fields.map (fieldText [] compact)) := by
  induction fields with
  | nil => rfl
  | cons field fields ih =>
      cases fields with
      | nil => rfl
      | cons next fields =>
          show fieldText [] compact field ++ ',' :: compactFields (next :: fields) = _
          rw [ih]
          rfl

theorem length_le_fieldText (space : List Char) (print : Json → List Char)
    (field : JsonString × Json) : (print field.2).length ≤ (fieldText space print field).length := by
  rw [fieldText, List.length_append, List.length_cons, List.length_append]
  omega

/-- Texts with white space before each and behind the last. -/
def spaced (space last : List Char) : List (List Char) → List (List Char)
  | [] => []
  | [text] => [space ++ text ++ last]
  | text :: texts => (space ++ text) :: spaced space last texts

theorem spaced_nil (texts : List (List Char)) : spaced [] [] texts = texts := by
  induction texts with
  | nil => rfl
  | cons text texts ih =>
      cases texts with
      | nil => exact congrArg (fun text => [text]) (List.append_nil text)
      | cons next texts => exact congrArg (text :: ·) ih

theorem length_le_separated (close : Char) (texts : List (List Char)) :
    texts.length ≤ (separated close texts).length := by
  induction texts with
  | nil => exact Nat.zero_le _
  | cons text texts ih =>
      cases texts with
      | nil => simp [separated]
      | cons next texts =>
          rw [separated_cons, List.length_append, List.length_cons, List.length_cons]
          exact Nat.le_trans (Nat.succ_le_succ ih) (Nat.le_add_left _ _)

/-- A text between commas is no longer than the whole. -/
theorem length_le_separated_of_mem (close : Char) (space last : List Char) {text : List Char}
    {texts : List (List Char)} (h : text ∈ texts) :
    text.length ≤ (separated close (spaced space last texts)).length := by
  induction texts with
  | nil => cases h
  | cons first texts ih =>
      cases texts with
      | nil =>
          obtain rfl := List.mem_singleton.mp h
          rw [spaced, separated]
          simp only [List.length_append]
          omega
      | cons next texts =>
          have hMore : separated close (spaced space last (first :: next :: texts)) =
              (space ++ first) ++ ',' :: separated close (spaced space last (next :: texts)) := by
            cases texts <;> rfl
          rw [hMore, List.length_append, List.length_append, List.length_cons]
          rcases List.mem_cons.mp h with rfl | h
          · omega
          · exact Nat.le_trans (ih h) (by omega)

section

variable {α : Type} {element : List Char → Option (α × List Char)} {close : Char}

/-- A text from which an element is read, up to a comma or the closing bracket. There may be white
space around it, of which that behind it is left. -/
structure IsElement (element : List Char → Option (α × List Char)) (close : Char) (x : α)
    (text : List Char) : Prop where
  head : ∃ c tail, skipSpace text = c :: tail ∧ c ≠ close
  read : ∀ c after, c = ',' ∨ c = close →
    ∃ rest, element (text ++ c :: after) = some (x, rest) ∧ skipSpace rest = c :: after

/-- The last element stands before the closing bracket. -/
theorem readElements?_last {x : α} {text before rest : List Char}
    (h : element text = some (x, before)) (hClose : skipSpace before = close :: rest) (fuel : Nat) :
    readElements? element close (fuel + 1) text = some ([x], rest) := by
  simp [readElements?, h, hClose]

/-- Any other stands before a comma. -/
theorem readElements?_more (hNotComma : close ≠ ',') {x : α} {text before rest : List Char}
    (h : element text = some (x, before)) (hComma : skipSpace before = ',' :: rest) (fuel : Nat) :
    readElements? element close (fuel + 1) text =
      (readElements? element close fuel rest).map fun (others, rest) => (x :: others, rest) := by
  simp only [readElements?, h, hComma, hNotComma.symm, bind, Option.bind, if_true, if_false, pure]
  cases readElements? element close fuel rest <;> rfl

/-- Elements that are read one by one are read with commas between them. -/
theorem readElements?_separated (hNotComma : close ≠ ',') (rest : List Char) {xs : List α}
    {texts : List (List Char)} (h : List.Forall₂ (IsElement element close) xs texts)
    (hNonempty : xs ≠ []) : ∀ fuel, xs.length ≤ fuel →
      readElements? element close fuel (separated close texts ++ rest) = some (xs, rest) := by
  induction h with
  | nil => exact absurd rfl hNonempty
  | @cons x text xs texts hFirst hOthers ih =>
      intro fuel hFuel
      obtain ⟨fuel, rfl⟩ := Nat.exists_eq_add_of_le' (Nat.lt_of_lt_of_le (Nat.succ_pos _) hFuel)
      cases hOthers with
      | nil =>
          obtain ⟨before, hRead, hClose⟩ := hFirst.read close rest (.inr rfl)
          show readElements? element close (fuel + 1) (text ++ [close] ++ rest) = _
          rw [List.append_assoc]
          exact readElements?_last hRead hClose fuel
      | cons hNext hOthers =>
          have hRest := ih (List.cons_ne_nil _ _) fuel (Nat.le_of_succ_le_succ hFuel)
          obtain ⟨before, hRead, hComma⟩ := hFirst.read ',' _ (.inl rfl)
          rw [separated_cons, List.append_assoc, List.cons_append,
            readElements?_more hNotComma hRead hComma, hRest]
          rfl

/-- **Elements between brackets are read back.** -/
theorem readSequence?_separated (hClose : isSpace close = false) (hNotComma : close ≠ ',')
    (rest : List Char) {xs : List α} {texts : List (List Char)}
    (h : List.Forall₂ (IsElement element close) xs texts) :
    readSequence? element close (separated close texts ++ rest) = some (xs, rest) := by
  have hFuel : xs.length ≤ (separated close texts ++ rest).length := by
    rw [List.length_append, h.length_eq]
    exact Nat.le_trans (length_le_separated close texts) (Nat.le_add_right _ _)
  have hRead := readElements?_separated hNotComma rest h
  cases h with
  | nil =>
      show readSequence? element close (close :: rest) = _
      rw [readSequence?, skipSpace_cons hClose]
      exact if_pos rfl
  | @cons x text xs texts hFirst hOthers =>
      obtain ⟨c, tail, hSkip, hNotClose⟩ := hFirst.head
      have hText : ∃ more, separated close (text :: texts) ++ rest = text ++ more := by
        cases texts with
        | nil => exact ⟨_, List.append_assoc _ _ _⟩
        | cons next texts => exact ⟨_, List.append_assoc _ _ _⟩
      obtain ⟨more, hMore⟩ := hText
      have hSkipMore : skipSpace (separated close (text :: texts) ++ rest) = c :: (tail ++ more) := by
        rw [hMore, skipSpace, List.dropWhile_append, ← skipSpace, hSkip]
        rfl
      rw [readSequence?, hSkipMore]
      show (if c = close then _ else _) = _
      rw [if_neg hNotClose, hRead (List.cons_ne_nil _ _) _ hFuel]

/-- White space around elements does not matter. -/
theorem forall₂_isElement_spaced {space last : List Char} (hLast : AllSpace last)
    {print : α → List Char} {xs : List α}
    (h : ∀ x ∈ xs, ∀ behind, AllSpace behind → IsElement element close x (space ++ print x ++ behind)) :
    List.Forall₂ (IsElement element close) xs (spaced space last (xs.map print)) := by
  induction xs with
  | nil => exact .nil
  | cons x xs ih =>
      have hOthers := ih fun y hy => h y (List.mem_cons_of_mem x hy)
      cases xs with
      | nil => exact .cons (h x List.mem_cons_self last hLast) .nil
      | cons next xs =>
          have hFirst := h x List.mem_cons_self [] allSpace_nil
          rw [List.append_nil] at hFirst
          exact .cons hFirst hOthers

end

/-! ## Values -/

/-- The first character of a number is no other value's. -/
theorem not_numberHead : ∀ c ∈ [' ', '\n', '\t', '\r', 'n', 't', 'f', '"', '[', '\x7b', ']'],
    ¬ (c = '-' ∨ c.isDigit = true) := by
  simp [Char.isDigit]

theorem ne_of_numberHead {c : Char} (hHead : c = '-' ∨ c.isDigit = true) :
    ∀ d ∈ [' ', '\n', '\t', '\r', 'n', 't', 'f', '"', '[', '\x7b', ']'], c ≠ d := by
  rintro d hd rfl
  exact not_numberHead c hd hHead

theorem isSpace_numberHead {c : Char} (hHead : c = '-' ∨ c.isDigit = true) : isSpace c = false := by
  have hNot := ne_of_numberHead hHead
  simp [isSpace, hNot]

theorem readValue?_number {c : Char} (hHead : c = '-' ∨ c.isDigit = true) (fuel : Nat)
    (text : List Char) :
    readValue? (fuel + 1) (c :: text) =
      (readNumber? (c :: text)).map fun (n, rest) => (.number n, rest) := by
  have hNot := ne_of_numberHead hHead
  simp only [List.forall_mem_cons] at hNot
  rw [readValue?, skipSpace_cons (isSpace_numberHead hHead)]
  simp [hNot]

/-- A value is written from a character on that is neither white space nor a closing bracket. -/
theorem exists_cons_compact {json : Json} (h : json.WellFormed) :
    ∃ c text, json.compact = c :: text ∧ isSpace c = false ∧ c ≠ ']' := by
  cases h with
  | null => exact ⟨'n', _, rfl, rfl, by decide⟩
  | bool value => cases value <;> exact ⟨_, _, rfl, rfl, by decide⟩
  | number h =>
      obtain ⟨c, text, hText, hHead⟩ := exists_cons_text h
      exact ⟨c, text, hText, isSpace_numberHead hHead, ne_of_numberHead hHead _ (by decide)⟩
  | string text => exact ⟨'"', _, rfl, rfl, by decide⟩
  | array h => exact ⟨'[', _, rfl, rfl, by decide⟩
  | object hNames hValues => exact ⟨'\x7b', _, rfl, rfl, by decide⟩

/-- White space behind a number ends it. -/
theorem endsNumber_space {c : Char} (h : isSpace c = true) (rest : List Char) :
    endsNumber (c :: rest) = true := by
  simp only [isSpace, Bool.or_eq_true, decide_eq_true_eq] at h
  rcases h with ((rfl | rfl) | rfl) | rfl <;> rfl

/-- And so does what stands behind an element. -/
theorem endsNumber_append {space : List Char} (hSpace : AllSpace space) {c close : Char}
    (hClose : close = ']' ∨ close = '\x7d') (h : c = ',' ∨ c = close) (after : List Char) :
    endsNumber (space ++ c :: after) = true := by
  cases space with
  | nil =>
      rcases h with rfl | rfl
      · rfl
      · rcases hClose with rfl | rfl <;> rfl
  | cons first space => exact endsNumber_space (hSpace first List.mem_cons_self) _

/-- White space before a value is passed over. -/
theorem readValue?_space {space : List Char} (h : AllSpace space) (fuel : Nat) (text : List Char) :
    readValue? fuel (space ++ text) = readValue? fuel text := by
  cases fuel with
  | zero => rfl
  | succ fuel => rw [readValue?, readValue?, skipSpace_append h]

/-- A written field is read back if its value is. -/
theorem readField?_fieldText (name : String) {value : Json} {print : Json → List Char} {fuel : Nat}
    {before space : List Char} (hBefore : AllSpace before) (hSpace : AllSpace space)
    (h : readValue? fuel (print value ++ rest) = some (value, rest)) :
    readField? (readValue? fuel) (before ++ (fieldText space print (.ofText name, value) ++ rest)) =
      some ((.ofText name, value), rest) := by
  have hText : fieldText space print (.ofText name, value) ++ rest = '"' ::
      ((JsonString.ofText name).flatMap JsonChar.text ++ '"' :: ':' ::
        (space ++ (print value ++ rest))) := by
    rw [fieldText, List.append_assoc, written_append, List.cons_append, List.append_assoc]
  have hQuote : isSpace '"' = false := by decide
  have hColon : isSpace ':' = false := by decide
  rw [hText]
  simp only [readField?, skipSpace_append hBefore, skipSpace_cons hQuote, skipSpace_cons hColon,
    readString?, readStringTail?_written, readValue?_space hSpace, h, bind, Option.bind, pure]

section

variable {print : Json → List Char} {space last : List Char}

/-- An array is read back if its items are. -/
theorem readValue?_array {items : List Json} (hSpace : AllSpace space) (hLast : AllSpace last)
    (hHead : ∀ item ∈ items, ∃ c text, print item = c :: text ∧ isSpace c = false ∧ c ≠ ']')
    (hItems : ∀ item ∈ items, ∀ fuel rest, (print item).length ≤ fuel → endsNumber rest = true →
      readValue? (fuel + 1) (print item ++ rest) = some (item, rest)) {fuel : Nat} (rest : List Char)
    (hFuel : (separated ']' (spaced space last (items.map print))).length < fuel) :
    readValue? (fuel + 1) ('[' :: separated ']' (spaced space last (items.map print)) ++ rest) =
      some (.array items, rest) := by
  obtain ⟨depth, rfl⟩ := Nat.exists_eq_succ_of_ne_zero (Nat.ne_zero_of_lt hFuel)
  have hElements : List.Forall₂ (IsElement (readValue? (depth + 1)) ']') items
      (spaced space last (items.map print)) := by
    refine forall₂_isElement_spaced hLast fun item hItem behind hBehind => ⟨?_, ?_⟩
    · obtain ⟨c, text, hText, hNotSpace, hNotClose⟩ := hHead item hItem
      refine ⟨c, text ++ behind, ?_, hNotClose⟩
      rw [List.append_assoc, skipSpace_append hSpace, hText, List.cons_append,
        skipSpace_cons hNotSpace]
    · intro c after hc
      have hNotSpace : isSpace c = false := by rcases hc with rfl | rfl <;> rfl
      have hLength := length_le_separated_of_mem ']' space last
        (List.mem_map_of_mem (f := print) hItem)
      refine ⟨behind ++ c :: after, ?_, ?_⟩
      · rw [List.append_assoc, List.append_assoc, readValue?_space hSpace]
        exact hItems item hItem depth _ (by omega) (endsNumber_append hBehind (.inl rfl) hc after)
      · rw [skipSpace_append hBehind, skipSpace_cons hNotSpace]
  have hRead := readSequence?_separated (by decide) (by decide) rest hElements
  have hBracket : isSpace '[' = false := by decide
  rw [List.cons_append, readValue?, skipSpace_cons hBracket]
  simp only [hRead, Option.map_some]

/-- An object is read back if the values of its fields are. -/
theorem readValue?_object {fields : List (JsonString × Json)} {colon : List Char}
    (hSpace : AllSpace space) (hLast : AllSpace last) (hColon : AllSpace colon)
    (hNames : ∀ field ∈ fields, ∃ text, field.1 = .ofText text)
    (hValues : ∀ field ∈ fields, ∀ fuel rest, (print field.2).length ≤ fuel →
      endsNumber rest = true →
        readValue? (fuel + 1) (print field.2 ++ rest) = some (field.2, rest))
    {fuel : Nat} (rest : List Char)
    (hFuel : (separated '\x7d' (spaced space last (fields.map (fieldText colon print)))).length <
      fuel) :
    readValue? (fuel + 1)
        ('\x7b' :: separated '\x7d' (spaced space last (fields.map (fieldText colon print))) ++
          rest) = some (.object fields, rest) := by
  obtain ⟨depth, rfl⟩ := Nat.exists_eq_succ_of_ne_zero (Nat.ne_zero_of_lt hFuel)
  have hElements : List.Forall₂ (IsElement (readField? (readValue? (depth + 1))) '\x7d') fields
      (spaced space last (fields.map (fieldText colon print))) := by
    refine forall₂_isElement_spaced hLast fun field hField behind hBehind => ⟨?_, ?_⟩
    · exact ⟨'"', _, by rw [List.append_assoc, skipSpace_append hSpace]; rfl, by decide⟩
    · obtain ⟨name, value⟩ := field
      obtain ⟨text, rfl⟩ := hNames _ hField
      intro c after hc
      have hNotSpace : isSpace c = false := by rcases hc with rfl | rfl <;> rfl
      have hLength := length_le_separated_of_mem '\x7d' space last
        (List.mem_map_of_mem (f := fieldText colon print) hField)
      have hPart := length_le_fieldText colon print (.ofText text, value)
      refine ⟨behind ++ c :: after, ?_, ?_⟩
      · rw [List.append_assoc, List.append_assoc]
        exact readField?_fieldText text hSpace hColon (hValues _ hField depth _ (by omega)
          (endsNumber_append hBehind (.inr rfl) hc after))
      · rw [skipSpace_append hBehind, skipSpace_cons hNotSpace]
  have hRead := readSequence?_separated (by decide) (by decide) rest hElements
  have hBrace : isSpace '\x7b' = false := by decide
  rw [List.cons_append, readValue?, skipSpace_cons hBrace]
  simp only [hRead, Option.map_some]

end

/-- **A written value is read back**, however deep it is nested. -/
theorem readValue?_compact {json : Json} (h : json.WellFormed) :
    ∀ (fuel : Nat) (rest : List Char), json.compact.length ≤ fuel → endsNumber rest = true →
      readValue? (fuel + 1) (json.compact ++ rest) = some (json, rest) := by
  induction h with
  | null => exact fun _ _ _ _ => rfl
  | bool value => cases value <;> exact fun _ _ _ _ => rfl
  | @number n h =>
      intro fuel rest _ hRest
      obtain ⟨c, text, hText, hHead⟩ := exists_cons_text h
      have hRead := readNumber?_text h hRest
      show readValue? (fuel + 1) (n.text ++ rest) = _
      rw [hText, List.cons_append] at hRead ⊢
      rw [readValue?_number hHead, hRead]
      rfl
  | string text =>
      intro fuel rest _ _
      have hQuote : isSpace '"' = false := by decide
      show readValue? (fuel + 1) ((JsonString.ofText text).written ++ rest) = _
      rw [written_append, readValue?, skipSpace_cons hQuote]
      simp only [readStringTail?_written, Option.map_some]
  | @array items h ih =>
      intro fuel rest hFuel _
      have hText : (Json.array items).compact =
          '[' :: separated ']' (spaced [] [] (items.map compact)) := by
        rw [spaced_nil]
        exact congrArg ('[' :: ·) (compactItems_eq items)
      rw [hText] at hFuel ⊢
      exact readValue?_array allSpace_nil allSpace_nil
        (fun item hItem => exists_cons_compact (h item hItem)) ih rest hFuel
  | @object fields hNames hValues ih =>
      intro fuel rest hFuel _
      have hText : (Json.object fields).compact =
          '\x7b' :: separated '\x7d' (spaced [] [] (fields.map (fieldText [] compact))) := by
        rw [spaced_nil]
        exact congrArg ('\x7b' :: ·) (compactFields_eq fields)
      rw [hText] at hFuel ⊢
      exact readValue?_object allSpace_nil allSpace_nil allSpace_nil hNames ih rest hFuel

/-- **A written text is read back.** -/
theorem read?_compact {json : Json} (h : json.WellFormed) : read? json.compact = some json := by
  have hRead := readValue?_compact h json.compact.length [] (Nat.le_refl _) rfl
  rw [List.append_nil] at hRead
  rw [read?, hRead]
  rfl

end Json

end WidthExact
