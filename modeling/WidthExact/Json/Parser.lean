import WidthExact.Json.Basic
import WidthExact.Text.Numeral
import WidthExact.Text.Quoted

/-!
# Reading JSON

A strict reader: no trailing comma, no leading zero or plus sign in a number, no control character in
a string, and nothing but white space around the value. Each reader takes a text and gives what it
read together with the rest of the text.
-/

namespace WidthExact.Json

/-- The white space of JSON. -/
def isSpace (c : Char) : Bool := c = ' ' || c = '\n' || c = '\t' || c = '\r'

/-- The text behind its leading white space. -/
def skipSpace (text : List Char) : List Char := text.dropWhile isSpace

/-! ## Numbers -/

/-- Digits, at least one. -/
def readDigits? (text : List Char) : Option (List Char × List Char) :=
  let (digits, rest) := text.span Char.isDigit
  if digits.isEmpty then none else some (digits, rest)

/-- The digits before the point: `0`, or digits that do not begin with it. -/
def readWhole? (text : List Char) : Option (List Char × List Char) :=
  (readDigits? text).filter fun (digits, _) => digits = ['0'] || digits.head? ≠ some '0'

/-- The digits behind a point, or none without one. -/
def readFraction? : List Char → Option (List Char × List Char)
  | '.' :: rest => readDigits? rest
  | rest => some ([], rest)

/-- The sign of an exponent. -/
def readSign : List Char → Bool × List Char
  | '-' :: rest => (true, rest)
  | '+' :: rest => (false, rest)
  | rest => (false, rest)

/-- The exponent, if there is one. -/
def readExponent? : List Char → Option (Option (Bool × List Char) × List Char)
  | [] => some (none, [])
  | c :: rest =>
    if c = 'e' ∨ c = 'E' then
      let (negative, rest) := readSign rest
      (readDigits? rest).map fun (digits, rest) => (some (negative, digits), rest)
    else some (none, c :: rest)

/-- A number. -/
def readNumber? (text : List Char) : Option (JsonNumber × List Char) := do
  let (negative, text) := match text with
    | '-' :: rest => (true, rest)
    | _ => (false, text)
  let (whole, text) ← readWhole? text
  let (fraction, text) ← readFraction? text
  let (exponent, text) ← readExponent? text
  return (⟨negative, whole, fraction, exponent⟩, text)

/-! ## Strings -/

/-- The character that a letter behind a backslash stands for. -/
def ofEscapeLetter? : Char → Option Char
  | '"' => some '"'
  | '\\' => some '\\'
  | '/' => some '/'
  | 'b' => some '\x08'
  | 'f' => some '\x0c'
  | 'n' => some '\n'
  | 'r' => some '\r'
  | 't' => some '\t'
  | _ => none

/-- Whether a code is that of the first half of a surrogate pair. -/
def isHighSurrogate (code : Nat) : Bool := 0xd800 ≤ code && code ≤ 0xdbff

/-- Whether a code is that of the second half of a surrogate pair. -/
def isLowSurrogate (code : Nat) : Bool := 0xdc00 ≤ code && code ≤ 0xdfff

/-- The character that a surrogate pair stands for. -/
def ofSurrogates (high low : Nat) : Char :=
  Char.ofNat (0x10000 + (high - 0xd800) * 0x400 + (low - 0xdc00))

/-- The string with one more 16-bit code in front; the two halves of a surrogate pair are joined. -/
def consCode (code : Nat) (tail : JsonString) : JsonString :=
  if isHighSurrogate code then
    match tail with
    | .surrogate low :: rest =>
      if isLowSurrogate low then .char (ofSurrogates code low) :: rest else .surrogate code :: tail
    | _ => .surrogate code :: tail
  else if isLowSurrogate code then .surrogate code :: tail
  else .char (Char.ofNat code) :: tail

/-- The rest of a string, behind its opening quote and up to its closing one. -/
def readStringTail? : List Char → Option (JsonString × List Char)
  | [] => none
  | '"' :: rest => some ([], rest)
  | '\\' :: 'u' :: a :: b :: c :: d :: rest =>
    (Text.readHex? [a, b, c, d]).bind fun code =>
      (readStringTail? rest).map fun (tail, rest) => (consCode code tail, rest)
  | '\\' :: letter :: rest =>
    (ofEscapeLetter? letter).bind fun c =>
      (readStringTail? rest).map fun (tail, rest) => (.char c :: tail, rest)
  | c :: rest =>
    if c = '\\' ∨ c.toNat < 0x20 then none
    else (readStringTail? rest).map fun (tail, rest) => (.char c :: tail, rest)

/-- A string. -/
def readString? : List Char → Option (JsonString × List Char)
  | '"' :: rest => readStringTail? rest
  | _ => none

/-! ## Values -/

/-- Elements with commas between them, at least one, up to the closing bracket. -/
def readElements? {α : Type} (element : List Char → Option (α × List Char)) (close : Char) :
    (fuel : Nat) → List Char → Option (List α × List Char)
  | 0, _ => none
  | fuel + 1, text => do
    let (first, text) ← element text
    match skipSpace text with
    | [] => none
    | c :: text =>
      if c = close then return ([first], text)
      else if c = ',' then
        let (others, text) ← readElements? element close fuel text
        return (first :: others, text)
      else none

/-- Elements with commas between them, perhaps none, up to the closing bracket. -/
def readSequence? {α : Type} (element : List Char → Option (α × List Char)) (close : Char)
    (text : List Char) : Option (List α × List Char) :=
  match skipSpace text with
  | [] => none
  | c :: rest =>
    if c = close then some ([], rest) else readElements? element close text.length text

/-- A field of an object: a name, a colon and a value. -/
def readField? (value : List Char → Option (Json × List Char)) (text : List Char) :
    Option ((JsonString × Json) × List Char) := do
  let (name, text) ← readString? (skipSpace text)
  match skipSpace text with
  | ':' :: text =>
    let (content, text) ← value text
    return ((name, content), text)
  | _ => none

/-- A value, with white space before it. The fuel bounds how deep it is nested. -/
def readValue? : (fuel : Nat) → List Char → Option (Json × List Char)
  | 0, _ => none
  | fuel + 1, text =>
    match skipSpace text with
    | 'n' :: 'u' :: 'l' :: 'l' :: rest => some (.null, rest)
    | 't' :: 'r' :: 'u' :: 'e' :: rest => some (.bool true, rest)
    | 'f' :: 'a' :: 'l' :: 's' :: 'e' :: rest => some (.bool false, rest)
    | '"' :: rest => (readStringTail? rest).map fun (s, rest) => (.string s, rest)
    | '[' :: rest =>
      (readSequence? (readValue? fuel) ']' rest).map fun (items, rest) => (.array items, rest)
    | '\x7b' :: rest =>
      (readSequence? (readField? (readValue? fuel)) '\x7d' rest).map fun (fields, rest) =>
        (.object fields, rest)
    | other => (readNumber? other).map fun (n, rest) => (.number n, rest)

/-- Reads a text that is one JSON value. Nesting is no deeper than the text is long. -/
def read? (text : List Char) : Option Json :=
  (readValue? (text.length + 1) text).bind fun (value, rest) =>
    if (skipSpace rest).isEmpty then some value else none

end WidthExact.Json
