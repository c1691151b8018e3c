import WidthExact.Text.GraphemeExtend
import WidthExact.Text.Numeral
import WidthExact.Text.Unprintable

/-!
# Quoted text

Text between double quotes, in one visible line. A backslash, a double quote and the four most
common controls have an escape of two characters; every other control, every character that is drawn
onto the one before it and every character without a visible form is written by its code point, as in
`\u{200b}`; all else stands for itself.

`encode` writes the part between the quotes and `decode` reads it back.
-/

namespace WidthExact.Text

/-- The letter behind the backslash for the characters that have an escape of two characters. -/
def escapeLetter? : Char → Option Char
  | '\x00' => some '0'
  | '\t' => some 't'
  | '\n' => some 'n'
  | '\r' => some 'r'
  | '"' => some '"'
  | '\\' => some '\\'
  | _ => none

/-- The character that a letter behind a backslash stands for. -/
def ofEscapeLetter? : Char → Option Char
  | '0' => some '\x00'
  | 't' => some '\t'
  | 'n' => some '\n'
  | 'r' => some '\r'
  | '"' => some '"'
  | '\\' => some '\\'
  | _ => none

/-- Whether a character is a control: U+0000 to U+001F and U+007F to U+009F. -/
def isControl (c : Char) : Bool := c.toNat < 0x20 || (0x7f ≤ c.toNat && c.toNat < 0xa0)

/-- Whether a character is one of the two halfwidth sound marks, U+FF9E and U+FF9F. They extend the
letter before them, but fill a cell of their own. -/
def isHalfwidthMark (c : Char) : Bool := 0xff9e ≤ c.toNat && c.toNat ≤ 0xff9f

/-- Whether a character is drawn onto the one before it. -/
def isOverlaid (c : Char) : Bool := inRanges graphemeExtendRanges c.toNat && !isHalfwidthMark c

/-- Whether a character may stand for itself in a visible line. -/
def isVisible (c : Char) : Bool :=
  !isControl c && (c.toNat < 0x7f || !(isOverlaid c || inRanges unprintableRanges c.toNat))

/-- The written form of one character. -/
def encodeChar (c : Char) : List Char :=
  match escapeLetter? c with
  | some letter => ['\\', letter]
  | none => if isVisible c then [c] else '\\' :: 'u' :: '\x7b' :: hex c.toNat ++ ['\x7d']

/-- The written form of a text, without the quotes around it. -/
def encode (text : List Char) : List Char := text.flatMap encodeChar

/-- The character with the given code point, unless it is a surrogate or too large. -/
def charOfCode? (code : Nat) : Option Char :=
  if code.isValidChar then some (Char.ofNat code) else none

/-- Where a reader of written text stands: between characters, behind a backslash, behind `\u`, or
within the digits of a code point, with the number read so far. -/
inductive Position where
  | plain
  | escape
  | opening
  | digits (code : Option Nat)

/-- Reads the rest of a written text; refuses a bare double quote and an unknown escape. -/
def decodeFrom : Position → List Char → Option (List Char)
  | .plain, [] => some []
  | .plain, c :: rest =>
    if c = '\\' then decodeFrom .escape rest
    else if c = '"' then none
    else (decodeFrom .plain rest).map (c :: ·)
  | .escape, letter :: rest =>
    if letter = 'u' then decodeFrom .opening rest
    else (ofEscapeLetter? letter).bind fun c => (decodeFrom .plain rest).map (c :: ·)
  | .opening, c :: rest => if c = '\x7b' then decodeFrom (.digits none) rest else none
  | .digits code, c :: rest =>
    if c = '\x7d' then
      (code.bind charOfCode?).bind fun c => (decodeFrom .plain rest).map (c :: ·)
    else (hexValue? c).bind fun d => decodeFrom (.digits (some (16 * code.getD 0 + d))) rest
  | _, [] => none

/-- Reads the written form of a text, without the quotes around it. -/
def decode (written : List Char) : Option (List Char) := decodeFrom .plain written

/-- A text in double quotes. -/
def quote (text : String) : String :=
  String.ofList ('"' :: encode text.toList ++ ['"'])

end WidthExact.Text
