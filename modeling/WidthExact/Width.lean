import WidthExact.Text.Quoted

/-!
# Widths and parse errors

Why a name or a literal was not understood, and how that is told: the text that was not understood is
quoted as it was given, blanks around it included.

The widths that scalars come in: words of 8, 16, 32 or 64 bits, and binary floating-point formats of
32 or 64 bits. A width is written as a letter, `i` or `f`, and its bit count. The reader takes the
count as any numeral of 32 bits, so `i+8` and `i0008` are read as well, while a count of 2³² + 8 is
none.
-/

namespace WidthExact

/-! ## Parse errors -/

/-- Why a text or a bit count was not understood. -/
inductive ParseError where
  /-- No width is written that way. -/
  | unknownWidth (text : String)
  /-- No width has that many bits. -/
  | unsupportedBits (bits : Nat)
  /-- No primitive has that name. -/
  | unknownPrimitive (name : String)
  /-- The text is no literal of the named type. -/
  | invalidLiteral (type text : String)
  deriving DecidableEq, Repr

/-- What is told about a parse error. -/
def ParseError.message : ParseError → String
  | unknownWidth text => "Unknown width suffix: " ++ Text.quote text
  | unsupportedBits bits => "Unsupported bit width: " ++ String.ofList (Text.decimal bits)
  | unknownPrimitive name => "Unknown primitive: " ++ Text.quote name
  | invalidLiteral type text => "Invalid " ++ type ++ " literal: " ++ Text.quote text

/-! ## Widths -/

/-- The width of an integer word. -/
inductive IntWidth where
  | w8 | w16 | w32 | w64
  deriving DecidableEq, Repr

/-- The width of a binary floating-point format. -/
inductive FloatWidth where
  | f32 | f64
  deriving DecidableEq, Repr

/-- A bit count as it is read behind the letter of a width: an optional plus sign, then decimal
digits of a number below 2³². -/
def readBitCount? (text : List Char) : Option Nat :=
  let digits := match text with
    | '+' :: rest => rest
    | _ => text
  (Text.readDecimal? digits).filter (· < twoPow 32)

namespace IntWidth

/-- Every integer width, the narrowest first. -/
def all : List IntWidth := [w8, w16, w32, w64]

/-- The number of bits. -/
def bits : IntWidth → Nat
  | w8 => 8
  | w16 => 16
  | w32 => 32
  | w64 => 64

/-- The width with the given number of bits. -/
def ofBits? : Nat → Option IntWidth
  | 8 => some w8
  | 16 => some w16
  | 32 => some w32
  | 64 => some w64
  | _ => none

/-- The width with the given number of bits, or the reason why there is none. -/
def ofBits (bits : Nat) : Except ParseError IntWidth :=
  match ofBits? bits with
  | some width => .ok width
  | none => .error (.unsupportedBits bits)

/-- The written form: `i` and the bit count. -/
def text : IntWidth → String
  | w8 => "i8"
  | w16 => "i16"
  | w32 => "i32"
  | w64 => "i64"

/-- Reads a width from its written form. -/
def read? : List Char → Option IntWidth
  | 'i' :: count => (readBitCount? count).bind ofBits?
  | _ => none

/-- Reads a width from its written form, or gives the reason why there is none. -/
def parse (text : String) : Except ParseError IntWidth :=
  match read? text.toList with
  | some width => .ok width
  | none => .error (.unknownWidth text)

theorem bits_pos (w : IntWidth) : 0 < w.bits := by cases w <;> decide

theorem bits_le (w : IntWidth) : w.bits ≤ 64 := by cases w <;> decide

theorem ofBits?_bits (w : IntWidth) : ofBits? w.bits = some w := by cases w <;> rfl

end IntWidth

namespace FloatWidth

/-- Every floating-point width, the narrowest first. -/
def all : List FloatWidth := [f32, f64]

/-- The integer width of the bit pattern. -/
def patternWidth : FloatWidth → IntWidth
  | f32 => .w32
  | f64 => .w64

/-- The number of bits. -/
def bits (f : FloatWidth) : Nat := f.patternWidth.bits

/-- The width with the given number of bits. -/
def ofBits? : Nat → Option FloatWidth
  | 32 => some f32
  | 64 => some f64
  | _ => none

/-- The width with the given number of bits, or the reason why there is none. -/
def ofBits (bits : Nat) : Except ParseError FloatWidth :=
  match ofBits? bits with
  | some width => .ok width
  | none => .error (.unsupportedBits bits)

/-- The written form: `f` and the bit count. -/
def text : FloatWidth → String
  | f32 => "f32"
  | f64 => "f64"

/-- Reads a width from its written form. -/
def read? : List Char → Option FloatWidth
  | 'f' :: count => (readBitCount? count).bind ofBits?
  | _ => none

/-- Reads a width from its written form, or gives the reason why there is none. -/
def parse (text : String) : Except ParseError FloatWidth :=
  match read? text.toList with
  | some width => .ok width
  | none => .error (.unknownWidth text)

theorem ofBits?_bits (f : FloatWidth) : ofBits? f.bits = some f := by cases f <;> rfl

end FloatWidth

end WidthExact
