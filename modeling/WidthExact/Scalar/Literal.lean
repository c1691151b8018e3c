import WidthExact.Binary.Literal
import WidthExact.Scalar.Basic

/-!
# Scalar literals

Reading a literal of a given type, and the written form of a scalar.

An integer literal is decimal with an optional sign, and must lie in the signed range of its width; or
it is `0x` and hexadecimal digits with an optional plus sign between the two, which give the bit
pattern. The booleans are `true` and `false`, or `1` and `0`. White space around a literal is ignored.

An integer or floating-point value is written with its type behind it, as in `-5i8` and `2f64`.
-/

namespace WidthExact

namespace Word

variable {w : IntWidth}

/-- The word whose signed reading is the given integer, if there is one. -/
def exactly? (n : Int) : Option (Word w) :=
  if -twoPow (w.bits - 1) ≤ n ∧ n < twoPow (w.bits - 1) then some (ofSigned n) else none

/-- The digits of a hexadecimal literal behind its `0x`. -/
def readHex? (text : List Char) : Option (Word w) :=
  let digits := match text with
    | '+' :: rest => rest
    | _ => text
  ((Text.readHex? digits).filter (· < twoPow w.bits)).map ofUnsigned

/-- Reads an integer literal. -/
def read? : List Char → Option (Word w)
  | '0' :: 'x' :: digits => readHex? digits
  | '0' :: 'X' :: digits => readHex? digits
  | text => (Decimal.readInt? text).bind exactly?

/-- The written form of a word: its signed reading in decimal. -/
def text (x : Word w) : List Char := Text.decimalInt x.signed

end Word

/-- Reads a boolean. -/
def readBool? (text : List Char) : Option Bool :=
  if text = ['t', 'r', 'u', 'e'] ∨ text = ['1'] then some true
  else if text = ['f', 'a', 'l', 's', 'e'] ∨ text = ['0'] then some false
  else none

namespace Scalar

/-- Reads a literal of the given type, without white space around it. -/
def read? (type : ScalarType) (text : List Char) : Option Scalar :=
  match type with
  | .bool => (readBool? text).map bool
  | .int width => (Word.read? text).map (int width)
  | .float width => (Binary.read? text).map (float width)

/-- Reads a literal of the given type, or gives the reason why the text is none. -/
def parse (type : ScalarType) (text : String) : Except ParseError Scalar :=
  match read? type (Text.trim text.toList) with
  | some value => .ok value
  | none => .error (.invalidLiteral type.text text)

/-- The written form of the value, without its type. -/
def literal : Scalar → List Char
  | bool value => if value then ['t', 'r', 'u', 'e'] else ['f', 'a', 'l', 's', 'e']
  | int _ value => value.text
  | float _ value => value.text

/-- What stands behind the literal in the written form: the type, or nothing for a boolean. -/
def suffix : Scalar → List Char
  | bool _ => []
  | int width _ => width.text.toList
  | float width _ => width.text.toList

/-- The written form of a scalar. -/
def text (s : Scalar) : String := String.ofList (s.literal ++ s.suffix)

end Scalar

end WidthExact
