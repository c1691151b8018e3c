import WidthExact.Decimal.Numeral
import WidthExact.Decimal.Shortest

/-!
# Floating-point literals

A literal is an optional sign and then, in letters of either case, `inf`, `infinity` or `nan`, or a
decimal numeral, which is rounded once.

A value is written by its shortest decimal, positionally and without an exponent, however many digits
that takes; a whole number has no point. A NaN is written without a sign.
-/

namespace WidthExact.Binary

variable {f : FloatWidth}

/-! ## Reading -/

/-- The value nearest to a decimal, with the given sign. -/
def ofDecimal (negative : Bool) (d : Decimal) : Binary f := ofMagnitude negative (d.nearest f)

/-- A literal without its sign. -/
def readMagnitude? (negative : Bool) (text : List Char) : Option (Binary f) :=
  let word := text.map Char.toLower
  if word = ['i', 'n', 'f'] ∨ word = ['i', 'n', 'f', 'i', 'n', 'i', 't', 'y'] then
    some (infinity negative)
  else if word = ['n', 'a', 'n'] then some (nan negative)
  else (Decimal.read? text).map (ofDecimal negative)

/-- Reads a literal. -/
def read? : List Char → Option (Binary f)
  | '-' :: rest => readMagnitude? true rest
  | '+' :: rest => readMagnitude? false rest
  | rest => readMagnitude? false rest

/-! ## Writing -/

/-- The magnitude of a number in decimal digits, or `inf`. Of two shortest decimals at the same
distance, the greater one is written. -/
def magnitudeText (x : Binary f) : List Char :=
  if x.isInfinite then ['i', 'n', 'f']
  else if x.isZero then ['0']
  else (Decimal.shortest f .up x.magnitude).positional

/-- The written form of a value. -/
def text (x : Binary f) : List Char :=
  if x.isNaN then ['N', 'a', 'N']
  else if x.isNegative then '-' :: x.magnitudeText
  else x.magnitudeText

end WidthExact.Binary
