import WidthExact.Decimal.Basic

/-!
# Decimal numerals

A decimal numeral is digits with an optional point among, before or behind them, and an optional
exponent: `e` or `E`, an optional sign, and digits. It denotes a `Decimal` exactly, however long it is.
-/

namespace WidthExact

namespace Decimal

/-- An integer written as an optional sign and decimal digits. -/
def readInt? : List Char → Option Int
  | '-' :: digits => (Text.readDecimal? digits).map fun n => -n
  | '+' :: digits => (Text.readDecimal? digits).map fun n => n
  | digits => (Text.readDecimal? digits).map fun n => n

/-- The exponent at the end of a numeral: nothing, or `e` or `E` and an integer. -/
def readExponent? : List Char → Option Int
  | [] => some 0
  | c :: rest => if c = 'e' ∨ c = 'E' then readInt? rest else none

/-- The digits behind the point, if there is one, and what follows them. -/
def spanFraction : List Char → List Char × List Char
  | '.' :: rest => rest.span Char.isDigit
  | rest => ([], rest)

/-- Reads a decimal numeral without a sign. -/
def read? (text : List Char) : Option Decimal :=
  let (whole, afterWhole) := text.span Char.isDigit
  let (fraction, afterFraction) := spanFraction afterWhole
  (Text.readDecimal? (whole ++ fraction)).bind fun coefficient =>
    (readExponent? afterFraction).map fun exponent => ⟨coefficient, exponent - fraction.length⟩

end Decimal

end WidthExact
