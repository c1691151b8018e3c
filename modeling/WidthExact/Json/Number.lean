import WidthExact.Binary.Convert
import WidthExact.Decimal.Shortest
import WidthExact.Json.Basic
import WidthExact.Text.Numeral

/-!
# Numbers in JSON

Integers are read from integer literals alone. A literal with a point or an exponent, a literal out
of the range of 64-bit integers, and `-0` are floating-point numbers.

A floating-point number is read with two roundings: its leading digits, as far as they fit 64 bits, are
rounded to the wide format, and then multiplied or divided by a power of ten. One beyond the wide
format is refused.

A floating-point value is written by its shortest decimal, positionally within a range of exponents and
with an exponent outside. Infinities and NaNs have no number and are written as `null`.
-/

namespace WidthExact

/-! ## Integers -/

namespace JsonNumber

/-- The literal of an integer. -/
def ofInt (n : Int) : JsonNumber := ⟨n < 0, Text.decimal n.natAbs, [], none⟩

/-- Whether the literal has neither a point nor an exponent. -/
def isIntegerLiteral (n : JsonNumber) : Bool := n.fraction.isEmpty && n.exponent.isNone

/-- The integer that a literal denotes, if it is an integer literal in the range of signed or
unsigned 64-bit integers and not `-0`. -/
def int? (n : JsonNumber) : Option Int :=
  let magnitude := Nat.ofDigitChars 10 n.whole 0
  if !n.isIntegerLiteral then none
  else if n.negative then
    if 0 < magnitude ∧ magnitude ≤ twoPow 63 then some (-magnitude) else none
  else if magnitude < twoPow 64 then some magnitude else none

/-! ## Reading floating-point numbers -/

/-- The number that digits continue `significand` to, as long as it fits 64 bits, and the digits from
the first one on that does not fit. -/
def absorb (significand : Nat) : List Char → Nat × List Char
  | [] => (significand, [])
  | digit :: rest =>
    let next := 10 * significand + (digit.toNat - 48)
    if next < twoPow 64 then absorb next rest else (significand, digit :: rest)

/-- A power of ten, rounded to the wide format. -/
def tenPower (exponent : Nat) : Binary .f64 := Binary.ofNat (tenPow exponent)

/-- The product of a value that is not negative with a power of ten: a multiplication or a division
by a power of up to 308, after as many divisions by the power of 308 as it takes. A product
beyond the format is none. -/
def scaleByTen (x : Binary .f64) (exponent : Int) : Option (Binary .f64) :=
  if 0 ≤ exponent then
    if x.isZero then some x
    else if 308 < exponent then none
    else (some (x.mul (tenPower exponent.toNat))).filter fun product => !product.isInfinite
  else if -308 ≤ exponent then some (x.div (tenPower (-exponent).toNat))
  else if x.isZero then some x
  else scaleByTen (x.div (tenPower 308)) (exponent + 308)
termination_by (-exponent).toNat

/-- The decimal exponent that is written, or none if it does not fit 31 bits; with it, whether it is
negative. -/
def writtenExponent (n : JsonNumber) : Bool × Option Nat :=
  match n.exponent with
  | none => (false, some 0)
  | some (negative, digits) =>
    let size := Nat.ofDigitChars 10 digits 0
    (negative, if size < twoPow 31 then some size else none)

/-- The magnitude of a number in the wide format. -/
def magnitude? (n : JsonNumber) : Option (Binary .f64) :=
  let (leading, droppedWhole) := absorb 0 n.whole
  let (significand, droppedFraction) := absorb leading n.fraction
  let shift : Int := droppedWhole.length - (n.fraction.length - droppedFraction.length : Nat)
  match n.writtenExponent with
  | (true, some size) => scaleByTen (Binary.ofNat significand) (shift - size)
  | (false, some size) => scaleByTen (Binary.ofNat significand) (shift + size)
  | (true, none) => some (Binary.zero false)
  | (false, none) => if significand = 0 then some (Binary.zero false) else none

/-- The value of a number in the wide format. -/
def wide? (n : JsonNumber) : Option (Binary .f64) :=
  n.magnitude?.map fun x => if n.negative then x.negate else x

/-- The value of a number in a format: an integer is rounded directly, any other number by way of the
wide format. -/
def binary? (f : FloatWidth) (n : JsonNumber) : Option (Binary f) :=
  match n.int? with
  | some i => some (Binary.ofInt i)
  | none => n.wide?.map fun x => x.toFormat f

/-! ## Writing floating-point values -/

/-- The exponents of the leading digit, counted from the point, between which a value of the format is
written positionally: above the first and up to the second. -/
def positionalRange : FloatWidth → Int × Int
  | .f32 => (-6, 13)
  | .f64 => (-5, 16)

/-- The literal of a decimal in a format. The point never stands at the end of the digits, but may
have a single zero behind it. -/
def ofDecimal (f : FloatWidth) (negative : Bool) (d : Decimal) : JsonNumber :=
  let digits := Text.decimal d.coefficient
  let point : Int := digits.length + d.exponent
  let (least, most) := positionalRange f
  if 0 ≤ d.exponent ∧ point ≤ most then
    ⟨negative, digits ++ List.replicate d.exponent.toNat '0', ['0'], none⟩
  else if 0 < point ∧ point ≤ most then
    ⟨negative, digits.take point.toNat, digits.drop point.toNat, none⟩
  else if least < point ∧ point ≤ 0 then
    ⟨negative, ['0'], List.replicate (-point).toNat '0' ++ digits, none⟩
  else
    ⟨negative, digits.take 1, digits.drop 1,
      some (point ≤ 0, Text.decimal (point - 1).natAbs)⟩

end JsonNumber

namespace Json

/-- An integer. -/
def ofInt (n : Int) : Json := number (.ofInt n)

/-- A floating-point value. Of two shortest decimals at the same distance, the even one is
written. -/
def ofBinary {f : FloatWidth} (x : Binary f) : Json :=
  if !x.isFinite then null
  else if x.isZero then number ⟨x.isNegative, ['0'], ['0'], none⟩
  else number (.ofDecimal f x.isNegative (Decimal.shortest f .even x.magnitude))

end Json

end WidthExact
