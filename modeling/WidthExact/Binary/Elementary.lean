import WidthExact.Binary.Convert
import WidthExact.Enclosure.Series

/-!
# Elementary functions

The elementary functions on floating-point values, each rounded once: the result is the value nearest
to the function's real value. Results that are no rounding of a nonzero irrational number are given
by cases first: where the function has a pole, a zero, no value or a limit, and powers that are
dyadic numbers of few digits. Everything else is settled by enclosures.
-/

namespace WidthExact.Binary

open Enclosure

variable {f : FloatWidth}

/-! ## Common parts -/

/-- How often the places of an enclosure are doubled at most. -/
def settleTries : Nat := 8

/-- The places that an enclosure starts with. -/
def basePlaces : Nat := 128

/-- The places to start with for a result about as small as the value itself. -/
def startPlaces (x : Binary f) : Nat := basePlaces + (f.scale - x.units.log2)

/-- The value nearest to a real number that is approximated by enclosures. -/
def settled (start : Nat) (approximate : Nat → Option (Enclosure × Int)) : Binary f :=
  Enclosure.settle f approximate settleTries start

/-- A value whose approximation needs no power of two. -/
def settledPlain (start : Nat) (approximate : Nat → Enclosure) : Binary f :=
  settled start fun places => some (approximate places, 0)

/-- The value one. -/
def one : Binary f := ofNat 1

/-- The magnitude compared with one. -/
def compareOne (x : Binary f) : Ordering := compare x.magnitude (one : Binary f).magnitude

/-- The positive or negative product of a right angle with `num / den`. -/
def rightAngles (negative : Bool) (num den : Nat) : Binary f :=
  settledPlain basePlaces fun places =>
    let angle := ((halfPi places).scale num).divNat den
    if negative then angle.neg else angle

/-! ## Logarithms -/

/-- A logarithm, from the enclosure of the natural one of a finite positive value other than one. -/
def logBy (x : Binary f) (finish : (places : Nat) → Enclosure → Option Enclosure) : Binary f :=
  if x.isNaN then x
  else if x.isZero then infinity true
  else if x.isNegative then nan false
  else if x.isInfinite then x
  else if x.compareOne = .eq then zero false
  else settled basePlaces fun places =>
    (finish places (logarithm places x.units (-f.scale))).map fun y => (y, 0)

/-- The natural logarithm. -/
def log (x : Binary f) : Binary f := x.logBy fun _ y => some y

/-- The logarithm to base two. -/
def log2 (x : Binary f) : Binary f := x.logBy fun places y => div? places y (logTwo places)

/-- The logarithm to base ten. -/
def log10 (x : Binary f) : Binary f :=
  x.logBy fun places y => div? places y (logarithm places 10 0)

/-! ## Exponential function -/

/-- The exponential function. -/
def exp (x : Binary f) : Binary f :=
  if x.isNaN then x
  else if x.isZero then one
  else if x.isInfinite then if x.isNegative then zero false else x
  else settled basePlaces fun places =>
    some (exponential places (Enclosure.ofDyadic places x.signedUnits (-f.scale)))

/-! ## Trigonometric functions -/

/-- The sine. -/
def sin (x : Binary f) : Binary f :=
  if x.isNaN ∨ x.isZero then x
  else if x.isInfinite then nan false
  else settledPlain x.startPlaces fun places => (sineCosine places x.signedUnits (-f.scale)).1

/-- The cosine. -/
def cos (x : Binary f) : Binary f :=
  if x.isNaN then x
  else if x.isZero then one
  else if x.isInfinite then nan false
  else settledPlain basePlaces fun places => (sineCosine places x.signedUnits (-f.scale)).2

/-- The tangent. -/
def tan (x : Binary f) : Binary f :=
  if x.isNaN ∨ x.isZero then x
  else if x.isInfinite then nan false
  else settled x.startPlaces fun places =>
    let (sine, cosine) := sineCosine places x.signedUnits (-f.scale)
    (div? places sine cosine).map fun y => (y, 0)

/-! ## Inverse trigonometric functions -/

/-- The legs of the right triangle with hypotenuse one of which one leg is the magnitude of `x`: that
leg and the other one, in a common unit. -/
def legs (x : Binary f) (places : Nat) : Enclosure × Enclosure :=
  let side : Int := x.units * twoPow places
  (point side, sqrtNat places (twoPow (2 * f.scale) - x.units * x.units))

/-- An angle with the sign of `x`. -/
def signAngle (x : Binary f) (angle : Enclosure) : Enclosure :=
  if x.isNegative then angle.neg else angle

/-- The arc sine. -/
def asin (x : Binary f) : Binary f :=
  if x.isNaN ∨ x.isZero then x
  else if x.compareOne = .gt then nan false
  else settledPlain x.startPlaces fun places =>
    let (side, other) := x.legs places
    x.signAngle (angle places side other)

/-- The arc cosine. -/
def acos (x : Binary f) : Binary f :=
  if x.isNaN then x
  else if x.compareOne = .gt then nan false
  else if x.compareOne = .eq ∧ !x.isNegative then zero false
  else settledPlain basePlaces fun places =>
    let (side, other) := x.legs places
    let acute := angle places other side
    if x.isNegative then ((halfPi places).scale 2).sub acute else acute

/-- The arc tangent. -/
def atan (x : Binary f) : Binary f :=
  if x.isNaN ∨ x.isZero then x
  else if x.isInfinite then rightAngles x.isNegative 1 1
  else settledPlain x.startPlaces fun places =>
    x.signAngle (angle places (point x.units) (point (twoPow f.scale)))

/-- The angle from the positive first axis to the point with first coordinate `x` and second
coordinate `y`, between minus and plus two right angles. -/
def atan2 (y x : Binary f) : Binary f :=
  if x.isNaN then x
  else if y.isNaN then y
  else if y.isZero then
    if x.isNegative then rightAngles y.isNegative 2 1 else y
  else if x.isZero then rightAngles y.isNegative 1 1
  else if y.isInfinite then
    if !x.isInfinite then rightAngles y.isNegative 1 1
    else if x.isNegative then rightAngles y.isNegative 3 2
    else rightAngles y.isNegative 1 2
  else if x.isInfinite then
    if x.isNegative then rightAngles y.isNegative 2 1 else zero y.isNegative
  else settledPlain (basePlaces + (x.units.log2 - y.units.log2)) fun places =>
    let acute := angle places (point y.units) (point x.units)
    y.signAngle (if x.isNegative then ((halfPi places).scale 2).sub acute else acute)

/-! ## Powers -/

/-- The number of times that two divides a positive number. -/
def twos (n : Nat) : Nat :=
  if h : n ≠ 0 ∧ n % 2 = 0 then twos (n / 2) + 1 else 0
termination_by n
decreasing_by exact Nat.div_lt_self (Nat.pos_of_ne_zero h.1) (by decide)

/-- The number `significand * 2 ^ exponent`. -/
structure Dyadic where
  significand : Nat
  exponent : Int
  deriving DecidableEq, Repr

/-- The magnitude of a finite value, with an odd significand unless it is zero. -/
def dyadic (x : Binary f) : Dyadic :=
  ⟨x.units / twoPow (twos x.units), twos x.units - f.scale⟩

/-- Whether a finite value is a whole number. -/
def isWhole (x : Binary f) : Bool := x.isZero || 0 ≤ x.dyadic.exponent

/-- Whether a finite value is an odd whole number. -/
def isOdd (x : Binary f) : Bool := !x.isZero && x.dyadic.exponent = 0

/-- The square root of a dyadic number with an odd significand, if it is dyadic. -/
def Dyadic.sqrt? (x : Dyadic) : Option Dyadic :=
  let root := natSqrt x.significand
  if root * root = x.significand ∧ x.exponent % 2 = 0 then some ⟨root, x.exponent / 2⟩ else none

/-- The square root taken `times` times, if it is dyadic. -/
def Dyadic.root? (x : Dyadic) : (times : Nat) → Option Dyadic
  | 0 => some x
  | times + 1 => x.sqrt?.bind fun root => root.root? times

/-- The greatest number of binary digits for which a power is computed exactly. It is well above the
precision of both formats, so that a power with more digits lies on no value and halfway between no
two. -/
def exactDigits : Nat := 256

/-- The power of a dyadic number with an odd significand to a whole exponent, if the power is a dyadic
number of few digits. Its own exponent is limited to where it is beyond every format. -/
def Dyadic.power? (x : Dyadic) (exponent : Int) : Option Dyadic :=
  let shift := max (-farExponent) (min farExponent (x.exponent * exponent))
  if x.significand = 1 then some ⟨1, shift⟩
  else if 0 < exponent ∧ exponent.toNat * (x.significand.log2 + 1) ≤ exactDigits then
    some ⟨Nat.pow x.significand exponent.toNat, shift⟩
  else none

/-- The power of a positive dyadic number to a dyadic exponent with the given sign, if it is a dyadic
number of few digits: a root is taken for every negative power of two in the exponent. -/
def Dyadic.exactPower? (x : Dyadic) (negative : Bool) (y : Dyadic) : Option Dyadic :=
  let whole : Int := y.significand * twoPow y.exponent.toNat
  (x.root? (-y.exponent).toNat).bind fun root => root.power? (if negative then -whole else whole)

/-- The power of the magnitude of a finite nonzero value other than one to a finite nonzero exponent,
with the given sign. -/
def powMagnitude (negative : Bool) (x y : Binary f) : Binary f :=
  match x.dyadic.exactPower? y.isNegative y.dyadic with
  | some power => Binary.ofDyadic negative power.significand power.exponent
  | none => settled basePlaces fun places =>
    let guard := y.units.log2 + 1 - f.scale
    let log := logarithm (places + guard) x.units (-f.scale)
    let product := ((log.scale y.signedUnits).divNat (twoPow f.scale)).divNat (twoPow guard)
    let (power, exponent) := exponential places product
    some (if negative then power.neg else power, exponent)

/-- The power of a zero or infinite value, seen by its magnitude, to a nonzero exponent. -/
def powLimit (negative : Bool) (x y : Binary f) : Binary f :=
  if x.isZero = y.isNegative then infinity negative else zero negative

/-- The power of a value to an infinite exponent. -/
def powInfinite (x y : Binary f) : Binary f :=
  match x.compareOne with
  | .eq => one
  | .lt => if y.isNegative then infinity false else zero false
  | .gt => if y.isNegative then zero false else infinity false

/-- `x` raised to the power `y`. Anything to the power zero is one, and so is one to any power; a
negative value has powers to whole exponents only. -/
def fpow (x y : Binary f) : Binary f :=
  if y.isZero ∨ x = one then one
  else if x.isNaN then x
  else if y.isNaN then y
  else if y.isInfinite then powInfinite x y
  else
    let negative := x.isNegative && y.isOdd
    if x.isZero ∨ x.isInfinite then powLimit negative x y
    else if x.isNegative ∧ !y.isWhole then nan false
    else if x.compareOne = .eq then if negative then x else one
    else powMagnitude negative x y

end WidthExact.Binary
