import WidthExact.Binary.Rounding
import WidthExact.Binary.SquareRoot

/-!
# Enclosures

An enclosure is a closed interval that holds a real number, with ends that are whole multiples of
`2 ^ -places`. The number of places is fixed by each computation and passed to the operations that
need it. Every operation rounds its ends outward, so that the enclosure of the operands' values gives
an enclosure of the result.

An enclosure settles a rounding when its two ends round to the same value: rounding is monotone, so
every number between them rounds to that value as well.
-/

namespace WidthExact

/-- The reals between `lo * 2 ^ -places` and `hi * 2 ^ -places`. -/
structure Enclosure where
  lo : Int
  hi : Int
  deriving DecidableEq, Repr

/-- The quotient rounded upward, for a positive divisor. -/
def ceilDiv (num : Int) (den : Nat) : Int := -((-num) / den)

namespace Enclosure

/-- The interval that holds one multiple of `2 ^ -places` alone. -/
def point (n : Int) : Enclosure := ⟨n, n⟩

/-- The number one. -/
def one (places : Nat) : Enclosure := point (twoPow places)

/-- The quotient of two integers, the second positive. -/
def ofRatio (places : Nat) (num : Int) (den : Nat) : Enclosure :=
  ⟨num * twoPow places / den, ceilDiv (num * twoPow places) den⟩

/-- The number `significand * 2 ^ exponent`. -/
def ofDyadic (places : Nat) (significand : Int) (exponent : Int) : Enclosure :=
  ofRatio places (significand * twoPow exponent.toNat) (twoPow (-exponent).toNat)

/-- The greatest distance from zero of an end. -/
def size (x : Enclosure) : Nat := max x.lo.natAbs x.hi.natAbs

/-- The interval extended by `n` at both ends. -/
def widen (x : Enclosure) (n : Nat) : Enclosure := ⟨x.lo - n, x.hi + n⟩

/-- The opposite number. -/
def neg (x : Enclosure) : Enclosure := ⟨-x.hi, -x.lo⟩

/-- The sum. -/
def add (x y : Enclosure) : Enclosure := ⟨x.lo + y.lo, x.hi + y.hi⟩

/-- The difference. -/
def sub (x y : Enclosure) : Enclosure := ⟨x.lo - y.hi, x.hi - y.lo⟩

/-- The product with an integer. -/
def scale (n : Int) (x : Enclosure) : Enclosure :=
  if n < 0 then ⟨n * x.hi, n * x.lo⟩ else ⟨n * x.lo, n * x.hi⟩

/-- The quotient by a positive number. -/
def divNat (x : Enclosure) (n : Nat) : Enclosure := ⟨x.lo / n, ceilDiv x.hi n⟩

/-- The product. -/
def mul (places : Nat) (x y : Enclosure) : Enclosure :=
  let a := x.lo * y.lo
  let b := x.lo * y.hi
  let c := x.hi * y.lo
  let d := x.hi * y.hi
  (⟨min (min a b) (min c d), max (max a b) (max c d)⟩ : Enclosure).divNat (twoPow places)

/-- The quotient by a positive number, for operands in any common unit. -/
def divPositive (places : Nat) (x y : Enclosure) : Enclosure :=
  let lower := if x.lo < 0 then y.lo else y.hi
  let upper := if x.hi < 0 then y.hi else y.lo
  ⟨x.lo * twoPow places / lower, ceilDiv (x.hi * twoPow places) upper.toNat⟩

/-- The quotient, unless the divisor may be zero. -/
def div? (places : Nat) (x y : Enclosure) : Option Enclosure :=
  if 0 < y.lo then some (divPositive places x y)
  else if y.hi < 0 then some (divPositive places x.neg y.neg)
  else none

/-- The square root of a natural number, in units of `2 ^ -places`. -/
def sqrtNat (places : Nat) (n : Nat) : Enclosure :=
  let root := natSqrt (n * twoPow (2 * places))
  ⟨root, root + 1⟩

/-- The value that every number of the interval, times `2 ^ exponent`, rounds to, if there is one
and the interval does not touch zero. The ends count here as whole numbers. -/
def round? (f : FloatWidth) (x : Enclosure) (exponent : Int) : Option (Binary f) :=
  let settle (negative : Bool) (least greatest : Nat) : Option (Binary f) :=
    let value := Binary.ofDyadic negative least exponent
    if value = Binary.ofDyadic negative greatest exponent then some value else none
  if 0 < x.lo then settle false x.lo.toNat x.hi.toNat
  else if x.hi < 0 then settle true (-x.hi).toNat (-x.lo).toNat
  else none

/-- The value of a real number that is approximated at any number of places by an enclosure and a
power of two to multiply it by: the places are doubled until an enclosure settles the rounding. -/
def settle (f : FloatWidth) (approximate : Nat → Option (Enclosure × Int)) :
    (tries places : Nat) → Binary f
  | 0, _ => .nan false
  | tries + 1, places =>
    match (approximate places).bind fun (x, exponent) => x.round? f (exponent - places) with
    | some value => value
    | none => settle f approximate tries (2 * places)

end Enclosure

end WidthExact
