import WidthExact.Enclosure.Basic

/-!
# Elementary functions by series

Enclosures of the elementary functions. Each function reduces its argument to a range where the
terms of a power series are at least halved from one to the next, and sums the series until a term is
down to one unit of the last place. What is left out is then no more than the last term.

## Main definitions

* `logarithm`, `exponential`: the natural logarithm of a dyadic number, the exponential function.
* `halfPi`, `arctangent`, `angle`: a right angle, and the angle of a point in the first quadrant.
* `sineCosine`: sine and cosine of a dyadic number.
-/

namespace WidthExact.Enclosure

/-! ## Summation -/

/-- Adds up the terms `state n / weight n` from `n` on, where `next` leads from one state to the
following one. The states must be at least halved each time; the sum is widened by the last one for
the terms that are left out. -/
def sumSeries (next : Nat → Enclosure → Enclosure) (weight : Nat → Nat) :
    (fuel n : Nat) → (state sum : Enclosure) → Enclosure
  | 0, n, state, sum => (sum.add (state.divNat (weight n))).widen state.size
  | fuel + 1, n, state, sum =>
    if state.size ≤ 1 then (sum.add (state.divNat (weight n))).widen state.size
    else sumSeries next weight fuel (n + 1) (next n state) (sum.add (state.divNat (weight n)))

/-- The number of terms after which a series whose terms are halved is down to one unit of the last
place. -/
def termBound (places : Nat) : Nat := places + 16

/-! ## Logarithm and exponential function -/

/-- The logarithm of `(1 + z) / (1 - z)` for `|z| ≤ 1/3`: twice the sum of
`z ^ (2 n + 1) / (2 n + 1)`. -/
def logarithmOfRatio (places : Nat) (z : Enclosure) : Enclosure :=
  let square := mul places z z
  (sumSeries (fun _ power => mul places power square) (fun n => 2 * n + 1) (termBound places) 0 z
    (point 0)).scale 2

/-- The logarithm of two, which is `(1 + 1/3) / (1 - 1/3)`. -/
def logTwo (places : Nat) : Enclosure := logarithmOfRatio places (ofRatio places 1 3)

/-- The natural logarithm of `significand * 2 ^ exponent`, for a positive significand. The
significand is taken as a number `r` between `2/3` and `4/3` times a power of two; then
`(r - 1) / (r + 1)` is at most `1/5`. -/
def logarithm (places : Nat) (significand : Nat) (exponent : Int) : Enclosure :=
  let size := significand.log2
  let shift := if 3 * significand < 4 * twoPow size then size else size + 1
  let whole : Int := twoPow shift
  let ratio := ofRatio places (significand - whole) (significand + twoPow shift)
  (logarithmOfRatio places ratio).add ((logTwo places).scale (exponent + shift))

/-- The exponent that stands for all greater ones: its power of two lies beyond every format. -/
def farExponent : Int := 6000

/-- The exponential function, as a number about one and a power of two to multiply it by. The
argument is reduced by a multiple of the logarithm of two. An argument beyond `± 4096` is answered
by a power of two that lies beyond every format, as the function value itself does. -/
def exponential (places : Nat) (x : Enclosure) : Enclosure × Int :=
  if 4096 * twoPow places ≤ x.lo then (one places, farExponent)
  else if x.hi ≤ -4096 * twoPow places then (one places, -farExponent)
  else
    let two := logTwo places
    let multiple := (2 * x.lo + two.lo) / (2 * two.lo)
    let reduced := x.sub (two.scale multiple)
    let sum := sumSeries (fun n term => (mul places term reduced).divNat (n + 1)) (fun _ => 1)
      (termBound places) 0 (one places) (point 0)
    (sum, multiple)

/-! ## Angles -/

/-- The arc tangent of `1 / n`, by the alternating series of its odd powers. -/
def arctangentInverse (places n : Nat) : Enclosure :=
  sumSeries (fun _ power => (power.divNat (n * n)).neg) (fun k => 2 * k + 1) (termBound places) 0
    (ofRatio places 1 n) (point 0)

/-- A right angle: `8 arctan (1/5) - 2 arctan (1/239)`. -/
def halfPi (places : Nat) : Enclosure :=
  ((arctangentInverse places 5).scale 8).sub ((arctangentInverse places 239).scale 2)

/-- The arc tangent of a number between zero and one, by the series of
`t / (1 + t²) * (t² / (1 + t²)) ^ n`, the term `n` being multiplied by `2/3 * 4/5 * …` up to
`2 n / (2 n + 1)`. -/
def arctangent (places : Nat) (t : Enclosure) : Enclosure :=
  let square := mul places t t
  let divisor := (one places).add square
  let ratio := divPositive places square divisor
  sumSeries
    (fun n term => ((mul places term ratio).scale (2 * (n + 1))).divNat (2 * n + 3))
    (fun _ => 1) (termBound places) 0 (divPositive places t divisor) (point 0)

/-- The angle at which the point `(x, y)` of the first quadrant is seen. The coordinates are in any
common unit, and not both zero. -/
def angle (places : Nat) (y x : Enclosure) : Enclosure :=
  if y.hi ≤ x.lo then arctangent places (divPositive places y x)
  else (halfPi places).sub (arctangent places (divPositive places x y))

/-! ## Sine and cosine -/

/-- The sine of a number between `-1` and `1`. -/
def sineSmall (places : Nat) (x : Enclosure) : Enclosure :=
  let square := mul places x x
  sumSeries (fun n term => (mul places term square).neg.divNat ((2 * n + 2) * (2 * n + 3)))
    (fun _ => 1) (termBound places) 0 x (point 0)

/-- The cosine of a number between `-1` and `1`. -/
def cosineSmall (places : Nat) (x : Enclosure) : Enclosure :=
  let square := mul places x x
  sumSeries (fun n term => (mul places term square).neg.divNat ((2 * n + 1) * (2 * n + 2)))
    (fun _ => 1) (termBound places) 0 (one places) (point 0)

/-- Sine and cosine of `significand * 2 ^ exponent`. The argument is reduced by a multiple of a right
angle, with as many more places as the multiple has digits. -/
def sineCosine (places : Nat) (significand : Int) (exponent : Int) : Enclosure × Enclosure :=
  let guard := (significand.natAbs.log2 + 2 + exponent).toNat
  let finePlaces := places + guard
  let x := ofDyadic finePlaces significand exponent
  let right := halfPi finePlaces
  let multiple := (2 * x.lo + right.lo) / (2 * right.lo)
  let reduced := (x.sub (right.scale multiple)).divNat (twoPow guard)
  let sine := sineSmall places reduced
  let cosine := cosineSmall places reduced
  match multiple % 4 with
  | 0 => (sine, cosine)
  | 1 => (cosine, sine.neg)
  | 2 => (sine.neg, cosine.neg)
  | _ => (cosine.neg, sine)

end WidthExact.Enclosure
