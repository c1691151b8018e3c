import WidthExact.Binary.Basic

/-!
# Rounding, products and quotients

Every rounding of the library goes through one function: `FloatWidth.nearest` takes an exact
magnitude to the nearest magnitude pattern, a tie going to the even one. The exact magnitude is given
by its integer part in half units and by whether anything is left over, which is all that rounding to
nearest can depend on.

A magnitude of at least half a unit beyond the greatest finite one becomes infinity: the pattern of
infinity counts as the next step above, so the midpoint between the two, a tie, goes to infinity,
whose pattern is even.
-/

namespace WidthExact

namespace FloatWidth

/-- The magnitude pattern nearest to a magnitude, ties going to the even pattern. The magnitude is
`halves / 2` units if `rest` is false, and more than that by less than half a unit if `rest` is true.

A magnitude below `2 ^ precision` units keeps all its whole units; a greater one drops `drop` of
them at its low end. -/
def nearest (f : FloatWidth) (halves : Nat) (rest : Bool) : Nat :=
  let drop := halves.log2 - f.precision
  let kept := halves >>> (drop + 1)
  let half := (halves >>> drop) % 2 = 1
  let beyond := rest || halves % twoPow drop ≠ 0
  let up := half ∧ (beyond ∨ kept % 2 = 1)
  min (drop * f.fieldWeight + kept + if up then 1 else 0) f.infinity

/-- The magnitude pattern nearest to `num / den`. -/
def nearestRatio (f : FloatWidth) (num den : Nat) : Nat :=
  let doubled := num * twoPow (f.scale + 1)
  f.nearest (doubled / den) (doubled % den ≠ 0)

end FloatWidth

namespace Binary

variable {f : FloatWidth}

/-- The value nearest to `num / den`, with the given sign; a zero keeps the sign. -/
def ofRatio (negative : Bool) (num den : Nat) : Binary f :=
  ofMagnitude negative (f.nearestRatio num den)

/-- The value nearest to `significand * 2 ^ exponent`, with the given sign. -/
def ofDyadic (negative : Bool) (significand : Nat) (exponent : Int) : Binary f :=
  ofRatio negative (significand * twoPow exponent.toNat) (twoPow (-exponent).toNat)

/-! ## Products and quotients

Each is rounded once. In units, a product is that of the operands' units over the units of one, and a
quotient is that of the operands' units.
-/

/-- The product of two finite values. -/
def mul (x y : Binary f) : Binary f :=
  ofRatio (x.isNegative ≠ y.isNegative) (x.units * y.units) (twoPow (2 * f.scale))

/-- The quotient of two finite values, the second not zero. -/
def div (x y : Binary f) : Binary f := ofRatio (x.isNegative ≠ y.isNegative) x.units y.units

end Binary

end WidthExact
