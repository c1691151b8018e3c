import WidthExact.Decimal.Basic

/-!
# Shortest decimals

Of the decimals that round to a given value of a format, `Decimal.shortest` selects one with the fewest
digits, and of those the nearest to the value. The search goes through the decimal grids from the
coarsest: if any point of a grid rounds to the value, so does one of the value's two neighbours on
that grid, since rounding is monotone. It ends at the latest on the grid of the value itself.
-/

namespace WidthExact

/-- Which of two neighbours at the same distance is selected. -/
inductive Tie where
  /-- The greater one. -/
  | up
  /-- The one with the even coefficient. -/
  | even
  deriving DecidableEq, Repr

namespace Decimal

/-- The number of decimal digits of a natural number. -/
def digitCount (n : Nat) : Nat := (Text.decimal n).length

/-- The exponent `k` with `10 ^ (k - 1) ≤ num / den < 10 ^ k`, for a positive ratio. -/
def leadingExponent (num den : Nat) : Int :=
  if den ≤ num then digitCount (num / den) else 1 - (digitCount ((den - 1) / num) : Int)

/-- The greatest coefficient on the grid of `10 ^ exponent` that is at most `num / den`. -/
def floorOn (num den : Nat) (exponent : Int) : Nat :=
  num * tenPow (-exponent).toNat / (den * tenPow exponent.toNat)

/-- Whether `num / den` lies nearer to the upper than to the lower of its neighbours on a grid; in
the middle, as the tie says. -/
def preferUpper (num den : Nat) (exponent : Int) (tie : Tie) : Bool :=
  let lower := floorOn num den exponent
  let twice := 2 * (num * tenPow (-exponent).toNat)
  let middle := (2 * lower + 1) * (den * tenPow exponent.toNat)
  middle < twice || (middle = twice && (tie = .up || lower % 2 = 1))

/-- The neighbour of `num / den` on a grid that rounds to a magnitude pattern; if both do, the
preferred one. -/
def selectOn? (f : FloatWidth) (tie : Tie) (magnitude : Nat) (num den : Nat) (exponent : Int) :
    Option Decimal :=
  let lower : Decimal := ⟨floorOn num den exponent, exponent⟩
  let upper : Decimal := ⟨floorOn num den exponent + 1, exponent⟩
  if lower.nearest f = magnitude then
    if upper.nearest f = magnitude ∧ preferUpper num den exponent tie then some upper
    else some lower
  else if upper.nearest f = magnitude then some upper
  else none

/-- The decimal with the fewest digits that rounds to a positive finite magnitude pattern, and the
nearest to it of those. -/
def shortest (f : FloatWidth) (tie : Tie) (magnitude : Nat) : Decimal :=
  let num := f.units magnitude
  let den := twoPow f.scale
  let top := leadingExponent num den
  let found := (List.range (top + f.scale).toNat).findSome? fun (dropped : Nat) =>
    selectOn? f tie magnitude num den (top - 1 - dropped)
  strip (found.getD ⟨num * Nat.pow 5 f.scale, -f.scale⟩)

end Decimal

end WidthExact
