import WidthExact.Binary.Rounding

/-!
# Conversion

Between integers and floating-point values, and between the two formats.

An integer is rounded once to the target format. A floating-point value is truncated toward zero, then
clamped to the range of a 64-bit integer, of which the target width keeps the low bits; a NaN
gives zero. `round` takes a value to the nearest integral value of its own format, a tie going to the
even one. A change of format passes through the wide format, which holds every value of either.
-/

namespace WidthExact

namespace Binary

variable {f : FloatWidth}

/-! ## From integers -/

/-- The value nearest to a natural number. -/
def ofNat (n : Nat) : Binary f := ofRatio false n 1

/-- The value nearest to an integer; zero is the positive zero. -/
def ofInt (n : Int) : Binary f := ofRatio (n < 0) n.natAbs 1

/-! ## To integers -/

/-- The whole part of a finite value's magnitude. -/
def wholePart (x : Binary f) : Nat := x.units / twoPow f.scale

/-- The value rounded toward zero to an integral value; its sign stays, also on a zero. -/
def truncate (x : Binary f) : Binary f :=
  if x.isFinite then ofRatio x.isNegative x.wholePart 1 else x

/-- The whole part, clamped to the signed range of 64 bits; zero for a NaN. -/
def toSigned64 (x : Binary f) : Word .w64 :=
  let most : Nat := if x.isNegative then twoPow 63 else twoPow 63 - 1
  let magnitude := if x.isNaN then 0 else if x.isFinite then min x.wholePart most else most
  Word.ofSigned (if x.isNegative then -(magnitude : Int) else magnitude)

/-- The whole part, clamped to the unsigned range of 64 bits; zero for a NaN. -/
def toUnsigned64 (x : Binary f) : Word .w64 :=
  let most : Nat := if x.isNegative then 0 else twoPow 64 - 1
  Word.ofUnsigned (if x.isNaN then 0 else if x.isFinite then min x.wholePart most else most)

/-! ## To integral values -/

/-- The natural number nearest to `num / den`, a tie going to the even one. -/
def nearestNat (num den : Nat) : Nat :=
  let quotient := num / den
  let twice := 2 * (num % den)
  if den < twice ∨ (twice = den ∧ quotient % 2 = 1) then quotient + 1 else quotient

/-- The nearest integral value, ties going to the even one. The sign stays, also on a zero;
infinities stay, and a NaN stays a NaN. -/
def round (x : Binary f) : Binary f :=
  if x.isFinite then ofRatio x.isNegative (nearestNat x.units (twoPow f.scale)) 1 else x

/-! ## Between formats -/

/-- The value of format `g` nearest to `x`; infinities and the sign stay, a NaN becomes a NaN. A value
that is in format `g` already stays as it is, down to the fraction of a NaN. -/
def toFormat (x : Binary f) (g : FloatWidth) : Binary g :=
  if h : f = g then h ▸ x
  else if x.isNaN then nan x.isNegative
  else if x.isInfinite then infinity x.isNegative
  else ofRatio x.isNegative x.units (twoPow f.scale)

/-- The change of format, through the wide format. -/
def fpconv (x : Binary f) (g : FloatWidth) : Binary g := (x.toFormat .f64).toFormat g

/-- The value truncated and kept in a word of width `w`, by way of a signed 64-bit integer. -/
def fptosi (x : Binary f) (w : IntWidth) : Word w := Word.ofCarrier x.truncate.toSigned64

/-- The value truncated and kept in a word of width `w`, by way of an unsigned 64-bit integer. -/
def fptoui (x : Binary f) (w : IntWidth) : Word w := Word.ofCarrier x.truncate.toUnsigned64

end Binary

namespace Word

variable {w : IntWidth}

/-- The floating-point value nearest to the signed reading. -/
def sitofp (x : Word w) (f : FloatWidth) : Binary f := Binary.ofInt x.signedCarrier.signed

/-- The floating-point value nearest to the unsigned reading. -/
def uitofp (x : Word w) (f : FloatWidth) : Binary f := Binary.ofNat x.unsignedCarrier.unsigned

end Word

end WidthExact
