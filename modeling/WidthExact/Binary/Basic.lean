import WidthExact.Word.Basic

/-!
# Binary floating point

A value of a binary floating-point format is its bit pattern: a sign bit above a magnitude pattern,
which is an exponent field above a fraction field. Magnitude patterns are in the order of the
magnitudes they denote, with infinity above all finite ones and the NaNs above infinity.

Every finite magnitude is a whole number of `units`, where a unit is the least positive magnitude of
the format, `2 ^ -scale`. That makes a finite value an exact integer, `signedUnits`, and lets every
operation be stated and computed without rounding until its result is rounded once.

## Main definitions

* `Binary`: a value of a format, by its bit pattern.
* `FloatWidth.units`: the number of units that a magnitude pattern denotes.
* `Binary.signedUnits`: the number of units of a finite value, with its sign.
-/

namespace WidthExact

namespace FloatWidth

/-- The number of bits of a significand, the leading one included. -/
def precision : FloatWidth → Nat
  | f32 => 24
  | f64 => 53

/-- The least positive magnitude of the format is `2 ^ -scale`. -/
def scale : FloatWidth → Nat
  | f32 => 149
  | f64 => 1074

/-- The weight of the sign bit in a pattern. -/
def signWeight (f : FloatWidth) : Nat := twoPow (f.bits - 1)

/-- The weight of the exponent field's lowest bit in a pattern. -/
def fieldWeight (f : FloatWidth) : Nat := twoPow (f.precision - 1)

/-- The magnitude pattern of infinity: all ones in the exponent field, zeros in the fraction. -/
def infinity (f : FloatWidth) : Nat := f.signWeight - f.fieldWeight

/-- The number of units that a magnitude pattern denotes. A zero exponent field counts the fraction
itself; a field `e` above zero counts the fraction with a leading one, doubled `e - 1` times. -/
def units (f : FloatWidth) (magnitude : Nat) : Nat :=
  if magnitude < f.fieldWeight then magnitude
  else (f.fieldWeight + magnitude % f.fieldWeight) * twoPow (magnitude / f.fieldWeight - 1)

end FloatWidth

/-- A value of a binary floating-point format, by its bit pattern. -/
structure Binary (f : FloatWidth) where
  pattern : Word f.patternWidth
  deriving DecidableEq

namespace Binary

variable {f : FloatWidth}

/-! ## Fields -/

/-- The sign bit. -/
def isNegative (x : Binary f) : Bool := x.pattern.msb

/-- The pattern below the sign bit. -/
def magnitude (x : Binary f) : Nat := x.pattern.toNat % f.signWeight

/-- The value with the given sign bit and magnitude pattern. -/
def ofMagnitude (negative : Bool) (magnitude : Nat) : Binary f :=
  ⟨BitVec.ofNat f.bits (magnitude + if negative then f.signWeight else 0)⟩

/-- Whether the value is not a number. -/
def isNaN (x : Binary f) : Bool := f.infinity < x.magnitude

/-- Whether the value is an infinity of either sign. -/
def isInfinite (x : Binary f) : Bool := x.magnitude = f.infinity

/-- Whether the value is a number and no infinity. -/
def isFinite (x : Binary f) : Bool := x.magnitude < f.infinity

/-- Whether the value is a zero of either sign. -/
def isZero (x : Binary f) : Bool := x.magnitude = 0

/-! ## Values -/

/-- The number of units of a finite value, without its sign. -/
def units (x : Binary f) : Nat := f.units x.magnitude

/-- The number of units of a finite value, negative for a negative one. -/
def signedUnits (x : Binary f) : Int := if x.isNegative then -x.units else x.units

/-! ## Particular values -/

/-- The zero with the given sign bit. -/
def zero (negative : Bool) : Binary f := ofMagnitude negative 0

/-- The infinity with the given sign bit. -/
def infinity (negative : Bool) : Binary f := ofMagnitude negative f.infinity

/-- The NaN that stands for all of them where an operation has no number to give: its fraction has
the highest bit alone. -/
def nan (negative : Bool) : Binary f := ofMagnitude negative (f.infinity + f.fieldWeight / 2)

/-- The value with the sign bit turned over. -/
def negate (x : Binary f) : Binary f := ofMagnitude (!x.isNegative) x.magnitude

/-- The value with the sign bit cleared. -/
def absolute (x : Binary f) : Binary f := ofMagnitude false x.magnitude

/-! ## Bit casts -/

/-- The bit pattern as a word. -/
def toBits (x : Binary f) : Word f.patternWidth := x.pattern

/-- The value with the given bit pattern. -/
def ofBits (pattern : Word f.patternWidth) : Binary f := ⟨pattern⟩

@[simp] theorem toBits_ofBits (n : Word f.patternWidth) : (ofBits n : Binary f).toBits = n := rfl

/-! ## Order

The order of the numbers that values denote. The two zeros are one number, and a NaN is not comparable
with anything, itself included.
-/

/-- The magnitude pattern with the sign of the value: an integer in the order of the numbers
denoted, the same for the two zeros. -/
def orderKey (x : Binary f) : Int := if x.isNegative then -x.magnitude else x.magnitude

/-- Whether two values are the same number. -/
def eq (x y : Binary f) : Bool := !x.isNaN && !y.isNaN && x.orderKey = y.orderKey

/-- Whether one value is a lesser number than another. -/
def lt (x y : Binary f) : Bool := !x.isNaN && !y.isNaN && x.orderKey < y.orderKey

/-- Whether one value is a number at most another. -/
def le (x y : Binary f) : Bool := !x.isNaN && !y.isNaN && x.orderKey ≤ y.orderKey

/-- The lesser of two values; beside a NaN, the other one. -/
def fmin (x y : Binary f) : Binary f :=
  if x.isNaN then y else if y.isNaN then x else if lt y x then y else x

/-- The greater of two values; beside a NaN, the other one. -/
def fmax (x y : Binary f) : Binary f :=
  if x.isNaN then y else if y.isNaN then x else if lt x y then y else x

end Binary

end WidthExact
