import WidthExact.Word.Basic

/-!
# Order

Comparison, minimum, maximum and sign, each by one of the two readings of a word.
-/

namespace WidthExact.Word

variable {w : IntWidth}

/-- Less than, by the signed readings. -/
def slt (x y : Word w) : Bool := x.signed < y.signed

/-- At most, by the signed readings. -/
def sle (x y : Word w) : Bool := x.signed ≤ y.signed

/-- Less than, by the unsigned readings. -/
def ult (x y : Word w) : Bool := x.unsigned < y.unsigned

/-- At most, by the unsigned readings. -/
def ule (x y : Word w) : Bool := x.unsigned ≤ y.unsigned

/-- The lesser word, by the signed readings. -/
def smin (x y : Word w) : Word w := if slt y x then y else x

/-- The greater word, by the signed readings. -/
def smax (x y : Word w) : Word w := if slt y x then x else y

/-- The lesser word, by the unsigned readings. -/
def umin (x y : Word w) : Word w := if ult y x then y else x

/-- The greater word, by the unsigned readings. -/
def umax (x y : Word w) : Word w := if ult y x then x else y

/-- `-1`, `0` or `1`, as the signed reading is below, at or above zero. -/
def ssignum (x : Word w) : Word w := ofSigned x.signed.sign

/-- `0` or `1`, as the unsigned reading is at or above zero. -/
def usignum (x : Word w) : Word w := if x = zero then zero else one

end WidthExact.Word
