import WidthExact.Width

/-!
# Words

A word is a bit pattern of one of the integer widths. It has two readings: `signed`, in two's
complement, and `unsigned`. Every operation on words is defined on the pattern, or on one reading of
its operands with the result wrapped into the width. The first of them change the width.
-/

namespace WidthExact

/-- A bit pattern of an integer width. -/
abbrev Word (w : IntWidth) := BitVec w.bits

namespace Word

variable {w : IntWidth}

/-- The integer that the pattern denotes in two's complement. -/
def signed (x : Word w) : Int := x.toInt

/-- The number that the pattern denotes without a sign. -/
def unsigned (x : Word w) : Nat := x.toNat

/-- The word whose signed reading is `n`, wrapped modulo `2 ^ w.bits`. -/
def ofSigned (n : Int) : Word w := BitVec.ofInt w.bits n

/-- The word whose unsigned reading is `n`, wrapped modulo `2 ^ w.bits`. -/
def ofUnsigned (n : Nat) : Word w := BitVec.ofNat w.bits n

/-- The sign bit. -/
def isNegative (x : Word w) : Bool := x.msb

/-- The pattern `0`. -/
def zero : Word w := 0#w.bits

/-- The pattern `1`. -/
def one : Word w := 1#w.bits

@[simp] theorem ofSigned_signed (x : Word w) : ofSigned x.signed = x := BitVec.ofInt_toInt

@[simp] theorem ofUnsigned_unsigned (x : Word w) : ofUnsigned x.unsigned = x :=
  (BitVec.ofNat_toNat w.bits x).trans (BitVec.setWidth_eq x)

/-! ## Width conversion

A word is carried to another width through a word of 64 bits, extended by its sign bit or by zeros,
of which the target keeps the low bits. So widening keeps the signed or the unsigned reading, and
narrowing keeps the low bits either way.
-/

/-- The word of 64 bits with the same signed reading. -/
def signedCarrier (x : Word w) : Word .w64 := x.signExtend 64

/-- The word of 64 bits with the same unsigned reading. -/
def unsignedCarrier (x : Word w) : Word .w64 := x.setWidth 64

/-- The low bits of a word of 64 bits. -/
def ofCarrier (x : Word .w64) : Word w := x.setWidth w.bits

/-- Conversion that copies the sign bit when it widens. -/
def sext (x : Word w) (v : IntWidth) : Word v := ofCarrier x.signedCarrier

/-- Conversion that fills with zeros when it widens. -/
def zext (x : Word w) (v : IntWidth) : Word v := ofCarrier x.unsignedCarrier

end Word

end WidthExact
