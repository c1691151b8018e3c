import WidthExact.Word.Basic

/-!
# Wraparound arithmetic, bit operations and shifts

Sums, differences, products and powers are reduced modulo `2 ^ w.bits`; overflow is no error.

A shift amount is the unsigned reading of a word, cut to 32 bits and reduced modulo the width. Every
width divides `2 ^ 32`, so the cut loses nothing: the amount is the unsigned reading modulo the width.
-/

namespace WidthExact.Word

variable {w : IntWidth}

/-! ## Arithmetic -/

/-- The sum modulo `2 ^ w.bits`. -/
def add (x y : Word w) : Word w := x + y

/-- The difference modulo `2 ^ w.bits`. -/
def sub (x y : Word w) : Word w := x - y

/-- The product modulo `2 ^ w.bits`. -/
def mul (x y : Word w) : Word w := x * y

/-- The product of `acc` and the power of `base` to `exponent`, by repeated squaring: the exponent's
bits, from the lowest, say which of the squares are multiplied. -/
def mulPower (acc base : Word w) (exponent : Nat) : Word w :=
  if exponent = 0 then acc
  else mulPower (if exponent % 2 = 1 then mul acc base else acc) (mul base base) (exponent / 2)

/-- The power of `x` to the signed reading of `y`, modulo `2 ^ w.bits`; an exponent that is not
positive gives `1`. -/
def pow (x y : Word w) : Word w :=
  if y.signed ≤ 0 then one else mulPower one x y.signed.toNat

/-! ## Bit operations -/

/-- The bits set in either word. -/
def or (x y : Word w) : Word w := x ||| y

/-- The bits set in exactly one of the words. -/
def xor (x y : Word w) : Word w := x ^^^ y

/-- The bits set in both words. -/
def and (x y : Word w) : Word w := x &&& y

/-! ## Shifts -/

/-- The shift amount that a word carries: its unsigned reading, cut to 32 bits. -/
def shiftAmount (y : Word w) : Nat := y.unsigned % twoPow 32

/-- Shifts left by an amount modulo the width; zeros come in. -/
def shiftLeft (x : Word w) (amount : Nat) : Word w := x <<< (amount % w.bits)

/-- Shifts right by an amount modulo the width; zeros come in. -/
def shiftRight (x : Word w) (amount : Nat) : Word w := x >>> (amount % w.bits)

/-- Shifts right by an amount modulo the width; copies of the sign bit come in. -/
def shiftRightSigned (x : Word w) (amount : Nat) : Word w := x.sshiftRight (amount % w.bits)

/-- Shift left. -/
def shl (x y : Word w) : Word w := x.shiftLeft y.shiftAmount

/-- Arithmetic shift right. -/
def ashr (x y : Word w) : Word w := x.shiftRightSigned y.shiftAmount

/-- Logical shift right. -/
def lshr (x y : Word w) : Word w := x.shiftRight y.shiftAmount

end WidthExact.Word
