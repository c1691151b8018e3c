import WidthExact.Word.Arithmetic

/-!
# Division

Three families, each a quotient with its remainder: rounded toward zero on the signed readings
(`squot`, `srem`), rounded toward negative infinity on the signed readings (`sdiv`, `smod`), and on
the unsigned readings (`udiv`, `umod`).

The divisor is not checked beforehand: a zero divisor stops the operation with a `Trap`. The least
signed value divided by `-1` is no trap: its quotient wraps to itself and its remainder is zero.
-/

namespace WidthExact

/-- Why an unchecked division stopped. -/
inductive Trap where
  /-- A quotient by zero. -/
  | quotient
  /-- A remainder by zero. -/
  | remainder
  deriving DecidableEq, Repr

/-- What is told about a trap. -/
def Trap.message : Trap → String
  | quotient => "attempt to divide by zero"
  | remainder => "attempt to calculate the remainder with a divisor of zero"

namespace Word

variable {w : IntWidth}

/-- The signed quotient, rounded toward zero. -/
def squot (x y : Word w) : Except Trap (Word w) :=
  if y = zero then .error .quotient else .ok (ofSigned (x.signed.tdiv y.signed))

/-- The remainder of `squot`; it takes the sign of the dividend. -/
def srem (x y : Word w) : Except Trap (Word w) :=
  if y = zero then .error .remainder else .ok (ofSigned (x.signed.tmod y.signed))

/-- Whether rounding toward negative infinity differs from rounding toward zero, seen from the
remainder `r` of the latter: it is not zero and its sign is not that of the divisor. -/
def needsFloorStep (r y : Word w) : Bool := r ≠ zero && r.isNegative ≠ y.isNegative

/-- The signed quotient, rounded toward negative infinity. -/
def sdiv (x y : Word w) : Except Trap (Word w) := do
  let q ← squot x y
  let r ← srem x y
  return if needsFloorStep r y then sub q one else q

/-- The remainder of `sdiv`; it takes the sign of the divisor. -/
def smod (x y : Word w) : Except Trap (Word w) := do
  let r ← srem x y
  return if needsFloorStep r y then add r y else r

/-- The quotient of the unsigned readings. -/
def udiv (x y : Word w) : Except Trap (Word w) :=
  if y = zero then .error .quotient else .ok (ofUnsigned (x.unsigned / y.unsigned))

/-- The remainder of the unsigned readings. -/
def umod (x y : Word w) : Except Trap (Word w) :=
  if y = zero then .error .remainder else .ok (ofUnsigned (x.unsigned % y.unsigned))

end Word

end WidthExact
