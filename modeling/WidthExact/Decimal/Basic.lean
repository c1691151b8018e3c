import WidthExact.Binary.Rounding
import WidthExact.Text.Numeral

/-!
# Decimals

A decimal is a natural coefficient times a power of ten. This module rounds a decimal to a binary
format and writes it positionally, without an exponent.
-/

namespace WidthExact

/-- The number `coefficient * 10 ^ exponent`. -/
structure Decimal where
  coefficient : Nat
  exponent : Int
  deriving DecidableEq, Repr

namespace Decimal

/-- The magnitude pattern nearest to a decimal. A number of at least `10 ^ 400` or below `10 ^ -400`
is recognised by the size of its coefficient, before any power of ten is computed: `2 ^ k` is at
least `10 ^ (k / 4)`, and at most `10 ^ ((k + 2) / 3)`. -/
def nearest (f : FloatWidth) (d : Decimal) : Nat :=
  let size : Nat := d.coefficient.log2
  if d.coefficient = 0 then 0
  else if 400 ≤ d.exponent + (size / 4 : Nat) then f.infinity
  else if d.exponent + ((size + 3) / 3 : Nat) < -400 then 0
  else f.nearestRatio (d.coefficient * tenPow d.exponent.toNat) (tenPow (-d.exponent).toNat)

/-- The same number with the zeros at the end of the coefficient moved into the exponent. -/
def strip (d : Decimal) : Decimal :=
  if h : d.coefficient ≠ 0 ∧ d.coefficient % 10 = 0 then
    strip ⟨d.coefficient / 10, d.exponent + 1⟩
  else d
termination_by d.coefficient
decreasing_by exact Nat.div_lt_self (Nat.pos_of_ne_zero h.1) (by decide)

/-- The digits with a point where it belongs and zeros where digits are missing; no point if the
number is whole. -/
def positional (d : Decimal) : List Char :=
  let digits := Text.decimal d.coefficient
  if 0 ≤ d.exponent then digits ++ List.replicate d.exponent.toNat '0'
  else
    let places := (-d.exponent).toNat
    if places < digits.length then
      digits.take (digits.length - places) ++ '.' :: digits.drop (digits.length - places)
    else '0' :: '.' :: List.replicate (places - digits.length) '0' ++ digits

end Decimal

end WidthExact
