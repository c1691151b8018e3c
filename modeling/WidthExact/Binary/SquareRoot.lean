import WidthExact.Binary.Rounding

/-!
# Square root

The square root of a finite positive value, rounded once. In units of the format, the root of `u`
units is the root of `u * 2 ^ scale`, so its number of half units is the whole square root of
`4 * u * 2 ^ scale`, with something left over unless that number is a square.
-/

namespace WidthExact

/-- The whole part of the square root of `n`, two binary digits of `n` at a time. -/
def natSqrt (n : Nat) : Nat :=
  if n = 0 then 0
  else
    let root := 2 * natSqrt (n / 4)
    if (root + 1) * (root + 1) ≤ n then root + 1 else root

/-- The whole square root brackets: its square is at most `n`, and that of its successor is more. -/
theorem natSqrt_bracket (n : Nat) :
    natSqrt n * natSqrt n ≤ n ∧ n < (natSqrt n + 1) * (natSqrt n + 1) := by
  fun_induction natSqrt n with
  | case1 => simp
  | case2 n _ root fits ih =>
    refine ⟨fits, ?_⟩
    have : n < 4 * ((natSqrt (n / 4) + 1) * (natSqrt (n / 4) + 1)) := by omega
    have shape : (root + 1 + 1) * (root + 1 + 1)
        = 4 * ((natSqrt (n / 4) + 1) * (natSqrt (n / 4) + 1)) := by grind
    omega
  | case3 n _ root fits ih =>
    refine ⟨?_, by omega⟩
    have shape : root * root = 4 * (natSqrt (n / 4) * natSqrt (n / 4)) := by grind
    omega

namespace Binary

variable {f : FloatWidth}

/-- The square root, rounded to nearest. A zero is its own root; a negative value has none. -/
def sqrt (x : Binary f) : Binary f :=
  if x.isNaN ∨ x.isZero then x
  else if x.isNegative then nan false
  else if x.isInfinite then x
  else
    let square := 4 * (x.units * twoPow f.scale)
    let root := natSqrt square
    ofMagnitude false (f.nearest root (root * root ≠ square))

end Binary

end WidthExact
