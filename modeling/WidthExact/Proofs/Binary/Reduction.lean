import WidthExact.Proofs.Binary.Order

/-!
# Reductions to the least and to the greatest value

A list is reduced by taking two values at a time until one is left. `Combination` is one way of doing
that: a tree whose leaves are the values, in some order and with some bracketing. With `Binary.fmin` or
`Binary.fmax` at its nodes, the way does not matter. A NaN gives way to whatever it is combined with, so
that a NaN is left only of NaNs; of numbers, one is left that no other one precedes. Two ways can still
leave different zeros, which are one number.

Both operations are treated as one, by the relation in which the result precedes its operands
(`Selects`): a node puts the first element of a list together with that of another one, and the
induction over the tree carries `IsFirst` from the leaves to the root.

## Main results

* `IsFirst.select` — a node.
* `IsFirst.result` — a tree.
* `IsFirst.both_nan_or_before`, `agree_of_le` — the first elements of one list are one number.
* `selects_fmin`, `selects_fmax` — the two operations.
* `reduction_independent` — reductions by either operation.
-/

namespace WidthExact

/-- A way to combine values two at a time. -/
inductive Combination (α : Type) where
  | single (value : α)
  | pair (left right : Combination α)

namespace Combination

variable {α : Type}

/-- The values combined, from left to right. -/
def leaves : Combination α → List α
  | single value => [value]
  | pair left right => left.leaves ++ right.leaves

/-- What is left when every pair is replaced by the result of `op`. -/
def result (op : α → α → α) : Combination α → α
  | single value => value
  | pair left right => op (left.result op) (right.result op)

end Combination

namespace Binary

variable {f : FloatWidth}

/-! ## First elements -/

/-- Two results that are both no number, or are one number, and then have the same bits but for the sign
of a zero. -/
def Agree (x y : Binary f) : Prop :=
  (x.isNaN = true ∧ y.isNaN = true) ∨
    (eq x y = true ∧ (x = y ∨ x.isZero = true ∧ y.isZero = true))

/-- Of the values in `xs`, `x` is a NaN if they all are, and otherwise one that is `before` every
number. -/
structure IsFirst (before : Binary f → Binary f → Bool) (xs : List (Binary f)) (x : Binary f) :
    Prop where
  mem : x ∈ xs
  isNaN_iff : x.isNaN = true ↔ ∀ y ∈ xs, y.isNaN = true
  before : ∀ y ∈ xs, y.isNaN = false → before x y = true

/-- Beside a NaN, `op` gives the other operand, and of two numbers one that is `before` both. -/
structure Selects (before : Binary f → Binary f → Bool) (op : Binary f → Binary f → Binary f) :
    Prop where
  refl {x : Binary f} : x.isNaN = false → before x x = true
  trans {x y z : Binary f} : before x y = true → before y z = true → before x z = true
  left_of_nan {x y : Binary f} : y.isNaN = true → x.isNaN = false → op x y = x
  right_of_nan {x y : Binary f} : x.isNaN = true → op x y = y
  mem (x y : Binary f) : op x y = x ∨ op x y = y
  before {x y : Binary f} : x.isNaN = false → y.isNaN = false →
    before (op x y) x = true ∧ before (op x y) y = true

/-! ## One node -/

namespace Selects

variable {before : Binary f → Binary f → Bool} {op : Binary f → Binary f → Binary f}
  (h : Selects before op) {x y z : Binary f}

include h

/-- No number is lost to a NaN. -/
theorem isNaN_op (x y : Binary f) : (op x y).isNaN = (x.isNaN && y.isNaN) := by
  cases hx : x.isNaN with
  | true => rw [h.right_of_nan hx, Bool.true_and]
  | false =>
      rw [Bool.false_and]
      cases hy : y.isNaN with
      | true => rw [h.left_of_nan hy hx, hx]
      | false =>
          rcases h.mem x y with hLeft | hRight
          · rw [hLeft, hx]
          · rw [hRight, hy]

theorem before_of_left (hx : x.isNaN = false) (hz : before x z = true) :
    before (op x y) z = true := by
  cases hy : y.isNaN with
  | true => rwa [h.left_of_nan hy hx]
  | false => exact h.trans (h.before hx hy).1 hz

theorem before_of_right (hy : y.isNaN = false) (hz : before y z = true) :
    before (op x y) z = true := by
  cases hx : x.isNaN with
  | true => rwa [h.right_of_nan hx]
  | false => exact h.trans (h.before hx hy).2 hz

end Selects

namespace IsFirst

variable {before : Binary f → Binary f → Bool} {op : Binary f → Binary f → Binary f}
  {xs ys : List (Binary f)} {x y : Binary f}

theorem single (hSelects : Selects before op) (x : Binary f) : IsFirst before [x] x where
  mem := List.mem_singleton_self x
  isNaN_iff := by rw [List.forall_mem_singleton]
  before y hy hNumber := by
    obtain rfl := List.mem_singleton.mp hy
    exact hSelects.refl hNumber

/-- If there is a number, the first element is one. -/
theorem isNaN_eq_false (hx : IsFirst before xs x) {z : Binary f} (hz : z ∈ xs)
    (hNumber : z.isNaN = false) : x.isNaN = false := by
  rw [← Bool.not_eq_true, hx.isNaN_iff]
  intro hAll
  rw [hAll z hz] at hNumber
  exact Bool.noConfusion hNumber

/-- The first elements of two lists are combined to the first one of both. -/
theorem select (hSelects : Selects before op) (hx : IsFirst before xs x) (hy : IsFirst before ys y) :
    IsFirst before (xs ++ ys) (op x y) where
  mem := by
    rw [List.mem_append]
    rcases hSelects.mem x y with h | h
    · exact .inl (h.symm ▸ hx.mem)
    · exact .inr (h.symm ▸ hy.mem)
  isNaN_iff := by
    rw [hSelects.isNaN_op, Bool.and_eq_true, hx.isNaN_iff, hy.isNaN_iff, List.forall_mem_append]
  before z hz hNumber := by
    rcases List.mem_append.mp hz with hLeft | hRight
    · exact hSelects.before_of_left (hx.isNaN_eq_false hLeft hNumber) (hx.before z hLeft hNumber)
    · exact hSelects.before_of_right (hy.isNaN_eq_false hRight hNumber) (hy.before z hRight hNumber)

/-! ## A tree -/

/-- The order of a list does not tell which element is first. -/
theorem perm (h : IsFirst before xs x) (hPerm : xs.Perm ys) : IsFirst before ys x where
  mem := hPerm.mem_iff.mp h.mem
  isNaN_iff := by simp only [h.isNaN_iff, hPerm.mem_iff]
  before y hy := h.before y (hPerm.mem_iff.mpr hy)

/-- **A whole reduction.** The induction is on the tree, and every subtree leaves the first one of its
own leaves. -/
theorem result (hSelects : Selects before op) (t : Combination (Binary f)) :
    IsFirst before t.leaves (t.result op) := by
  induction t with
  | single value => exact .single hSelects value
  | pair left right ihLeft ihRight => exact ihLeft.select hSelects ihRight

/-- First elements of one list precede each other, if one is a number. -/
theorem both_nan_or_before (hx : IsFirst before xs x) (hy : IsFirst before xs y) :
    (x.isNaN = true ∧ y.isNaN = true) ∨ (before x y = true ∧ before y x = true) := by
  cases hNaN : x.isNaN with
  | true => exact .inl ⟨rfl, hy.isNaN_iff.mpr (hx.isNaN_iff.mp hNaN)⟩
  | false =>
      have hNumber := hy.isNaN_eq_false hx.mem hNaN
      exact .inr ⟨hx.before y hy.mem hNumber, hy.before x hx.mem hNaN⟩

end IsFirst

/-! ## The two operations -/

/-- Numbers that are at most each other are one number. -/
theorem agree_of_le {x y : Binary f} (hxy : le x y = true) (hyx : le y x = true) : Agree x y := by
  obtain ⟨hx, hy, hLe⟩ := le_iff.mp hxy
  have hKey := Int.le_antisymm hLe (le_iff.mp hyx).2.2
  exact .inr ⟨eq_iff.mpr ⟨hx, hy, hKey⟩, eq_or_isZero_of_orderKey hKey⟩

/-- An operation that compares numbers by a total relation selects by it. -/
theorem selects_of_eq {before : Binary f → Binary f → Bool} {op : Binary f → Binary f → Binary f}
    (hTotal : ∀ {x y}, x.isNaN = false → y.isNaN = false → before x y = true ∨ before y x = true)
    (hTrans : ∀ {x y z}, before x y = true → before y z = true → before x z = true)
    (hOp : ∀ x y, op x y = if x.isNaN then y else if y.isNaN then x else if before x y then x else y) :
    Selects before op where
  refl hx := (hTotal hx hx).elim id id
  trans := hTrans
  left_of_nan hy hx := by rw [hOp, hx, hy]; rfl
  right_of_nan hx := by rw [hOp, hx]; rfl
  mem x y := by
    rw [hOp]
    repeat' split
    all_goals simp
  before {x y} hx hy := by
    rw [hOp, hx, hy, if_neg Bool.false_ne_true, if_neg Bool.false_ne_true]
    split
    · next hBefore => exact ⟨(hTotal hx hx).elim id id, hBefore⟩
    · next hNot => exact ⟨(hTotal hx hy).resolve_left hNot, (hTotal hy hy).elim id id⟩

theorem selects_fmin : Selects le (fmin : Binary f → Binary f → Binary f) :=
  selects_of_eq le_total le_trans fun x y => by
    unfold fmin
    split <;> [rfl; split <;> [rfl; skip]]
    next hx hy =>
      rw [lt_eq_not_le (eq_false_of_ne_true hy) (eq_false_of_ne_true hx)]
      cases le x y <;> rfl

theorem selects_fmax : Selects (fun x y => le y x) (fmax : Binary f → Binary f → Binary f) :=
  selects_of_eq (fun hx hy => le_total hy hx) (fun hxy hyz => le_trans hyz hxy) fun x y => by
    unfold fmax
    split <;> [rfl; split <;> [rfl; skip]]
    next hx hy =>
      rw [lt_eq_not_le (eq_false_of_ne_true hx) (eq_false_of_ne_true hy)]
      cases le y x <;> rfl

/-- **Reductions by minimum or maximum do not depend on order.** Whatever the order and the bracketing
in which the values of a list are combined, two results agree. The result is a NaN if all values are,
and otherwise one of them that is at most, or at least, every number among them. In one step, a NaN
gives way to a number, of which every bit is kept. -/
theorem reduction_independent {xs : List (Binary f)} {t u : Combination (Binary f)}
    (ht : t.leaves.Perm xs) (hu : u.leaves.Perm xs) :
    (Agree (t.result fmin) (u.result fmin) ∧ IsFirst le xs (t.result fmin)) ∧
    (Agree (t.result fmax) (u.result fmax) ∧ IsFirst (fun x y => le y x) xs (t.result fmax)) ∧
    ∀ x y : Binary f, x.isNaN = true → y.isNaN = false →
      fmin x y = y ∧ fmin y x = y ∧ fmax x y = y ∧ fmax y x = y := by
  have hLeast := (IsFirst.result selects_fmin t).perm ht
  have hLeast' := (IsFirst.result selects_fmin u).perm hu
  have hGreatest := (IsFirst.result selects_fmax t).perm ht
  have hGreatest' := (IsFirst.result selects_fmax u).perm hu
  refine ⟨⟨?_, hLeast⟩, ⟨?_, hGreatest⟩, fun x y hx hy => ⟨?_, ?_, ?_, ?_⟩⟩
  · rcases hLeast.both_nan_or_before hLeast' with hNaN | ⟨hBefore, hBehind⟩
    · exact .inl hNaN
    · exact agree_of_le hBefore hBehind
  · rcases hGreatest.both_nan_or_before hGreatest' with hNaN | ⟨hBefore, hBehind⟩
    · exact .inl hNaN
    · exact agree_of_le hBehind hBefore
  · exact selects_fmin.right_of_nan hx
  · exact selects_fmin.left_of_nan hx hy
  · exact selects_fmax.right_of_nan hx
  · exact selects_fmax.left_of_nan hx hy

/-- A NaN between a zero of either sign and a negative number, combined from the left and from the
right: the least value is the number, and the greatest is one zero or the other. -/
theorem reduction_independent_nan_between :
    let nan := Combination.single (⟨0x7fc00000#32⟩ : Binary .f32)
    let zeros := Combination.pair (.single (⟨0#32⟩ : Binary .f32)) (.single ⟨0x80000000#32⟩)
    let minusTwo := Combination.single (⟨0xc0000000#32⟩ : Binary .f32)
    Agree (((nan.pair zeros).pair minusTwo).result fmin)
        ((minusTwo.pair (zeros.pair nan)).result fmin) ∧
      Agree (((nan.pair zeros).pair minusTwo).result fmax)
        ((minusTwo.pair (zeros.pair nan)).result fmax) ∧
      fmin (⟨0x7fc00000#32⟩ : Binary .f32) ⟨0xc0000000#32⟩ = ⟨0xc0000000#32⟩ := by
  intro nan zeros minusTwo
  obtain ⟨⟨hMin, -⟩, ⟨hMax, -⟩, hBeside⟩ := reduction_independent
    (t := (nan.pair zeros).pair minusTwo) (u := minusTwo.pair (zeros.pair nan)) (.refl _) (by decide)
  exact ⟨hMin, hMax, (hBeside _ _ (by decide) (by decide)).1⟩

end Binary

end WidthExact
