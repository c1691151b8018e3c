import WidthExact.Proofs.Primitive.Value

/-!
# Wraparound expressions

Expressions built from leaves by sums, differences, products, the three bit operations and left shifts
by constants. In none of them a high bit reaches a lower one, so that an expression can be narrowed at
its result or at its leaves, and overflow at inner nodes cancels: the result is the value of the
expression on integers, wrapped once at the end. A right shift, a quotient or a comparison would break
both.

The shift amounts lie below a bound that is part of the expression's type. It is the number of bits
of the narrowest width at which the expression is to be evaluated; an amount beyond it would be
reduced to a different amount there.

## Main results

* `Expression.eval_ofSigned` — evaluation on wrapped integers wraps the value.
* `Expression.eval_narrowed` — narrowing the result or the leaves, and the value of the result.
-/

namespace WidthExact

open Word

/-- An expression over named leaves, with shift amounts below `bits`. -/
inductive Expression (Leaf : Type) (bits : Nat) where
  | leaf (name : Leaf)
  | binary (op : {op : IntBinaryOp // op ∈ IntBinaryOp.wraparound})
      (left right : Expression Leaf bits)
  | shl (operand : Expression Leaf bits) (amount : Fin bits)

namespace Expression

variable {Leaf : Type} {bits : Nat} {v w : IntWidth}

/-- The word that an expression gives at the width of its leaves. -/
def eval (env : Leaf → Word w) : Expression Leaf bits → Except Trap (Word w)
  | leaf name => .ok (env name)
  | binary op left right => do
      let x ← left.eval env
      let y ← right.eval env
      op.val.run x y
  | shl operand amount => do
      let x ← operand.eval env
      IntBinaryOp.shl.run x (ofUnsigned amount)

/-- The integer that an expression gives on integers. -/
def value (read : Leaf → Int) : Expression Leaf bits → Int
  | leaf name => read name
  | binary op left right => op.val.value (left.value read) (right.value read)
  | shl operand amount => IntBinaryOp.shl.value (operand.value read) amount

/-- An amount below the width is the signed reading of its word too: every width has room for it below
the sign bit. -/
theorem signed_amount {amount : Nat} (h : amount < w.bits) :
    (ofUnsigned amount : Word w).signed = amount := by
  have hRoom : 2 * (w.bits : Int) ≤ 2 ^ w.bits := by cases w <;> decide
  rw [← ofSigned_natCast]
  exact signed_ofSigned (by omega) (by omega)

/-- By induction on the expression, with the wrapped integers as the invariant: at no node does it
matter which integer a word was wrapped from. -/
theorem eval_ofSigned (hBits : bits ≤ w.bits) (read : Leaf → Int) (e : Expression Leaf bits) :
    e.eval (fun leaf => (ofSigned (read leaf) : Word w)) = .ok (ofSigned (e.value read)) := by
  induction e with
  | leaf name => rfl
  | binary op left right ihLeft ihRight =>
      rw [eval, ihLeft, ihRight]
      exact IntBinaryOp.run_ofSigned op.property _ _
  | shl operand amount ih =>
      have hSigned := signed_amount (w := w) (Nat.lt_of_lt_of_le amount.isLt hBits)
      have hLow : 0 ≤ (ofUnsigned amount : Word w).signed := by omega
      have hHigh : (ofUnsigned amount : Word w).signed < w.bits := by omega
      have hShift := shl_ofSigned hLow hHigh (operand.value read)
      rw [hSigned] at hShift
      rw [eval, ih]
      exact congrArg Except.ok hShift

/-- **Narrowing commutes with wraparound expressions.** An expression has a result at every width that
is at least `v`. The conversions of it to `v`, by sign bit or by zeros, are the result at width `v` of
the leaves converted in the same or another way; and it is the value of the expression on integers,
with each leaf read signed or unsigned, reduced once modulo the range of the width. -/
theorem eval_narrowed (hNarrower : v.bits ≤ w.bits) (e : Expression Leaf v.bits)
    (env : Leaf → Word w) :
    ∃ r, e.eval env = .ok r ∧
      (∀ (narrow : IntConvertOp) (narrowLeaf : Leaf → IntConvertOp),
        e.eval (fun leaf => (narrowLeaf leaf).run (env leaf) v) = .ok (narrow.run r v)) ∧
      ∀ read : Leaf → Int,
        (∀ leaf, read leaf = (env leaf).signed ∨ read leaf = (env leaf).unsigned) →
          (r.unsigned : Int) = e.value read % 2 ^ w.bits := by
  have hEval : ∀ read : Leaf → Int, (∀ leaf, ofSigned (read leaf) = env leaf) →
      e.eval env = .ok (ofSigned (e.value read)) := by
    intro read hRead
    rw [← funext hRead]
    exact eval_ofSigned hNarrower read e
  have hSigned := hEval (fun leaf => (env leaf).signed) (fun leaf => ofSigned_signed _)
  refine ⟨_, hSigned, ?_, ?_⟩
  · intro narrow narrowLeaf
    have hLeaves : (fun leaf => (narrowLeaf leaf).run (env leaf) v) =
        fun leaf => ofSigned (env leaf).signed := by
      funext leaf
      have hNarrowed := (narrowLeaf leaf).run_ofSigned hNarrower (env leaf).signed
      rwa [ofSigned_signed] at hNarrowed
    rw [hLeaves, narrow.run_ofSigned hNarrower]
    exact eval_ofSigned (Nat.le_refl _) _ e
  · intro read hRead
    have hWrapped : ∀ leaf, ofSigned (read leaf) = env leaf := by
      intro leaf
      rcases hRead leaf with hLeaf | hLeaf
      · rw [hLeaf, ofSigned_signed]
      · rw [hLeaf, ofSigned_unsigned]
    rw [Except.ok.inj (hSigned.symm.trans (hEval read hWrapped)), unsigned_ofSigned]

/-- The greatest word of 32 bits squared and shifted by seven: both nodes overflow, and at 8 bits the
leaf is `-1`. -/
theorem eval_narrowed_overflow :
    ∃ r : Word .w32,
      eval (fun _ => ofSigned 2147483647)
          (.shl (.binary ⟨.mul, by decide⟩ (.leaf ()) (.leaf ())) ⟨7, by decide⟩ :
            Expression Unit IntWidth.w8.bits) = .ok r ∧
        eval (fun _ => ofSigned (-1))
          (.shl (.binary ⟨.mul, by decide⟩ (.leaf ()) (.leaf ())) ⟨7, by decide⟩ :
            Expression Unit IntWidth.w8.bits) = .ok (r.zext .w8) ∧
        (r.unsigned : Int) = 2147483647 * 2147483647 * 2 ^ 7 % 2 ^ 32 := by
  obtain ⟨r, hEval, hNarrow, hValue⟩ := eval_narrowed (v := .w8) (w := .w32) (by decide)
    (.shl (.binary ⟨.mul, by decide⟩ (.leaf ()) (.leaf ())) ⟨7, by decide⟩)
    (fun _ => ofSigned 2147483647)
  have hLeaf : (ofSigned 2147483647 : Word .w32).sext .w8 = ofSigned (-1) := by decide
  refine ⟨r, hEval, ?_, hValue (fun _ => 2147483647) fun _ => .inl (by decide)⟩
  rw [← hLeaf]
  exact hNarrow .zext fun _ => .sext

end Expression

end WidthExact
