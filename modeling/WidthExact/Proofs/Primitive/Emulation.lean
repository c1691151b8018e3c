import WidthExact.Proofs.Primitive.Value

/-!
# Operations of a width taken at a wider one

A machine that has only the wider operations can stand in for one that has the narrower: extend the
operands, operate, and keep the low bits. Which extension is right depends on the operation. What is
told by the signed readings wants the sign bit, what is told by the unsigned ones wants zeros, and
wraparound operations take either. The quotient of the least value by `-1`, which fits the wider width
alone, is wrapped by the narrowing as the narrower operation wraps it.

Comparisons are kept by the extension of the same reading. The unsigned order is kept by both, and in
a strictly wider word the signed order of words extended by zeros is the unsigned one.

## Main results

* `run_sext`, `run_zext` — an operation on extended words, as a wrapped integer.
* `run_extended` — all operations, comparisons, signs and shifts.
-/

namespace WidthExact

open Word

variable {F T : IntWidth}

/-! ## Operations on extended words -/

namespace IntBinaryOp

theorem run_sext (hWider : F.bits ≤ T.bits) {op : IntBinaryOp} (hOp : op ∈ bySigned) {x y : Word F}
    (hDivisor : op.isDivision = true → y ≠ zero) :
    op.run (x.sext T) (y.sext T) = .ok (ofSigned (op.value x.signed y.signed)) := by
  have hDivisor' : op.isDivision = true → y.sext T ≠ zero := by
    intro hDivision hZero
    rw [← signed_eq_zero_iff, signed_sext hWider, signed_eq_zero_iff] at hZero
    exact hDivisor hDivision hZero
  rw [run_signed hOp _ hDivisor', signed_sext hWider, signed_sext hWider]

theorem run_zext (hWider : F.bits ≤ T.bits) {op : IntBinaryOp} (hOp : op ∈ byUnsigned)
    {x y : Word F} (hDivisor : op.isDivision = true → y ≠ zero) :
    op.run (x.zext T) (y.zext T) = .ok (ofSigned (op.value x.unsigned y.unsigned)) := by
  have hDivisor' : op.isDivision = true → y.zext T ≠ zero := by
    intro hDivision hZero
    rw [← unsigned_eq_zero_iff, unsigned_zext hWider, unsigned_eq_zero_iff] at hZero
    exact hDivisor hDivision hZero
  rw [run_unsigned hOp _ hDivisor', unsigned_zext hWider, unsigned_zext hWider]

end IntBinaryOp

/-! ## Comparisons and signs of extended words -/

theorem IntCompareOp.run_sext (hWider : F.bits ≤ T.bits) (op : IntCompareOp) (x y : Word F) :
    op.run (x.sext T) (y.sext T) = op.run x y := by
  cases op with
  | slt =>
      show decide _ = decide _
      rw [signed_sext hWider, signed_sext hWider]
  | sle =>
      show decide _ = decide _
      rw [signed_sext hWider, signed_sext hWider]
  | ult => exact decide_eq_decide.mpr (unsigned_sext_lt_iff hWider x y)
  | ule =>
      have hLt := unsigned_sext_lt_iff hWider y x
      exact decide_eq_decide.mpr (by rw [← Nat.not_lt, hLt, Nat.not_lt])

theorem IntCompareOp.run_zext (hWider : F.bits ≤ T.bits) {op : IntCompareOp}
    (hOp : op ∈ [ult, ule]) (x y : Word F) : op.run (x.zext T) (y.zext T) = op.run x y := by
  cases op with
  | slt => exact absurd hOp (by decide)
  | sle => exact absurd hOp (by decide)
  | ult | ule =>
      show decide _ = decide _
      rw [unsigned_zext hWider, unsigned_zext hWider]

theorem Word.slt_zext (hWider : F.bits < T.bits) (x y : Word F) :
    (x.zext T).slt (y.zext T) = x.ult y := by
  have hIff : (x.zext T).slt (y.zext T) = true ↔ x.ult y = true := by
    rw [slt_iff, ult_iff, signed_zext hWider, signed_zext hWider]
  exact Bool.eq_iff_iff.mpr hIff

theorem Word.ssignum_sext (hWider : F.bits ≤ T.bits) (x : Word F) :
    (x.sext T).ssignum = ofSigned x.signed.sign := by
  rw [ssignum, signed_sext hWider]

theorem Word.usignum_zext (hWider : F.bits ≤ T.bits) (x : Word F) :
    (x.zext T).usignum = ofSigned (if x = zero then 0 else 1) := by
  have hZero : x.zext T = zero ↔ x = zero := by
    rw [← unsigned_eq_zero_iff, unsigned_zext hWider, unsigned_eq_zero_iff]
  simp only [usignum, hZero]
  split
  · exact zero_eq_ofSigned
  · exact one_eq_ofSigned

/-! ## All together -/

/-- **A narrower width is emulated at a wider one.** For words `x` and `y` of a width and any width at
least as wide, the operation is taken on extended words, and `narrow` is either conversion back.
Operations that the signed readings tell, floor and truncating division by a divisor other than zero
among them, go through the extension by the sign bit, and all comparisons are kept by it; those that
the unsigned readings tell go through the extension by zeros. A shift by less than the narrower width
takes its amount extended either way. -/
theorem run_extended (hWider : F.bits ≤ T.bits) (x y : Word F) (narrow : IntConvertOp) :
    (∀ op ∈ ([.add, .sub, .mul, .pow, .or, .xor, .and, .smin, .smax, .squot, .srem, .sdiv, .smod] :
        List IntBinaryOp), (op.isDivision = true → y ≠ zero) →
      ∃ r, op.run (x.sext T) (y.sext T) = .ok r ∧ op.run x y = .ok (narrow.run r F)) ∧
    (∀ op : IntCompareOp, op.run (x.sext T) (y.sext T) = op.run x y) ∧
    narrow.run (x.sext T).ssignum F = x.ssignum ∧
    (∀ op ∈ ([.add, .sub, .mul, .or, .xor, .and, .umin, .umax, .udiv, .umod] :
        List IntBinaryOp), (op.isDivision = true → y ≠ zero) →
      ∃ r, op.run (x.zext T) (y.zext T) = .ok r ∧ op.run x y = .ok (narrow.run r F)) ∧
    (∀ op ∈ ([.ult, .ule] : List IntCompareOp), op.run (x.zext T) (y.zext T) = op.run x y) ∧
    narrow.run (x.zext T).usignum F = x.usignum ∧
    (F.bits < T.bits → (x.zext T).slt (y.zext T) = x.ult y) ∧
    (0 ≤ y.signed → y.signed < F.bits → ∀ extend extendAmount : IntConvertOp,
      narrow.run ((extend.run x T).shl (extendAmount.run y T)) F = x.shl y ∧
      narrow.run ((x.sext T).ashr (extendAmount.run y T)) F = x.ashr y ∧
      narrow.run ((x.zext T).lshr (extendAmount.run y T)) F = x.lshr y) := by
  refine ⟨?_, fun op => op.run_sext hWider x y, ?_, ?_, fun op hOp => op.run_zext hWider hOp x y, ?_,
    fun hStrict => slt_zext hStrict x y, ?_⟩
  · intro op hOp hDivisor
    refine ⟨_, IntBinaryOp.run_sext hWider hOp hDivisor, ?_⟩
    rw [narrow.run_ofSigned hWider]
    exact IntBinaryOp.run_signed hOp x hDivisor
  · rw [ssignum_sext hWider, narrow.run_ofSigned hWider]
    rfl
  · intro op hOp hDivisor
    refine ⟨_, IntBinaryOp.run_zext hWider hOp hDivisor, ?_⟩
    rw [narrow.run_ofSigned hWider]
    exact IntBinaryOp.run_unsigned hOp x hDivisor
  · rw [usignum_zext hWider, narrow.run_ofSigned hWider, usignum]
    split
    · exact zero_eq_ofSigned.symm
    · exact one_eq_ofSigned.symm
  · intro hLow hHigh extend extendAmount
    have hAmount := extendAmount.signed_run_of_nonneg hWider hLow
    have hLow' : 0 ≤ (extendAmount.run y T).signed := by omega
    have hHigh' : (extendAmount.run y T).signed < T.bits := by omega
    refine ⟨?_, ?_, ?_⟩
    · rw [extend.run_eq_ofSigned, shl_ofSigned hLow' hHigh', narrow.run_ofSigned hWider, hAmount,
        ← shl_ofSigned hLow hHigh, extend.ofSigned_reading]
    · rw [ashr_eq hLow' hHigh', narrow.run_ofSigned hWider, hAmount, signed_sext hWider,
        ← ashr_eq hLow hHigh]
    · rw [lshr_eq hLow' hHigh', narrow.run_ofSigned hWider, hAmount, unsigned_zext hWider,
        ← lshr_eq hLow hHigh]

/-- The least byte divided by `-1` at 32 bits, its order against `-1` without signs, and its shift by
seven. -/
theorem run_extended_least_byte :
    (∃ r, IntBinaryOp.sdiv.run ((ofSigned (-128) : Word .w8).sext .w32)
          ((ofSigned (-1) : Word .w8).sext .w32) = .ok r ∧
        IntBinaryOp.sdiv.run (ofSigned (-128) : Word .w8) (ofSigned (-1)) = .ok (r.zext .w8)) ∧
      ((ofSigned (-128) : Word .w8).zext .w32).slt ((ofSigned (-1) : Word .w8).zext .w32) = true ∧
      (((ofSigned (-128) : Word .w8).sext .w32).ashr ((ofSigned 7 : Word .w8).zext .w32)).sext .w8 =
        (ofSigned (-1) : Word .w8) := by
  have hMinusOne := run_extended (F := .w8) (T := .w32) (by decide) (ofSigned (-128))
    (ofSigned (-1)) .zext
  have hSeven := run_extended (F := .w8) (T := .w32) (by decide) (ofSigned (-128)) (ofSigned 7) .sext
  obtain ⟨hSigned, -, -, -, -, -, hOrder, -⟩ := hMinusOne
  obtain ⟨-, -, -, -, -, -, -, hAmount⟩ := hSeven
  refine ⟨hSigned .sdiv (by decide) (by decide), (hOrder (by decide)).trans (by decide), ?_⟩
  exact ((hAmount (by decide) (by decide) .sext .zext).2.1).trans (by decide)

end WidthExact
