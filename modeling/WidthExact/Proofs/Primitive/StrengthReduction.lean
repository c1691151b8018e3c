import WidthExact.Proofs.Primitive.Value

/-!
# Operations by powers of two

A word that is `1` shifted left by less than the width stands for a power of two, and multiplying by
it, dividing by it and taking the remainder can be done by shifts and masks. This holds for all words
where the unsigned readings count, up to the power of the sign bit's place. Where the signed readings
count it holds for negative words too, since the division is the one that rounds down; but the power of
the sign bit's place is read as a negative number, so that it ends one place earlier.

## Main results

* `one_shl`, `unsigned_one_shl`, `signed_one_shl` — the power of two and its readings.
* `and_mask` — a mask takes the remainder of either reading.
* `strength_reduction` — products, quotients and remainders.
-/

namespace WidthExact.Word

variable {w : IntWidth}

section

variable {s : Word w} (hLow : 0 ≤ s.signed) (hHigh : s.signed < w.bits)

include hLow hHigh

/-! ## The power of two -/

theorem one_shl : (one : Word w).shl s = ofSigned (2 ^ s.signed.toNat) := by
  rw [one_eq_ofSigned, shl_ofSigned hLow hHigh, IntBinaryOp.value, Int.one_mul]

theorem two_pow_lt : (2 : Int) ^ s.signed.toNat < 2 ^ w.bits := by
  have hLt : 2 ^ s.signed.toNat < 2 ^ w.bits :=
    Nat.pow_lt_pow_right (by decide) (toNat_signed_lt_bits hLow hHigh)
  exact_mod_cast hLt

theorem unsigned_one_shl : (((one : Word w).shl s).unsigned : Int) = 2 ^ s.signed.toNat := by
  rw [one_shl hLow hHigh, unsigned_ofSigned]
  exact Int.emod_eq_of_lt (Int.pow_nonneg (by decide)) (two_pow_lt hLow hHigh)

/-- Below the place of the sign bit. -/
theorem signed_one_shl (hBelow : s.signed < (w.bits : Int) - 1) :
    ((one : Word w).shl s).signed = 2 ^ s.signed.toNat := by
  have hPos : (0 : Int) < 2 ^ s.signed.toNat := Int.pow_pos (by decide)
  have hHalf : (2 : Int) ^ (s.signed.toNat + 1) < 2 ^ w.bits := by
    have hLt : 2 ^ (s.signed.toNat + 1) < 2 ^ w.bits :=
      Nat.pow_lt_pow_right (by decide) (by omega)
    exact_mod_cast hLt
  rw [Int.pow_succ] at hHalf
  rw [one_shl hLow hHigh]
  exact signed_ofSigned (by omega) (by omega)

theorem one_shl_ne_zero : (one : Word w).shl s ≠ zero := by
  intro hZero
  have hPos : (0 : Int) < 2 ^ s.signed.toNat := Int.pow_pos (by decide)
  have hNone := (unsigned_eq_zero_iff _).mpr hZero
  have hPower := unsigned_one_shl hLow hHigh
  omega

/-! ## The mask -/

/-- The two readings of a word leave the same remainder, as the power divides the words' number. -/
theorem signed_emod_eq (x : Word w) :
    x.signed % 2 ^ s.signed.toNat = (x.unsigned : Int) % 2 ^ s.signed.toNat := by
  have hUnsigned := x.unsigned_eq
  have hBits : (2 : Int) ^ w.bits = 2 ^ s.signed.toNat * 2 ^ (w.bits - s.signed.toNat) := by
    have hPlace := toNat_signed_lt_bits hLow hHigh
    rw [← Int.pow_add, Nat.add_sub_cancel' hPlace.le]
  split at hUnsigned
  · rw [hUnsigned, hBits, Int.add_mul_emod_self_left]
  · rw [hUnsigned]

theorem and_mask (x : Word w) :
    x.and (((one : Word w).shl s).sub one) = ofSigned ((x.unsigned : Int) % 2 ^ s.signed.toNat) := by
  have hMask : (2 : Int) ^ s.signed.toNat - 1 = ((2 ^ s.signed.toNat - 1 : Nat) : Int) := by
    rw [Nat.cast_sub Nat.one_le_two_pow, Nat.cast_pow]
    rfl
  have hBits : (x.unsigned : Int).land ((2 ^ s.signed.toNat - 1 : Nat) : Int) =
      (x.unsigned : Int) % 2 ^ s.signed.toNat := by
    show ((x.unsigned &&& (2 ^ s.signed.toNat - 1) : Nat) : Int) = _
    rw [Nat.and_two_pow_sub_one_eq_mod, Int.natCast_emod, Nat.cast_pow]
    rfl
  rw [one_shl hLow hHigh, one_eq_ofSigned, sub_ofSigned, hMask, ← hBits, ← and_ofSigned,
    ofSigned_unsigned]

/-! ## Products, quotients and remainders -/

theorem shl_eq_mul (x : Word w) : x.shl s = x.mul ((one : Word w).shl s) := by
  have hShift := shl_ofSigned hLow hHigh x.signed
  rw [ofSigned_signed] at hShift
  rw [hShift, one_shl hLow hHigh]
  conv_rhs => rw [← x.ofSigned_signed]
  rw [mul_ofSigned, IntBinaryOp.value]

omit hHigh in
theorem two_pow_eq : (ofSigned 2 : Word w).pow s = ofSigned (2 ^ s.signed.toNat) := by
  have hTwo : (ofSigned 2 : Word w).signed = 2 := by cases w <;> decide
  rw [pow_of_nonneg _ hLow, hTwo]

theorem udiv_one_shl (x : Word w) : x.udiv ((one : Word w).shl s) = .ok (x.lshr s) := by
  rw [udiv_eq x (one_shl_ne_zero hLow hHigh), unsigned_one_shl hLow hHigh, lshr_eq hLow hHigh,
    IntBinaryOp.value]

theorem umod_one_shl (x : Word w) :
    x.umod ((one : Word w).shl s) = .ok (x.and (((one : Word w).shl s).sub one)) := by
  rw [umod_eq x (one_shl_ne_zero hLow hHigh), unsigned_one_shl hLow hHigh, and_mask hLow hHigh]

section

variable (hBelow : s.signed < (w.bits : Int) - 1)

include hBelow

theorem sdiv_one_shl (x : Word w) : x.sdiv ((one : Word w).shl s) = .ok (x.ashr s) := by
  have hNonneg : (0 : Int) ≤ 2 ^ s.signed.toNat := Int.pow_nonneg (by decide)
  rw [sdiv_eq x (one_shl_ne_zero hLow hHigh), signed_one_shl hLow hHigh hBelow,
    Int.fdiv_eq_ediv_of_nonneg _ hNonneg, ashr_eq hLow hHigh, IntBinaryOp.value]

theorem smod_one_shl (x : Word w) :
    x.smod ((one : Word w).shl s) = .ok (x.and (((one : Word w).shl s).sub one)) := by
  have hNonneg : (0 : Int) ≤ 2 ^ s.signed.toNat := Int.pow_nonneg (by decide)
  rw [smod_eq x (one_shl_ne_zero hLow hHigh), signed_one_shl hLow hHigh hBelow,
    Int.fmod_eq_emod_of_nonneg _ hNonneg, signed_emod_eq hLow hHigh, and_mask hLow hHigh]

end

end

/-- At the place of the sign bit the power is the least word, and `1` divided by it is rounded down to
`-1`. -/
theorem sdiv_least {s : Word w} (hPlace : s.signed = (w.bits : Int) - 1) :
    (one : Word w).sdiv ((one : Word w).shl s) ≠ .ok ((one : Word w).ashr s) ∧
      (one : Word w).smod ((one : Word w).shl s) ≠
        .ok ((one : Word w).and (((one : Word w).shl s).sub one)) := by
  have hs : s = ofSigned ((w.bits : Int) - 1) := by rw [← hPlace, ofSigned_signed]
  rw [hs]
  cases w <;> decide

/-- **Strength reduction.** For an amount `s` below the width and `d` the word `1` shifted by it, the
shift to the left is the product by `d`, which is the power of `2` to `s`; the logical shift to the
right is the unsigned quotient by `d`, and the mask below `d` takes the unsigned remainder. Below the
place of the sign bit, the arithmetic shift to the right is the quotient rounded down, and the mask
takes its remainder, of negative words too. At that place neither holds. -/
theorem strength_reduction (x s : Word w) (hLow : 0 ≤ s.signed) (hHigh : s.signed < w.bits) :
    let d := (one : Word w).shl s
    x.shl s = x.mul d ∧ x.mul d = x.mul ((ofSigned 2 : Word w).pow s) ∧
      x.udiv d = .ok (x.lshr s) ∧ x.umod d = .ok (x.and (d.sub one)) ∧
      (s.signed < (w.bits : Int) - 1 →
        x.sdiv d = .ok (x.ashr s) ∧ x.smod d = .ok (x.and (d.sub one))) ∧
      (s.signed = (w.bits : Int) - 1 →
        (one : Word w).sdiv d ≠ .ok ((one : Word w).ashr s) ∧
          (one : Word w).smod d ≠ .ok ((one : Word w).and (d.sub one))) := by
  refine ⟨shl_eq_mul hLow hHigh x, ?_, udiv_one_shl hLow hHigh x, umod_one_shl hLow hHigh x,
    fun hBelow => ⟨sdiv_one_shl hLow hHigh hBelow x, smod_one_shl hLow hHigh hBelow x⟩, sdiv_least⟩
  rw [one_shl hLow hHigh, two_pow_eq hLow]

/-- `-7` by `8` in a byte, rounded down, and the greatest unsigned byte by `128`. -/
theorem strength_reduction_byte :
    (ofSigned (-7) : Word .w8).sdiv ((one : Word .w8).shl (ofSigned 3)) =
        .ok ((ofSigned (-7) : Word .w8).ashr (ofSigned 3)) ∧
      (ofSigned (-7) : Word .w8).smod ((one : Word .w8).shl (ofSigned 3)) = .ok (ofSigned 1) ∧
      (ofUnsigned 255 : Word .w8).umod ((one : Word .w8).shl (ofSigned 7)) = .ok (ofUnsigned 127) := by
  obtain ⟨-, -, -, -, hSigned, -⟩ :=
    strength_reduction (ofSigned (-7) : Word .w8) (ofSigned 3) (by decide) (by decide)
  obtain ⟨-, -, -, hUnsigned, -, -⟩ :=
    strength_reduction (ofUnsigned 255 : Word .w8) (ofSigned 7) (by decide) (by decide)
  obtain ⟨hQuotient, hRemainder⟩ := hSigned (by decide)
  exact ⟨hQuotient, hRemainder.trans (by decide), hUnsigned.trans (by decide)⟩

end WidthExact.Word
