import WidthExact.Proofs.Primitive.Value

/-!
# Chains of conversions

Words that are converted from width to width, by their sign bit or by zeros at each step. A conversion
to a width at least as wide keeps the reading that it extends, so that nothing of it shows behind a
wide middle. A conversion to a width at most as wide keeps the low bits, and does not tell how the word
was widened before. Between the two lies the middle that is narrower than both ends: it cuts off bits
that the direct conversion keeps.

A chain is a list of such steps. What a chain of one kind keeps is an invariant of its steps, but which
one depends on its ends: towards a wider end it is the word that the direct conversion to the current
width gives, towards a narrower end it is the low bits of the first word, which any kind of step keeps.

## Main results

* `IntConvertOp.run_run_of_wider`, `IntConvertOp.run_run_of_narrower` — two steps.
* `IntConvertOp.run_run_iff` — which middles do not show.
* `ConversionChain.run_of_wider`, `ConversionChain.run_of_narrower` — chains of any length.
* `conversion_chains` — all together.
-/

namespace WidthExact

open Word

variable {F G T : IntWidth}

/-! ## Two steps -/

namespace IntConvertOp

/-- Widening keeps the reading that it extends. -/
theorem reading_run (op : IntConvertOp) (hWider : F.bits ≤ G.bits) (x : Word F) :
    op.reading (op.run x G) = op.reading x := by
  cases op with
  | sext => exact signed_sext hWider x
  | zext => exact congrArg Int.ofNat (unsigned_zext hWider x)

/-- Narrowing keeps the low bits, by either conversion. -/
theorem unsigned_run (op : IntConvertOp) (hNarrower : T.bits ≤ F.bits) (x : Word F) :
    (op.run x T).unsigned = x.unsigned % 2 ^ T.bits := by
  have hRun := op.run_ofSigned hNarrower x.unsigned
  rw [ofSigned_unsigned] at hRun
  have hResidue := unsigned_ofSigned (w := T) x.unsigned
  rw [← hRun] at hResidue
  exact_mod_cast hResidue

theorem run_eq_run (op op' : IntConvertOp) (hNarrower : T.bits ≤ F.bits) (x : Word F) :
    op.run x T = op'.run x T :=
  BitVec.eq_of_toNat_eq ((op.unsigned_run hNarrower x).trans (op'.unsigned_run hNarrower x).symm)

theorem run_self (op : IntConvertOp) (x : Word F) : op.run x F = x := by
  rw [run_eq_ofSigned, ofSigned_reading]

/-- Behind a middle at least as wide as the source. -/
theorem run_run_of_wider (op : IntConvertOp) (hWider : F.bits ≤ G.bits) (x : Word F)
    (T : IntWidth) : op.run (op.run x G) T = op.run x T := by
  rw [run_eq_ofSigned, op.reading_run hWider, ← run_eq_ofSigned]

/-- In front of a target at most as wide as the middle, where the second step may be of either kind. -/
theorem run_run_of_narrower (op op' : IntConvertOp) (hNarrower : T.bits ≤ G.bits) (x : Word F) :
    op'.run (op.run x G) T = op.run x T := by
  rw [op.run_eq_ofSigned x G, op'.run_ofSigned hNarrower, ← run_eq_ofSigned]

theorem run_zero (op : IntConvertOp) (T : IntWidth) : op.run (zero : Word F) T = zero := by
  have hReading : op.reading (zero : Word F) = 0 := by
    cases op with
    | sext => exact signed_zero
    | zext => exact congrArg Int.ofNat ((unsigned_eq_zero_iff _).mpr rfl)
  rw [run_eq_ofSigned, hReading, zero_eq_ofSigned]

/-- No word but zero is converted to zero, unless bits are cut off. -/
theorem run_ne_zero (op : IntConvertOp) {x : Word F} (hBits : x.unsigned < 2 ^ T.bits)
    (hx : x ≠ zero) : op.run x T ≠ zero := by
  intro hZero
  refine hx ?_
  rcases Nat.le_total T.bits F.bits with hNarrower | hWider
  · have hUnsigned := op.unsigned_run hNarrower x
    rw [hZero, (unsigned_eq_zero_iff _).mpr rfl, Nat.mod_eq_of_lt hBits] at hUnsigned
    exact (unsigned_eq_zero_iff x).mp hUnsigned.symm
  · rw [← op.run_self x, ← op.run_run_of_wider hWider, hZero, run_zero]

/-- A middle narrower than both ends: the lowest bit that it cuts off is kept by the direct
conversion. -/
theorem exists_run_run_ne (op : IntConvertOp) (hNarrow : G.bits < min F.bits T.bits) :
    ∃ x : Word F, op.run (op.run x G) T ≠ op.run x T := by
  obtain ⟨hSource, hTarget⟩ := Nat.lt_min.mp hNarrow
  have hBit : (ofUnsigned (2 ^ G.bits) : Word F).unsigned = 2 ^ G.bits :=
    unsigned_ofUnsigned (Nat.pow_lt_pow_right (by decide) hSource)
  have hCut : op.run (ofUnsigned (2 ^ G.bits) : Word F) G = zero := by
    rw [← unsigned_eq_zero_iff, op.unsigned_run hSource.le, hBit, Nat.mod_self]
  refine ⟨ofUnsigned (2 ^ G.bits), ?_⟩
  rw [hCut, run_zero]
  refine (op.run_ne_zero ?_ ?_).symm
  · rw [hBit]
    exact Nat.pow_lt_pow_right (by decide) hTarget
  · rw [Ne, ← unsigned_eq_zero_iff, hBit]
    exact (Nat.two_pow_pos _).ne'

/-- **A middle does not show if it is no narrower than the narrower end**, and only then. -/
theorem run_run_iff (op : IntConvertOp) :
    (∀ x : Word F, op.run (op.run x G) T = op.run x T) ↔ min F.bits T.bits ≤ G.bits := by
  constructor
  · intro hSame
    by_contra hNarrow
    obtain ⟨x, hDiffers⟩ := op.exists_run_run_ne (Nat.lt_of_not_le hNarrow)
    exact hDiffers (hSame x)
  · intro hWide x
    rcases min_le_iff.mp hWide with hSource | hTarget
    · exact op.run_run_of_wider hSource x T
    · exact op.run_run_of_narrower op hTarget x

end IntConvertOp

/-! ## Chains -/

/-- Conversions one after the other, from the first width to the second. -/
inductive ConversionChain : IntWidth → IntWidth → Type where
  | last {F T : IntWidth} (op : IntConvertOp) : ConversionChain F T
  | via {F T : IntWidth} (op : IntConvertOp) (G : IntWidth) (rest : ConversionChain G T) :
    ConversionChain F T

namespace ConversionChain

/-- The word at the end of a chain. -/
def run : {F T : IntWidth} → ConversionChain F T → Word F → Word T
  | _, T, last op, x => op.run x T
  | _, _, via op G rest, x => rest.run (op.run x G)

/-- The widths between the two ends. -/
def middles : {F T : IntWidth} → ConversionChain F T → List IntWidth
  | _, _, last _ => []
  | _, _, via _ G rest => G :: rest.middles

/-- The kinds of the steps. -/
def steps : {F T : IntWidth} → ConversionChain F T → List IntConvertOp
  | _, _, last op => [op]
  | _, _, via op _ rest => op :: rest.steps

/-- Towards a wider end, by induction on the chain. The word that a chain has come to is the direct
conversion of the first one, `x`, as long as no width on the way is narrower than that of `x`. -/
theorem run_run_of_wider {op : IntConvertOp} (chain : ConversionChain G T)
    (hSteps : ∀ step ∈ chain.steps, step = op) (hHere : F.bits ≤ G.bits)
    (hMiddles : ∀ H ∈ chain.middles, F.bits ≤ H.bits) (x : Word F) :
    chain.run (op.run x G) = op.run x T := by
  induction chain with
  | last step =>
      obtain rfl := hSteps step List.mem_cons_self
      exact step.run_run_of_wider hHere x _
  | via step H rest ih =>
      obtain ⟨rfl, hRest⟩ := List.forall_mem_cons.mp hSteps
      obtain ⟨hNext, hOthers⟩ := List.forall_mem_cons.mp hMiddles
      rw [run, step.run_run_of_wider hHere]
      exact ih hRest hNext hOthers

theorem run_of_wider {op : IntConvertOp} (chain : ConversionChain F T)
    (hSteps : ∀ step ∈ chain.steps, step = op)
    (hMiddles : ∀ H ∈ chain.middles, F.bits ≤ H.bits) (x : Word F) :
    chain.run x = op.run x T := by
  have hRun := chain.run_run_of_wider hSteps le_rfl hMiddles x
  rwa [op.run_self] at hRun

/-- Towards a narrower end, by induction on the chain: every step keeps the low bits, of whichever kind
it is. -/
theorem run_of_narrower (op : IntConvertOp) (chain : ConversionChain F T)
    (hNarrower : T.bits ≤ F.bits) (hMiddles : ∀ H ∈ chain.middles, T.bits ≤ H.bits) (x : Word F) :
    chain.run x = op.run x T := by
  induction chain with
  | last step => exact step.run_eq_run op hNarrower x
  | via step H rest ih =>
      obtain ⟨hNext, hOthers⟩ := List.forall_mem_cons.mp hMiddles
      rw [run, ih hNext hOthers, step.run_run_of_narrower op hNext, step.run_eq_run op hNarrower]

end ConversionChain

/-- **Chains of width changes compose.** Two conversions of one kind are the direct one for all words if
the middle width is no narrower than the narrower end, and only then. Down to a width no greater than
the other two, any two conversions give the low bits, so that a word widened in one way and narrowed
in another is the word itself. A conversion to a width at least as wide keeps its reading. A chain of
any length through widths no narrower than the narrower end is the direct conversion if its steps are
of one kind; towards a narrower end they may be of any kind, and the low bits are what is left. -/
theorem conversion_chains (F G T : IntWidth) :
    (∀ op : IntConvertOp, (∀ x : Word F, op.run (op.run x G) T = op.run x T) ↔
        min F.bits T.bits ≤ G.bits) ∧
      (∀ (x : Word F) (op op' : IntConvertOp), T.bits ≤ F.bits → T.bits ≤ G.bits →
        (op'.run (op.run x G) T).unsigned = x.unsigned % 2 ^ T.bits) ∧
      (∀ (x : Word F) (op op' : IntConvertOp), F.bits ≤ G.bits → op'.run (op.run x G) F = x) ∧
      (∀ x : Word F, F.bits ≤ T.bits →
        (x.sext T).signed = x.signed ∧ (x.zext T).unsigned = x.unsigned) ∧
      ∀ (chain : ConversionChain F T), (∀ H ∈ chain.middles, min F.bits T.bits ≤ H.bits) →
        (∀ op : IntConvertOp, (∀ step ∈ chain.steps, step = op) →
          ∀ x, chain.run x = op.run x T) ∧
        (T.bits ≤ F.bits → ∀ x, (chain.run x).unsigned = x.unsigned % 2 ^ T.bits ∧
          ∀ op : IntConvertOp, chain.run x = op.run x T) := by
  refine ⟨fun op => op.run_run_iff, fun x op op' hSource hMiddle => ?_, fun x op op' hWider => ?_,
    fun x hWider => ⟨signed_sext hWider x, unsigned_zext hWider x⟩, fun chain hMiddles => ⟨?_, ?_⟩⟩
  · rw [op.run_run_of_narrower op' hMiddle, op.unsigned_run hSource]
  · rw [op.run_run_of_narrower op' hWider, op.run_self]
  · intro op hSteps x
    rcases Nat.le_total F.bits T.bits with hWider | hNarrower
    · rw [Nat.min_eq_left hWider] at hMiddles
      exact chain.run_of_wider hSteps hMiddles x
    · rw [Nat.min_eq_right hNarrower] at hMiddles
      exact chain.run_of_narrower op hNarrower hMiddles x
  · intro hNarrower x
    rw [Nat.min_eq_right hNarrower] at hMiddles
    refine ⟨?_, fun op => chain.run_of_narrower op hNarrower hMiddles x⟩
    rw [chain.run_of_narrower .zext hNarrower hMiddles, IntConvertOp.unsigned_run _ hNarrower]

/-- The byte `-128`, by its sign bit to 64 bits, back to 16 and on to 32; and a word of 32 bits down to
16 through 64 bits, by steps of both kinds. -/
theorem conversion_chains_byte :
    (ConversionChain.via .sext .w64 (.via .sext .w16 (.last .sext)) : ConversionChain .w8 .w32).run
        (ofSigned (-128)) = ofSigned (-128) ∧
      (ConversionChain.via .zext .w64 (.last .sext) : ConversionChain .w32 .w16).run
        (ofUnsigned 0x12348765) = ofUnsigned 0x8765 := by
  obtain ⟨-, -, -, -, hChains⟩ := conversion_chains .w8 .w64 .w32
  obtain ⟨-, -, -, -, hNarrowing⟩ := conversion_chains .w32 .w64 .w16
  have hSigned := (hChains (.via .sext .w64 (.via .sext .w16 (.last .sext))) (by decide)).1 .sext
    (by decide) (ofSigned (-128))
  have hMixed := (hNarrowing (.via .zext .w64 (.last .sext)) (by decide)).2 (by decide)
    (ofUnsigned 0x12348765)
  exact ⟨hSigned.trans (by decide), (hMixed.2 .zext).trans (by decide)⟩

end WidthExact
