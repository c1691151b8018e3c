import WidthExact.Evaluator.Basic
import WidthExact.Proofs.Evaluator.Operands
import WidthExact.Proofs.Primitive.Names

/-!
# What a checked call comes to

The unchecked operations stop on a zero divisor and on nothing else, and the evaluator refuses
exactly these calls before it runs them. So a call ends in one of three ways (`apply_cases`): the
check refuses the operands, the divisor is zero, or the operation gives a value and is counted.

## Main results

* `operation_traps_iff` — the operands on which an operation stops.
* `apply_cases` — the three ends of a call.
* `call_outcome` — the outcome of a call by name, with the priority of its faults.
-/

namespace WidthExact

/-! ## Traps -/

/-- The families whose second operand is a divisor. -/
def IntBinaryOp.divisions : List IntBinaryOp := [squot, srem, sdiv, smod, udiv, umod]

/-- A call of a division family with an integer zero as its second operand. -/
def DividesByZero (p : Primitive) (args : List Scalar) : Prop :=
  (∃ op ∈ IntBinaryOp.divisions, ∃ w, p = .intBinary op w) ∧
    ∃ w, args[1]? = some (.int w Word.zero)

theorem IntBinaryOp.isDivision_iff (op : IntBinaryOp) :
    op.isDivision = true ↔ op ∈ divisions := by
  cases op <;> decide

theorem Primitive.isDivision_iff (p : Primitive) :
    p.isDivision = true ↔ ∃ op ∈ IntBinaryOp.divisions, ∃ w, p = .intBinary op w := by
  cases p with
  | intBinary op w =>
      rw [isDivision, op.isDivision_iff]
      constructor
      · intro h
        exact ⟨op, h, w, rfl⟩
      · rintro ⟨op', h, w', hEq⟩
        cases hEq
        exact h
  | _ => simp [isDivision]

theorem Scalar.isIntZero_iff (s : Scalar) : s.isIntZero = true ↔ ∃ w, s = .int w Word.zero := by
  cases s with
  | int w value =>
      simp only [isIntZero, decide_eq_true_eq, Scalar.int.injEq]
      constructor
      · rintro rfl
        exact ⟨w, rfl, HEq.rfl⟩
      · rintro ⟨_, rfl, hValue⟩
        exact eq_of_heq hValue
  | _ => simp [isIntZero]

theorem Evaluator.hasZeroDivisor_iff (args : List Scalar) :
    hasZeroDivisor args = true ↔ ∃ w, args[1]? = some (.int w Word.zero) := by
  cases hArg : args[1]? with
  | none => simp [hasZeroDivisor, hArg]
  | some arg => simp [hasZeroDivisor, hArg, Scalar.isIntZero_iff]

/-- The evaluator's guard is the condition that it is meant to be. -/
theorem dividesByZero_iff (p : Primitive) (args : List Scalar) :
    DividesByZero p args ↔ (p.isDivision && Evaluator.hasZeroDivisor args) = true := by
  rw [Bool.and_eq_true, p.isDivision_iff, Evaluator.hasZeroDivisor_iff, DividesByZero]

/-- An operation on words stops exactly on a zero divisor; the least value divided by `-1` is
answered like any other. -/
theorem IntBinaryOp.run_traps_iff {w : IntWidth} (op : IntBinaryOp) (x y : Word w) :
    (∃ trap, op.run x y = .error trap) ↔ op.isDivision = true ∧ y = Word.zero := by
  by_cases hZero : y = Word.zero
  · cases op <;>
      simp [run, isDivision, hZero, Word.squot, Word.srem, Word.sdiv, Word.smod, Word.udiv,
        Word.umod, bind, Except.bind]
  · cases op <;>
      simp [run, isDivision, hZero, Word.squot, Word.srem, Word.sdiv, Word.smod, Word.udiv,
        Word.umod, bind, Except.bind, pure, Except.pure]

theorem Evaluator.hasZeroDivisor_pair {w : IntWidth} (x y : Word w) :
    hasZeroDivisor [.int w x, .int w y] = true ↔ y = Word.zero :=
  decide_eq_true_iff

/-- The operation of a primitive stops exactly on a zero divisor. -/
theorem Primitive.operation_traps_iff (p : Primitive)
    (operands : Operands p.operationSignature.params) :
    (∃ trap, p.operation operands = .error trap) ↔ DividesByZero p operands.toScalars := by
  rw [dividesByZero_iff, Bool.and_eq_true]
  cases p with
  | intBinary op w =>
      obtain ⟨x, y, -⟩ := operands
      have hGuard := Evaluator.hasZeroDivisor_pair (w := w) x y
      exact (op.run_traps_iff x y).trans (and_congr_right fun _ => hGuard.symm)
  | _ =>
      -- every other family has an operation that cannot stop, and is no division
      constructor
      · rintro ⟨trap, hTrap⟩
        cases hTrap
      · rintro ⟨hDivision, -⟩
        cases hDivision

/-- The run of a primitive stops exactly on a zero divisor. -/
theorem Primitive.run_traps_iff (p : Primitive) (operands : Operands p.operationSignature.params) :
    (∃ trap, p.run operands = .error trap) ↔ DividesByZero p operands.toScalars := by
  rw [← p.operation_traps_iff operands, run]
  cases p.operation operands <;> simp [Except.map]

/-- A run gives a scalar of the signature's result type. -/
theorem Primitive.type_of_run (p : Primitive) (operands : Operands p.operationSignature.params)
    {value : Scalar} (h : p.run operands = .ok value) : value.type = p.signature.result := by
  rw [run] at h
  cases hOperation : p.operation operands with
  | error trap => simp [hOperation, Except.map] at h
  | ok result =>
      rw [hOperation, Except.map, Except.ok.injEq] at h
      rw [← h, Scalar.type_of, p.operationSignature_eq]

/-! ## Applying a primitive -/

namespace Evaluator

variable (e : Evaluator) (p : Primitive)

/-- **The three ends of a call**: the check refuses the operands and the evaluator stays; the divisor
is zero, which the policy answers, and the evaluator stays; or the operation gives a value and the
call is counted. -/
theorem apply_cases (args : List Scalar) :
    (∃ error, p.checkOperands args = .error error ∧ e.apply p args = (.refused error, e)) ∨
    (args.map Scalar.type = p.signature.params ∧ DividesByZero p args ∧
      e.apply p args = (e.policy.onZeroDivisor p.name, e)) ∨
    ∃ (operands : Operands p.operationSignature.params) (value : Scalar),
      operands.toScalars = args ∧ ¬ DividesByZero p args ∧ p.run operands = .ok value ∧
        e.apply p args = (.result value, e.counted) := by
  cases hCheck : p.checkOperands args with
  | error error => exact .inl ⟨error, rfl, by simp only [apply, hCheck]⟩
  | ok =>
      have hTypes := (p.checkOperands_eq_ok_iff).mp hCheck
      by_cases hZero : DividesByZero p args
      · have hGuard := (dividesByZero_iff p args).mp hZero
        exact .inr (.inl ⟨hTypes, hZero, by simp only [apply, hCheck, hGuard, if_true]⟩)
      · obtain ⟨operands, rfl⟩ := p.exists_operands_iff.mpr hTypes
        have hGuard := mt (dividesByZero_iff p _).mpr hZero
        cases hRun : p.run operands with
        | error trap => exact absurd ((p.run_traps_iff operands).mp ⟨trap, hRun⟩) hZero
        | ok value =>
            refine .inr (.inr ⟨operands, value, rfl, hZero, hRun, ?_⟩)
            simp only [apply, hCheck, hGuard, p.dispatch_toScalars, hRun, Outcome.ofRun,
              Bool.false_eq_true, if_false]

/-- No primitive is refused for its name. -/
theorem apply_ne_parse (args : List Scalar) (error : ParseError) :
    (e.apply p args).1 ≠ .refused (.parse error) := by
  rcases e.apply_cases p args with ⟨error, hCheck, hApply⟩ | ⟨-, -, hApply⟩ | ⟨_, _, -, -, -, hApply⟩
  · rw [hApply]
    rcases (p.checkOperands_eq_error_iff).mp hCheck with ⟨-, rfl⟩ | ⟨-, _, _, _, -, rfl⟩ <;> simp
  · cases hPolicy : e.policy <;> simp [hApply, hPolicy, ZeroDivisionPolicy.onZeroDivisor]
  · simp [hApply]

/-- A name and its primitive are called alike. -/
@[simp] theorem call_name (args : List Scalar) : e.call p.name args = e.apply p args := by
  rw [call, Primitive.parse_name]

/-- Where the run gives a value, so does the call. -/
theorem apply_of_run (operands : Operands p.operationSignature.params) {value : Scalar}
    (h : p.run operands = .ok value) :
    e.apply p operands.toScalars = (.result value, e.counted) := by
  have hNotZero : ¬ DividesByZero p operands.toScalars := by
    rw [← p.run_traps_iff, h]
    exact nofun
  rcases e.apply_cases p operands.toScalars with
    ⟨error, hCheck, -⟩ | ⟨-, hZero, -⟩ | ⟨operands', value', hArgs, -, hRun, hApply⟩
  · rw [(p.checkOperands_eq_ok_iff).mpr (p.map_type_operands operands)] at hCheck
    cases hCheck
  · exact absurd hZero hNotZero
  · obtain rfl := Operands.toScalars_injective hArgs
    rw [hApply, Except.ok.inj (h.symm.trans hRun)]

/-- No call ends in a trap. -/
theorem apply_ne_trapped (args : List Scalar) (trap : Trap) :
    (e.apply p args).1 ≠ .trapped trap := by
  rcases e.apply_cases p args with ⟨error, -, hApply⟩ | ⟨-, -, hApply⟩ | ⟨_, _, -, -, -, hApply⟩
  · simp [hApply]
  · cases hPolicy : e.policy <;> simp [hApply, hPolicy, ZeroDivisionPolicy.onZeroDivisor]
  · simp [hApply]

/-- A text that names no primitive is refused, and the evaluator stays. -/
theorem call_of_no_name {name : String} (h : ∀ p : Primitive, p.name ≠ name)
    (args : List Scalar) :
    e.call name args = (.refused (.parse (.unknownPrimitive name)), e) := by
  rw [call, Primitive.parse_eq_error_iff.mpr ⟨rfl, h⟩]

/-- A text names one primitive, which every evaluator applies, or every evaluator refuses it. -/
theorem call_cases (name : String) :
    (∃ p : Primitive, p.name = name ∧
      ∀ (e : Evaluator) (args : List Scalar), e.call name args = e.apply p args) ∨
    (∀ p : Primitive, p.name ≠ name) ∧
      ∀ (e : Evaluator) (args : List Scalar),
        e.call name args = (.refused (.parse (.unknownPrimitive name)), e) := by
  by_cases hName : ∃ p : Primitive, p.name = name
  · obtain ⟨p, rfl⟩ := hName
    exact Or.inl ⟨p, rfl, fun e args => e.call_name p args⟩
  · have hNames : ∀ p : Primitive, p.name ≠ name := fun p hp => hName ⟨p, hp⟩
    exact Or.inr ⟨hNames, fun e args => e.call_of_no_name hNames args⟩

theorem call_ne_trapped (name : String) (args : List Scalar) (trap : Trap) :
    (e.call name args).1 ≠ .trapped trap := by
  rcases call_cases name with ⟨p, -, hCall⟩ | ⟨-, hCall⟩
  · rw [hCall]
    exact e.apply_ne_trapped p args trap
  · rw [hCall]
    exact nofun

variable {e p}

/-! ### One condition for each end, under the policy that refuses -/

theorem apply_eq_arityMismatch_iff (hPolicy : e.policy = .error) {args : List Scalar}
    {expected found : Nat} :
    (e.apply p args).1 = .refused (.arityMismatch p.name expected found) ↔
      args.length ≠ p.signature.params.length ∧
        expected = p.signature.params.length ∧ found = args.length := by
  rcases e.apply_cases p args with
    ⟨error, hCheck, hApply⟩ | ⟨hTypes, -, hApply⟩ | ⟨operands, _, rfl, -, -, hApply⟩
  · rw [hApply, Outcome.refused.injEq]
    rcases (p.checkOperands_eq_error_iff).mp hCheck with
      ⟨hLen, rfl⟩ | ⟨hLen, _, _, _, -, rfl⟩
    · simp [hLen, eq_comm]
    · simp [hLen]
  · have hLen := congrArg List.length hTypes
    rw [List.length_map] at hLen
    simp [hApply, hPolicy, ZeroDivisionPolicy.onZeroDivisor, hLen]
  · have hLen := congrArg List.length (p.map_type_operands operands)
    rw [List.length_map] at hLen
    simp [hApply, hLen]

theorem apply_eq_typeMismatch_iff (hPolicy : e.policy = .error) {args : List Scalar}
    {index : Nat} {expected found : ScalarType} :
    (e.apply p args).1 = .refused (.typeMismatch p.name index expected found) ↔
      args.length = p.signature.params.length ∧
        FirstMismatch p.signature.params (args.map Scalar.type) index expected found := by
  rcases e.apply_cases p args with
    ⟨error, hCheck, hApply⟩ | ⟨hTypes, -, hApply⟩ | ⟨operands, _, rfl, -, -, hApply⟩
  · rw [hApply, Outcome.refused.injEq]
    rcases (p.checkOperands_eq_error_iff).mp hCheck with
      ⟨hLen, rfl⟩ | ⟨hLen, index', expected', actual', hFirst, rfl⟩
    · simp [hLen]
    · simp only [CallError.typeMismatch.injEq, true_and, hLen]
      constructor
      · rintro ⟨rfl, rfl, rfl⟩
        exact hFirst
      · exact hFirst.unique
  · rw [hTypes]
    simp [hApply, hPolicy, ZeroDivisionPolicy.onZeroDivisor, FirstMismatch.irrefl]
  · rw [p.map_type_operands]
    simp [hApply, FirstMismatch.irrefl]

theorem apply_eq_divisionByZero_iff (hPolicy : e.policy = .error) {args : List Scalar} :
    (e.apply p args).1 = .refused (.divisionByZero p.name) ↔
      args.map Scalar.type = p.signature.params ∧ DividesByZero p args := by
  rcases e.apply_cases p args with
    ⟨error, hCheck, hApply⟩ | ⟨hTypes, hZero, hApply⟩ | ⟨operands, _, rfl, hZero, -, hApply⟩
  · rw [← p.checkOperands_eq_ok_iff, hCheck, hApply, Outcome.refused.injEq]
    rcases (p.checkOperands_eq_error_iff).mp hCheck with ⟨-, rfl⟩ | ⟨-, _, _, _, -, rfl⟩ <;> simp
  · simp [hApply, hPolicy, ZeroDivisionPolicy.onZeroDivisor, hTypes, hZero]
  · simp [hApply, hZero]

theorem apply_eq_result_iff {args : List Scalar} :
    (∃ value, (e.apply p args).1 = .result value) ↔
      args.map Scalar.type = p.signature.params ∧ ¬ DividesByZero p args := by
  rcases e.apply_cases p args with
    ⟨error, hCheck, hApply⟩ | ⟨hTypes, hZero, hApply⟩ | ⟨operands, _, rfl, hZero, -, hApply⟩
  · rw [← p.checkOperands_eq_ok_iff, hCheck]
    simp [hApply]
  · cases hPolicy : e.policy <;>
      simp [hApply, hPolicy, ZeroDivisionPolicy.onZeroDivisor, hZero]
  · simp [hApply, hZero, p.map_type_operands]

end Evaluator

/-- **The outcome of a call by name**, for every text and every operands. A text that names no
primitive is refused as it is; otherwise another number of operands is refused, otherwise the first
operand of another type, otherwise a zero divisor, and every other call has a result. The check lets
pass exactly the operands, in the right number, that the operation can read at the types it takes,
so that reading them again behind the check refuses none. -/
theorem call_outcome (e : Evaluator) (hPolicy : e.policy = .error) (name : String)
    (args : List Scalar) :
    ((e.call name args).1 = .refused (.parse (.unknownPrimitive name)) ↔
        ∀ p : Primitive, p.name ≠ name) ∧
    ∀ p : Primitive, p.name = name →
      (∀ expected found,
        (e.call name args).1 = .refused (.arityMismatch name expected found) ↔
          args.length ≠ p.signature.params.length ∧
            expected = p.signature.params.length ∧ found = args.length) ∧
      (∀ index expected found,
        (e.call name args).1 = .refused (.typeMismatch name index expected found) ↔
          args.length = p.signature.params.length ∧
            FirstMismatch p.signature.params (args.map Scalar.type) index expected found) ∧
      ((e.call name args).1 = .refused (.divisionByZero name) ↔
        args.map Scalar.type = p.signature.params ∧ DividesByZero p args) ∧
      ((∃ value, (e.call name args).1 = .result value) ↔
        args.map Scalar.type = p.signature.params ∧ ¬ DividesByZero p args) ∧
      (p.checkOperands args = .ok () ↔ args.length = p.arity ∧
        ∃ operands, p.operands args 0 p.operationSignature.params = .ok operands) := by
  constructor
  · constructor
    · rintro hRefused p rfl
      rw [e.call_name] at hRefused
      exact e.apply_ne_parse p args _ hRefused
    · intro hNames
      rw [e.call_of_no_name hNames]
  · rintro p rfl
    simp only [e.call_name]
    refine ⟨fun _ _ => Evaluator.apply_eq_arityMismatch_iff hPolicy,
      fun _ _ _ => Evaluator.apply_eq_typeMismatch_iff hPolicy,
      Evaluator.apply_eq_divisionByZero_iff hPolicy, Evaluator.apply_eq_result_iff,
      p.checkOperands_eq_ok_iff_operands⟩

/-- A zero divisor behind an operand of another type is told as the difference in type. -/
theorem call_outcome_type_before_divisor :
    ({} : Evaluator).policy = .error ∧
      (({} : Evaluator).call "smod16" [.bool true, .int .w16 Word.zero]).1 =
        .refused (.typeMismatch "smod16" 0 (.int .w16) .bool) :=
  ⟨rfl, (((call_outcome {} rfl "smod16" _).2 (.intBinary .smod .w16) rfl).2.1 _ _ _).mpr
    ⟨rfl, ⟨rfl, rfl, by decide, fun _ h => absurd h (Nat.not_lt_zero _)⟩⟩⟩

end WidthExact
