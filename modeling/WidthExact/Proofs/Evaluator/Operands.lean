import WidthExact.Evaluator.Dispatch

/-!
# Operands that match a signature

Three readers meet the operands of a call: the check, which compares types, the dispatch, which reads
values at the types of the operation, and `Operands.ofScalars?`, which unwraps a whole list. They
agree: operands that pass the check are those that the other two can read, with the same values, and
the check reports the first difference there is.

## Main results

* `exists_toScalars_iff` — the operands that can be unwrapped.
* `checkOperands_eq_ok_iff`, `checkOperands_eq_error_iff` — the answer of the check.
* `checkOperands_eq_ok_iff_operands` — the check accepts what the operation can read.
* `dispatch_toScalars` — behind the check, no operand stops the dispatch.
-/

namespace WidthExact

/-! ## Unwrapping -/

namespace Operands

@[simp] theorem ofScalars?_toScalars :
    ∀ {types : List ScalarType} (operands : Operands types),
      ofScalars? types operands.toScalars = some operands
  | [], () => rfl
  | type :: _, (first, rest) => by
      rw [toScalars, ofScalars?, Scalar.as?_of, Option.bind_some, ofScalars?_toScalars rest]
      rfl

theorem toScalars_of_ofScalars? :
    ∀ {types : List ScalarType} {args : List Scalar} {operands : Operands types},
      ofScalars? types args = some operands → operands.toScalars = args
  | [], [], _, _ => rfl
  | [], _ :: _, _, h => by cases h
  | _ :: _, [], _, h => by cases h
  | type :: types, arg :: args, operands, h => by
      obtain ⟨first, hFirst, h⟩ := Option.bind_eq_some_iff.mp h
      obtain ⟨rest, hRest, rfl⟩ := Option.map_eq_some_iff.mp h
      rw [toScalars, Scalar.of_eq_of_as? hFirst, toScalars_of_ofScalars? hRest]

theorem toScalars_injective {types : List ScalarType} {operands operands' : Operands types}
    (h : operands.toScalars = operands'.toScalars) : operands = operands' := by
  have hUnwrap := ofScalars?_toScalars operands
  rw [h, ofScalars?_toScalars] at hUnwrap
  exact (Option.some.inj hUnwrap).symm

/-- The types of unwrapped operands. -/
theorem map_type_toScalars :
    ∀ {types : List ScalarType} (operands : Operands types),
      operands.toScalars.map Scalar.type = types
  | [], _ => rfl
  | type :: _, (first, rest) => by
      rw [toScalars, List.map_cons, Scalar.type_of, map_type_toScalars rest]

/-- Scalars can be unwrapped exactly if they have the types in question. -/
theorem exists_toScalars_iff {types : List ScalarType} {args : List Scalar} :
    (∃ operands : Operands types, operands.toScalars = args) ↔ args.map Scalar.type = types := by
  constructor
  · rintro ⟨operands, rfl⟩
    exact map_type_toScalars operands
  · rintro rfl
    induction args with
    | nil => exact ⟨(), rfl⟩
    | cons arg args ih =>
        obtain ⟨rest, hRest⟩ := ih
        obtain ⟨first, hFirst⟩ : ∃ first, arg.as? arg.type = some first := by
          rw [← Option.isSome_iff_exists, Option.isSome_iff_ne_none, ne_eq,
            Scalar.as?_eq_none_iff]
          exact fun h => h rfl
        exact ⟨(first, rest), by rw [toScalars, Scalar.of_eq_of_as? hFirst, hRest]⟩

end Operands

/-! ## The check -/

/-- The first index at which two lists of types differ, with the types that stand there. -/
structure FirstMismatch (params found : List ScalarType) (index : Nat)
    (expected actual : ScalarType) : Prop where
  param : params[index]? = some expected
  operand : found[index]? = some actual
  differ : actual ≠ expected
  before : ∀ j < index, found[j]? = params[j]?

namespace FirstMismatch

variable {params found : List ScalarType} {index index' : Nat}
  {expected actual expected' actual' : ScalarType}

theorem zero_iff {expected₀ actual₀ : ScalarType} :
    FirstMismatch (expected₀ :: params) (actual₀ :: found) 0 expected actual ↔
      expected₀ = expected ∧ actual₀ = actual ∧ actual ≠ expected := by
  constructor
  · intro h
    exact ⟨Option.some.inj h.param, Option.some.inj h.operand, h.differ⟩
  · rintro ⟨rfl, rfl, hNe⟩
    exact ⟨rfl, rfl, hNe, fun j hj => absurd hj (Nat.not_lt_zero j)⟩

theorem succ_iff {expected₀ actual₀ : ScalarType} :
    FirstMismatch (expected₀ :: params) (actual₀ :: found) (index + 1) expected actual ↔
      actual₀ = expected₀ ∧ FirstMismatch params found index expected actual := by
  constructor
  · intro h
    refine ⟨Option.some.inj (h.before 0 (Nat.succ_pos index)), ?_⟩
    exact ⟨h.param, h.operand, h.differ, fun j hj => h.before (j + 1) (Nat.succ_lt_succ hj)⟩
  · rintro ⟨rfl, h⟩
    refine ⟨h.param, h.operand, h.differ, ?_⟩
    intro j hj
    cases j with
    | zero => rfl
    | succ j => exact h.before j (Nat.lt_of_succ_lt_succ hj)

/-- A list does not differ from itself. -/
theorem irrefl : ¬ FirstMismatch params params index expected actual :=
  fun h => h.differ (Option.some.inj (h.operand.symm.trans h.param))

/-- There is one first difference. -/
theorem unique (h : FirstMismatch params found index expected actual)
    (h' : FirstMismatch params found index' expected' actual') :
    index = index' ∧ expected = expected' ∧ actual = actual' := by
  have hIndex : index = index' := by
    rcases Nat.lt_trichotomy index index' with hlt | heq | hgt
    · have hBefore := h'.before index hlt
      rw [h.param, h.operand] at hBefore
      exact absurd (Option.some.inj hBefore) h.differ
    · exact heq
    · have hBefore := h.before index' hgt
      rw [h'.param, h'.operand] at hBefore
      exact absurd (Option.some.inj hBefore) h'.differ
  subst hIndex
  exact ⟨rfl, Option.some.inj (h.param.symm.trans h'.param),
    Option.some.inj (h.operand.symm.trans h'.operand)⟩

end FirstMismatch

namespace Primitive

variable (p : Primitive)

theorem checkTypes_eq_ok_iff :
    ∀ (types : List ScalarType) (args : List Scalar) (index : Nat), args.length = types.length →
      (p.checkTypes index types args = .ok () ↔ args.map Scalar.type = types) := by
  intro types
  induction types with
  | nil =>
      intro args index hLen
      simp [List.length_eq_zero_iff.mp hLen, checkTypes]
  | cons expected types ih =>
      intro args index hLen
      cases args with
      | nil => simp at hLen
      | cons arg args =>
          simp only [List.length_cons, Nat.succ.injEq] at hLen
          by_cases hType : arg.type = expected
          · simp [checkTypes, hType, ih args (index + 1) hLen]
          · simp [checkTypes, hType]

/-- The check of the types reports the first difference, counted from the index it starts at. -/
theorem checkTypes_eq_error_iff {error : CallError} :
    ∀ (types : List ScalarType) (args : List Scalar) (index : Nat), args.length = types.length →
      (p.checkTypes index types args = .error error ↔
        ∃ k expected actual, FirstMismatch types (args.map Scalar.type) k expected actual ∧
          error = .typeMismatch p.name (index + k) expected actual) := by
  intro types
  induction types with
  | nil =>
      intro args index hLen
      simp only [checkTypes, reduceCtorEq, false_iff]
      rintro ⟨k, expected, actual, h, -⟩
      simpa using h.param
  | cons expected₀ types ih =>
      intro args index hLen
      cases args with
      | nil => simp at hLen
      | cons arg args =>
          simp only [List.length_cons, Nat.succ.injEq] at hLen
          by_cases hType : arg.type = expected₀
          · simp only [checkTypes, hType, ne_eq, not_true_eq_false, if_false, List.map_cons,
              ih args (index + 1) hLen]
            constructor
            · rintro ⟨k, expected, actual, h, rfl⟩
              refine ⟨k + 1, expected, actual, FirstMismatch.succ_iff.mpr ⟨rfl, h⟩, ?_⟩
              rw [Nat.add_right_comm, Nat.add_assoc]
            · rintro ⟨k, expected, actual, h, rfl⟩
              cases k with
              | zero =>
                  obtain ⟨rfl, rfl, hNe⟩ := FirstMismatch.zero_iff.mp h
                  exact absurd rfl hNe
              | succ k =>
                  refine ⟨k, expected, actual, (FirstMismatch.succ_iff.mp h).2, ?_⟩
                  rw [Nat.add_right_comm, Nat.add_assoc]
          · simp only [checkTypes, hType, ne_eq, not_false_eq_true, if_true, List.map_cons,
              Except.error.injEq]
            constructor
            · rintro rfl
              exact ⟨0, expected₀, arg.type, FirstMismatch.zero_iff.mpr ⟨rfl, rfl, hType⟩, rfl⟩
            · rintro ⟨k, expected, actual, h, rfl⟩
              cases k with
              | zero =>
                  obtain ⟨rfl, rfl, -⟩ := FirstMismatch.zero_iff.mp h
                  rfl
              | succ k => exact absurd (FirstMismatch.succ_iff.mp h).1 hType

/-- The check accepts the operands whose types are those of the signature. -/
theorem checkOperands_eq_ok_iff {args : List Scalar} :
    p.checkOperands args = .ok () ↔ args.map Scalar.type = p.signature.params := by
  unfold checkOperands
  by_cases hLen : args.length = p.signature.params.length
  · rw [if_neg (fun h => h hLen), checkTypes_eq_ok_iff p _ _ _ hLen]
  · simp only [hLen, ne_eq, not_false_eq_true, if_true, reduceCtorEq, false_iff]
    intro hTypes
    exact hLen (by rw [← hTypes, List.length_map])

/-- The check reports another number of operands before any difference in their types. -/
theorem checkOperands_eq_error_iff {args : List Scalar} {error : CallError} :
    p.checkOperands args = .error error ↔
      (args.length ≠ p.signature.params.length ∧
        error = .arityMismatch p.name p.signature.params.length args.length) ∨
      (args.length = p.signature.params.length ∧
        ∃ index expected actual,
          FirstMismatch p.signature.params (args.map Scalar.type) index expected actual ∧
            error = .typeMismatch p.name index expected actual) := by
  unfold checkOperands
  by_cases hLen : args.length = p.signature.params.length
  · rw [if_neg (fun h => h hLen), checkTypes_eq_error_iff p _ _ _ hLen]
    simp [hLen]
  · simp [hLen, eq_comm]

/-! ## The dispatch -/

theorem operand_eq_ok_iff {args : List Scalar} {index : Nat} {type : ScalarType}
    {value : type.Carrier} :
    p.operand args index type = .ok value ↔ args[index]? = some (Scalar.of type value) := by
  cases hArg : args[index]? with
  | none => simp [operand, hArg]
  | some arg =>
      have hRead : arg.as? type = some value ↔ arg = Scalar.of type value := by
        constructor
        · exact fun h => (Scalar.of_eq_of_as? h).symm
        · rintro rfl
          exact Scalar.as?_of type value
      rw [Option.some.injEq, ← hRead]
      cases hAs : arg.as? type with
      | none => simp [operand, hArg, hAs]
      | some read => simp [operand, hArg, hAs]

theorem operands_cons_eq_ok_iff {args : List Scalar} {index : Nat} {type : ScalarType}
    {types : List ScalarType} {first : type.Carrier} {rest : Operands types} :
    p.operands args index (type :: types) = .ok (first, rest) ↔
      p.operand args index type = .ok first ∧ p.operands args (index + 1) types = .ok rest := by
  rw [Primitive.operands]
  cases p.operand args index type with
  | error error => simp [bind, Except.bind]
  | ok first' =>
      cases p.operands args (index + 1) types with
      | error error => simp [bind, Except.bind]
      | ok rest' =>
          constructor
          · rintro ⟨⟩
            exact ⟨rfl, rfl⟩
          · rintro ⟨⟨⟩, ⟨⟩⟩
            rfl

/-- The dispatch reads from an index on what stands there, and looks at nothing behind it. -/
theorem operands_eq_ok_iff {args : List Scalar} :
    ∀ {types : List ScalarType} {operands : Operands types} {index : Nat},
      p.operands args index types = .ok operands ↔ operands.toScalars <+: args.drop index
  | [], (), _ => iff_of_true rfl List.nil_prefix
  | type :: types, (first, rest), index => by
      rw [operands_cons_eq_ok_iff, operand_eq_ok_iff, operands_eq_ok_iff, Operands.toScalars,
        ← List.head?_drop, ← List.tail_drop]
      cases args.drop index with
      | nil => simp
      | cons arg rest => simp [List.cons_prefix_cons, eq_comm]

/-- The operands that an operation can be run on. -/
theorem exists_operands_iff {args : List Scalar} :
    (∃ operands : Operands p.operationSignature.params, operands.toScalars = args) ↔
      args.map Scalar.type = p.signature.params := by
  rw [Operands.exists_toScalars_iff, p.operationSignature_eq]

theorem map_type_operands (operands : Operands p.operationSignature.params) :
    operands.toScalars.map Scalar.type = p.signature.params :=
  p.exists_operands_iff.mp ⟨operands, rfl⟩

/-- **The check and the operation agree**: the check accepts operands exactly if there are as many
as the primitive has and the operation can read each at the type that it takes there. -/
theorem checkOperands_eq_ok_iff_operands {args : List Scalar} :
    p.checkOperands args = .ok () ↔ args.length = p.arity ∧
      ∃ operands, p.operands args 0 p.operationSignature.params = .ok operands := by
  rw [p.checkOperands_eq_ok_iff, p.arity_eq, Signature.arity]
  simp only [operands_eq_ok_iff, List.drop_zero]
  constructor
  · intro hTypes
    obtain ⟨operands, rfl⟩ := p.exists_operands_iff.mpr hTypes
    exact ⟨by rw [← hTypes, List.length_map], operands, List.prefix_rfl⟩
  · rintro ⟨hLength, operands, hPrefix⟩
    have hTypes := p.map_type_operands operands
    -- a prefix of full length is the whole
    rw [← hTypes, hPrefix.eq_of_length (by rw [hLength, ← hTypes, List.length_map])]

/-- On operands of the right types the dispatch runs the operation: it finds every operand, and
each is of the type that the operation takes there. -/
theorem dispatch_toScalars (operands : Operands p.operationSignature.params) :
    p.dispatch operands.toScalars = .ofRun (p.run operands) := by
  rw [dispatch, p.operands_eq_ok_iff.mpr (List.prefix_rfl : operands.toScalars <+: _)]

end Primitive

end WidthExact
