import WidthExact.CommandLine.Response
import WidthExact.Proofs.Evaluator.Policy
import WidthExact.Proofs.Scalar.Zero

/-!
# What a call on the command line comes to

The command looks the name up, counts the operands, reads them as literals from left to right and
applies the primitive. Each stage can end the process, so a call with several faults is told only the
first of them. The evaluator behind it checks number and types once more; since a literal is read at
the type that the primitive takes there, that check finds nothing.

## Main results

* `readLiterals_eq_ok_iff`, `readLiterals_eq_error_iff` — reading stops at the first text that is no
  literal.
* `unreadable_or_readsAs` — operands are all read, or there is a first that is not.
* `callLiterals_of_reads`, `callLiterals_of_unreadable` — what the call comes to then.
* `call_response` — status, output and diagnostic.
-/

namespace WidthExact.CommandLine

/-! ## Reading operands -/

/-- The first operand that is no literal of its parameter's type. -/
structure FirstUnreadable (params : List ScalarType) (operands : List String) (index : Nat)
    (type : ScalarType) (text : String) : Prop where
  param : params[index]? = some type
  operand : operands[index]? = some text
  unreadable : ∀ value, Scalar.parse type text ≠ .ok value
  before : ∀ j < index, ∀ type' text', params[j]? = some type' → operands[j]? = some text' →
    ∃ value, Scalar.parse type' text' = .ok value

namespace FirstUnreadable

variable {params : List ScalarType} {operands : List String} {type₀ type : ScalarType}
  {text₀ text : String} {index : Nat}

theorem zero_iff :
    FirstUnreadable (type₀ :: params) (text₀ :: operands) 0 type text ↔
      type₀ = type ∧ text₀ = text ∧ ∀ value, Scalar.parse type text ≠ .ok value := by
  constructor
  · intro h
    exact ⟨Option.some.inj h.param, Option.some.inj h.operand, h.unreadable⟩
  · rintro ⟨rfl, rfl, hUnreadable⟩
    exact ⟨rfl, rfl, hUnreadable, fun j hj => absurd hj (Nat.not_lt_zero j)⟩

theorem succ_iff :
    FirstUnreadable (type₀ :: params) (text₀ :: operands) (index + 1) type text ↔
      (∃ value, Scalar.parse type₀ text₀ = .ok value) ∧
        FirstUnreadable params operands index type text := by
  constructor
  · intro h
    refine ⟨h.before 0 (Nat.succ_pos index) _ _ rfl rfl, ?_⟩
    exact ⟨h.param, h.operand, h.unreadable, fun j hj => h.before (j + 1) (Nat.succ_lt_succ hj)⟩
  · rintro ⟨hFirst, h⟩
    refine ⟨h.param, h.operand, h.unreadable, ?_⟩
    intro j hj type' text' hType hText
    cases j with
    | zero =>
        obtain rfl := Option.some.inj hType
        obtain rfl := Option.some.inj hText
        exact hFirst
    | succ j => exact h.before j (Nat.lt_of_succ_lt_succ hj) _ _ hType hText

/-- Behind an operand that is read, the first that is not is looked for among the others. -/
theorem cons_iff_of_ok {value : Scalar} (hFirst : Scalar.parse type₀ text₀ = .ok value) :
    FirstUnreadable (type₀ :: params) (text₀ :: operands) index type text ↔
      ∃ k, index = k + 1 ∧ FirstUnreadable params operands k type text := by
  cases index with
  | zero =>
      constructor
      · intro h
        obtain ⟨rfl, rfl, hUnreadable⟩ := zero_iff.mp h
        exact absurd hFirst (hUnreadable value)
      · rintro ⟨k, hIndex, -⟩
        cases hIndex
  | succ index => simp [succ_iff, hFirst]

/-- An operand in front that is not read is the first. -/
theorem cons_iff_of_error {error : ParseError} (hFirst : Scalar.parse type₀ text₀ = .error error) :
    FirstUnreadable (type₀ :: params) (text₀ :: operands) index type text ↔
      index = 0 ∧ type₀ = type ∧ text₀ = text := by
  obtain ⟨-, hUnreadable⟩ := Scalar.parse_eq_error_iff.mp hFirst
  cases index with
  | zero =>
      rw [zero_iff]
      constructor
      · rintro ⟨hType, hText, -⟩
        exact ⟨rfl, hType, hText⟩
      · rintro ⟨-, rfl, rfl⟩
        exact ⟨rfl, rfl, hUnreadable⟩
  | succ index => simp [succ_iff, hFirst]

end FirstUnreadable

/-- As many operands as there are parameters, each a literal of its parameter's type. -/
structure ReadsAs (params : List ScalarType) (operands : List String) (args : List Scalar) :
    Prop where
  length : operands.length = params.length
  values : List.zipWith Scalar.parse params operands = args.map .ok

/-- The literals are read if each of them is. -/
theorem readLiterals_eq_ok_iff {params : List ScalarType} {operands : List String}
    {args : List Scalar} :
    readLiterals params operands = .ok args ↔
      List.zipWith Scalar.parse params operands = args.map .ok := by
  induction params generalizing operands args with
  | nil => simp [readLiterals, eq_comm]
  | cons type params ih =>
      cases operands with
      | nil => simp [readLiterals, eq_comm]
      | cons text operands =>
          rw [readLiterals, List.zipWith_cons_cons]
          cases hFirst : Scalar.parse type text with
          | error error => cases args <;> simp
          | ok value =>
              cases hRest : readLiterals params operands with
              | error error =>
                  cases args with
                  | nil => simp
                  | cons arg args => simp [← ih, hRest]
              | ok values =>
                  cases args with
                  | nil => simp
                  | cons arg args => simp [← ih, hRest]

/-- Otherwise the first that is none is told, whatever stands behind it. -/
theorem readLiterals_eq_error_iff {params : List ScalarType} {operands : List String}
    {error : ParseError} :
    readLiterals params operands = .error error ↔
      ∃ index type text, FirstUnreadable params operands index type text ∧
        error = .invalidLiteral type.text text := by
  induction params generalizing operands with
  | nil =>
      simp only [readLiterals, reduceCtorEq, false_iff]
      rintro ⟨index, type, text, h, -⟩
      simpa using h.param
  | cons type₀ params ih =>
      cases operands with
      | nil =>
          simp only [readLiterals, reduceCtorEq, false_iff]
          rintro ⟨index, type, text, h, -⟩
          simpa using h.operand
      | cons text₀ operands =>
          rw [readLiterals]
          cases hFirst : Scalar.parse type₀ text₀ with
          | error error₀ =>
              obtain ⟨rfl, -⟩ := Scalar.parse_eq_error_iff.mp hFirst
              simp [FirstUnreadable.cons_iff_of_error hFirst, eq_comm]
          | ok value =>
              have hRest : (∃ index type text,
                    FirstUnreadable (type₀ :: params) (text₀ :: operands) index type text ∧
                      error = .invalidLiteral type.text text) ↔
                  readLiterals params operands = .error error := by
                rw [ih]
                simp only [FirstUnreadable.cons_iff_of_ok hFirst]
                constructor
                · rintro ⟨_, type, text, ⟨k, rfl, h⟩, hError⟩
                  exact ⟨k, type, text, h, hError⟩
                · rintro ⟨k, type, text, h, hError⟩
                  exact ⟨k + 1, type, text, ⟨k, rfl, h⟩, hError⟩
              rw [hRest]
              cases readLiterals params operands <;> simp

namespace ReadsAs

variable {params : List ScalarType} {operands : List String} {args : List Scalar}

/-- Literals have the types that they were read at. -/
theorem map_type (h : ReadsAs params operands args) : args.map Scalar.type = params := by
  obtain ⟨hLen, hValues⟩ := h
  induction params generalizing operands args with
  | nil =>
      obtain rfl := List.map_eq_nil_iff.mp hValues.symm
      rfl
  | cons type params ih =>
      obtain ⟨text, operands, rfl⟩ := List.exists_cons_of_length_eq_add_one hLen
      rw [List.zipWith_cons_cons] at hValues
      obtain ⟨arg, args, rfl, hFirst, hRest⟩ := List.map_eq_cons_iff.mp hValues.symm
      have hTail := ih (Nat.succ.inj hLen) hRest.symm
      rw [List.map_cons, Scalar.type_of_parse hFirst.symm, hTail]

/-- The divisor is the second operand, so it is zero exactly if its text spells zero. -/
theorem dividesByZero_iff {p : Primitive} (h : ReadsAs p.signature.params operands args) :
    DividesByZero p args ↔
      (∃ op ∈ IntBinaryOp.divisions, ∃ w, p = .intBinary op w) ∧
        ∃ text, operands[1]? = some text ∧ Text.SpellsZero (Text.trim text.toList) := by
  refine and_congr_right ?_
  rintro ⟨op, -, w, rfl⟩
  have hParam : (Primitive.intBinary op w).signature.params[1]? = some (.int w) := rfl
  have hSecond := congrArg (fun results => results[1]?) h.values
  simp only [List.getElem?_map, List.getElem?_zipWith, hParam] at hSecond
  cases hText : operands[1]? with
  | none =>
      rw [hText] at hSecond
      simp [Option.map_eq_none_iff.mp hSecond.symm]
  | some text =>
      rw [hText] at hSecond
      obtain ⟨arg, hArg, hParse⟩ := Option.map_eq_some_iff.mp hSecond.symm
      simp only [hArg, Option.some.injEq, exists_eq_left', ← Scalar.parse_eq_zero_iff (w := w)]
      rw [← hParse, Except.ok.injEq]
      constructor
      · rintro ⟨w', rfl⟩
        obtain rfl : w' = w := ScalarType.int.inj (Scalar.type_of_parse hParse.symm)
        rfl
      · intro hZero
        exact ⟨w, hZero⟩

end ReadsAs

/-- Of as many operands as there are parameters, one is the first that is no literal, or all are
read. -/
theorem unreadable_or_readsAs {params : List ScalarType} {operands : List String}
    (hLen : operands.length = params.length) :
    (∃ index type text, FirstUnreadable params operands index type text) ∨
      ∃ args, ReadsAs params operands args := by
  cases hRead : readLiterals params operands with
  | error error =>
      obtain ⟨index, type, text, hFirst, -⟩ := readLiterals_eq_error_iff.mp hRead
      exact .inl ⟨index, type, text, hFirst⟩
  | ok args => exact .inr ⟨args, hLen, readLiterals_eq_ok_iff.mp hRead⟩

/-! ## The ends of a call -/

theorem callLiterals_of_no_name {name : String} (h : ∀ p : Primitive, p.name ≠ name)
    (e : Evaluator) (operands : List String) :
    callLiterals e name operands = .refused (.parse (.unknownPrimitive name)) := by
  rw [callLiterals, Primitive.parse_eq_error_iff.mpr ⟨rfl, h⟩]

section

variable (e : Evaluator) (p : Primitive) {operands : List String}

theorem callLiterals_of_length_ne (h : operands.length ≠ p.signature.params.length) :
    callLiterals e p.name operands =
      .refused (.arityMismatch p.name p.signature.params.length operands.length) := by
  rw [callLiterals, Primitive.parse_name]
  exact if_neg h

theorem callLiterals_of_length_eq (h : operands.length = p.signature.params.length) :
    callLiterals e p.name operands =
      match readLiterals p.signature.params operands with
      | .error error => .refused (.parse error)
      | .ok args => (e.apply p args).1 := by
  rw [callLiterals, Primitive.parse_name]
  exact if_pos h

/-- Operands that were read have the right number and types, so what can still go wrong is the
divisor. -/
theorem callLiterals_of_reads {args : List Scalar}
    (hArgs : ReadsAs p.signature.params operands args) :
    (DividesByZero p args ∧ callLiterals e p.name operands = e.policy.onZeroDivisor p.name) ∨
      (¬ DividesByZero p args ∧ ∃ value, Catalogue.evaluate? p.name args = some value ∧
        callLiterals e p.name operands = .result value) := by
  have hCall : callLiterals e p.name operands = (e.apply p args).1 := by
    rw [callLiterals_of_length_eq e p hArgs.length, readLiterals_eq_ok_iff.mpr hArgs.values]
  rw [hCall]
  rcases e.apply_cases p args with
    ⟨error, hCheck, -⟩ | ⟨-, hZero, hApply⟩ | ⟨unwrapped, value, rfl, hZero, hRun, hApply⟩
  · rw [(p.checkOperands_eq_ok_iff).mpr hArgs.map_type] at hCheck
    cases hCheck
  · exact .inl ⟨hZero, congrArg Prod.fst hApply⟩
  · refine .inr ⟨hZero, value, ?_, congrArg Prod.fst hApply⟩
    rw [evaluate?_eq_some_iff, call, Evaluator.call_name, Evaluator.apply_of_run _ p _ hRun]

theorem callLiterals_of_unreadable (hLen : operands.length = p.signature.params.length)
    {index : Nat} {type : ScalarType} {text : String}
    (hFirst : FirstUnreadable p.signature.params operands index type text) :
    callLiterals e p.name operands = .refused (.parse (.invalidLiteral type.text text)) := by
  rw [callLiterals_of_length_eq e p hLen,
    readLiterals_eq_error_iff.mpr ⟨index, type, text, hFirst, rfl⟩]

/-- No call with literals is told that a type differs. -/
theorem callLiterals_ne_typeMismatch (name : String) (operands : List String) (primitive : String)
    (index : Nat) (expected found : ScalarType) :
    callLiterals e name operands ≠ .refused (.typeMismatch primitive index expected found) := by
  by_cases hName : ∃ p : Primitive, p.name = name
  · obtain ⟨p, rfl⟩ := hName
    by_cases hLen : operands.length = p.signature.params.length
    · rcases unreadable_or_readsAs hLen with ⟨_, _, _, hFirst⟩ | ⟨args, hArgs⟩
      · rw [callLiterals_of_unreadable e p hLen hFirst]
        simp
      · rcases callLiterals_of_reads e p hArgs with ⟨-, hCall⟩ | ⟨-, _, -, hCall⟩
        · rw [hCall]
          cases e.policy <;> simp [ZeroDivisionPolicy.onZeroDivisor]
        · rw [hCall]
          simp
    · rw [callLiterals_of_length_ne e p hLen]
      simp
  · rw [callLiterals_of_no_name (fun p hp => hName ⟨p, hp⟩)]
    simp

end

/-! ## Responses -/

/-- The end of the process with a status and the text of an error behind the program's name. -/
def refusal (program : String) (status : Nat) (error : CallError) : Response :=
  ⟨status, "", some (program ++ ": " ++ error.message)⟩

theorem ofOutcome_refused (program : String) (error : CallError) :
    Response.ofOutcome program (.refused error) =
      refusal program (if error.isMalformed then 2 else 1) error := by
  cases error <;> rfl

theorem respond_call (program name : String) (operands : List String) (options : CallOptions) :
    (Command.call name operands options).respond program =
      Response.ofOutcome program (callLiterals options.evaluator name operands) := rfl

/-- A call that is malformed, whatever the values of its operands, ends with status 2. -/
theorem respond_of_malformed {program name : String} {operands : List String}
    {options : CallOptions} {error : CallError}
    (hCall : callLiterals options.evaluator name operands = .refused error)
    (hMalformed : error.isMalformed = true) :
    (Command.call name operands options).respond program = refusal program 2 error := by
  rw [respond_call, hCall, ofOutcome_refused, if_pos hMalformed]

/-- Both policies tell a zero divisor, and only the status differs. -/
theorem ofOutcome_onZeroDivisor (program : String) (options : CallOptions) (primitive : String) :
    Response.ofOutcome program (options.evaluator.policy.onZeroDivisor primitive) =
      refusal program (options.fatalOnZero.elim 1 Diagnostic.statusOf)
        (.divisionByZero primitive) := by
  unfold CallOptions.evaluator CallOptions.policy
  cases options.fatalOnZero with
  | none => exact ofOutcome_refused program (.divisionByZero primitive)
  | some code => rfl

/-- **The answer to a call on the command line**, for every name, operands and options, and under
whatever name the program was started. A name that no primitive has is told first, then another
number of operands, whatever they are; then the first operand that is no literal of its parameter's
type. If all are read, a divisor that spells zero ends the process with status 1, or with the code of
the options modulo 256, and otherwise the result of the catalogue's function is shown on a line of
its own. Never is a difference in type told. -/
theorem call_response (program name : String) (operands : List String) (options : CallOptions) :
    ((∀ p : Primitive, p.name ≠ name) →
      (Command.call name operands options).respond program =
        refusal program 2 (.parse (.unknownPrimitive name))) ∧
    (∀ p : Primitive, p.name = name →
      (operands.length ≠ p.signature.params.length →
        (Command.call name operands options).respond program =
          refusal program 2 (.arityMismatch name p.signature.params.length operands.length)) ∧
      (operands.length = p.signature.params.length →
        (∃ index type text, FirstUnreadable p.signature.params operands index type text) ∨
          ∃ args, ReadsAs p.signature.params operands args) ∧
      (∀ index type text, operands.length = p.signature.params.length →
        FirstUnreadable p.signature.params operands index type text →
          (Command.call name operands options).respond program =
            refusal program 2 (.parse (.invalidLiteral type.text text))) ∧
      ∀ args, ReadsAs p.signature.params operands args →
        (DividesByZero p args ↔
          (∃ op ∈ IntBinaryOp.divisions, ∃ w, p = .intBinary op w) ∧
            ∃ text, operands[1]? = some text ∧ Text.SpellsZero (Text.trim text.toList)) ∧
        (DividesByZero p args →
          (Command.call name operands options).respond program =
            refusal program (options.fatalOnZero.elim 1 fun code => (code.signed % 256).toNat)
              (.divisionByZero name)) ∧
        (¬ DividesByZero p args →
          ∃ value, Catalogue.evaluate? name args = some value ∧
            (Command.call name operands options).respond program =
              ⟨0, value.text ++ "\n", none⟩)) ∧
    ∀ primitive index expected found,
      callLiterals options.evaluator name operands ≠
        .refused (.typeMismatch primitive index expected found) := by
  refine ⟨?_, ?_, callLiterals_ne_typeMismatch _ name operands⟩
  · intro hNames
    exact respond_of_malformed (callLiterals_of_no_name hNames _ operands) rfl
  · rintro p rfl
    refine ⟨?_, unreadable_or_readsAs, ?_, ?_⟩
    · intro hLen
      exact respond_of_malformed (callLiterals_of_length_ne _ p hLen) rfl
    · intro index type text hLen hFirst
      exact respond_of_malformed (callLiterals_of_unreadable _ p hLen hFirst) rfl
    · intro args hArgs
      refine ⟨hArgs.dividesByZero_iff, ?_⟩
      rcases callLiterals_of_reads options.evaluator p hArgs with
        ⟨hZero, hCall⟩ | ⟨hZero, value, hValue, hCall⟩
      · have hStatus : Diagnostic.statusOf = fun code => (code.signed % 256).toNat :=
          funext Diagnostic.statusOf_eq
        refine ⟨fun _ => ?_, fun hNotZero => absurd hZero hNotZero⟩
        rw [respond_call, hCall, ofOutcome_onZeroDivisor, hStatus]
      · refine ⟨fun hZero' => absurd hZero' hZero, fun _ => ⟨value, hValue, ?_⟩⟩
        rw [respond_call, hCall]
        rfl

/-- The least byte divided by a zero in hexadecimal, with `-1` as the code on a zero divisor; and a
text that is no literal in front of a zero divisor. -/
theorem call_response_zero_divisor :
    (Command.call "sdiv8" ["-128", " 0X+00\t"] ⟨some (Word.ofSigned (-1)), true⟩).respond "scalar" =
        ⟨255, "", some "scalar: Division by zero in sdiv8"⟩ ∧
      (Command.call "sdiv8" ["128", "0"] {}).respond "scalar" =
        ⟨2, "", some "scalar: Parse error: Invalid i8 literal: \"128\""⟩ := by
  have hReads : ReadsAs [.int .w8, .int .w8] ["-128", " 0X+00\t"]
      [.int .w8 (Word.ofSigned (-128)), .int .w8 Word.zero] := ⟨rfl, by decide +kernel⟩
  have hUnreadable : FirstUnreadable [.int .w8, .int .w8] ["128", "0"] 0 (.int .w8) "128" := by
    refine ⟨rfl, rfl, ?_, fun j hj => absurd hj (Nat.not_lt_zero j)⟩
    have hParse : Scalar.parse (.int .w8) "128" = .error (.invalidLiteral "i8" "128") := by
      decide +kernel
    intro value
    rw [hParse]
    exact nofun
  obtain ⟨-, -, -, hRead⟩ := (call_response "scalar" "sdiv8" ["-128", " 0X+00\t"]
    ⟨some (Word.ofSigned (-1)), true⟩).2.1 (.intBinary .sdiv .w8) rfl
  obtain ⟨-, -, hUnread, -⟩ := (call_response "scalar" "sdiv8" ["128", "0"] {}).2.1
    (.intBinary .sdiv .w8) rfl
  have hZero : DividesByZero (.intBinary .sdiv .w8)
      [.int .w8 (Word.ofSigned (-128)), .int .w8 Word.zero] :=
    ⟨⟨.sdiv, by decide, .w8, rfl⟩, .w8, rfl⟩
  constructor
  · exact ((hRead _ hReads).2.1 hZero).trans (by decide +kernel)
  · exact (hUnread _ _ _ rfl hUnreadable).trans (by decide +kernel)

end WidthExact.CommandLine
