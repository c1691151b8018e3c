import WidthExact.Evaluator.Dispatch

/-!
# The evaluator

Checked application of primitives to scalars. A call is checked for the name of the primitive, then
for the number of operands, then for their types from left to right, then for a zero divisor; a call
that passes gives a result and is counted.

A zero divisor is an error like the others, or, under the policy `fatal`, ends the process.
-/

namespace WidthExact

/-- What happens on a zero divisor. -/
inductive ZeroDivisionPolicy where
  /-- The call is refused. -/
  | error
  /-- The process ends with the given exit code. -/
  | fatal (exitCode : Word .w32)
  deriving DecidableEq

/-- What a zero divisor of a primitive comes to. -/
def ZeroDivisionPolicy.onZeroDivisor (policy : ZeroDivisionPolicy) (primitive : String) : Outcome :=
  let refusal := CallError.divisionByZero primitive
  match policy with
  | error => .refused refusal
  | fatal exitCode => .ended ⟨exitCode, refusal.message⟩

/-- An evaluator: its settings and the number of calls that gave a result, kept in 64 bits. Tracing
writes a line per such call to the log of the host, and changes no answer. -/
structure Evaluator where
  policy : ZeroDivisionPolicy := .error
  traceCalls : Bool := false
  calls : Word .w64 := Word.zero
  deriving DecidableEq

namespace Evaluator

/-- Whether the second operand is an integer zero. -/
def hasZeroDivisor (args : List Scalar) : Bool := args[1]?.any Scalar.isIntZero

/-- The evaluator after one more call that gave a result. -/
def counted (e : Evaluator) : Evaluator := { e with calls := e.calls.add Word.one }

/-- Applies a primitive. -/
def apply (e : Evaluator) (p : Primitive) (args : List Scalar) : Outcome × Evaluator :=
  match p.checkOperands args with
  | .error error => (.refused error, e)
  | .ok () =>
    if p.isDivision && hasZeroDivisor args then (e.policy.onZeroDivisor p.name, e)
    else
      match p.dispatch args with
      | .result value => (.result value, e.counted)
      | outcome => (outcome, e)

/-- Applies the primitive with the given name. -/
def call (e : Evaluator) (name : String) (args : List Scalar) : Outcome × Evaluator :=
  match Primitive.parse name with
  | .error error => (.refused (.parse error), e)
  | .ok p => e.apply p args

end Evaluator

/-- Applies a primitive on its own. -/
def Primitive.apply (p : Primitive) (args : List Scalar) : Outcome :=
  (({} : Evaluator).apply p args).1

/-- Applies the primitive with the given name on its own. -/
def call (name : String) (args : List Scalar) : Outcome := (({} : Evaluator).call name args).1

end WidthExact
