import WidthExact.Diagnostic
import WidthExact.Primitive.Name
import WidthExact.Primitive.Operation

/-!
# Dispatch

A primitive meets its operands in two stages. `checkOperands` compares the number of the operands
with the signature, then their types from left to right. `dispatch` reads the operands again, each at
the type that the operation takes there, and runs the operation. Each stage can refuse operands for
itself: an operand that is missing or of another type stops `dispatch` as well.
-/

namespace WidthExact

/-- What a call comes to. -/
inductive Outcome where
  /-- A result. -/
  | result (value : Scalar)
  /-- A refusal; the evaluator is as it was. -/
  | refused (error : CallError)
  /-- The end of the process. -/
  | ended (diagnostic : Diagnostic)
  /-- A trap of the unchecked operation. -/
  | trapped (trap : Trap)
  deriving DecidableEq

/-- What the run of an operation comes to. -/
def Outcome.ofRun : Except Trap Scalar → Outcome
  | .ok value => result value
  | .error trap => trapped trap

namespace Primitive

/-! ## The check -/

/-- Compares the types of operands with those of parameters, from the given index on, and reports the
first that differs. -/
def checkTypes (p : Primitive) : (index : Nat) → List ScalarType → List Scalar → Except CallError Unit
  | index, expected :: types, arg :: args =>
    if arg.type ≠ expected then .error (.typeMismatch p.name index expected arg.type)
    else checkTypes p (index + 1) types args
  | _, _, _ => .ok ()

/-- Compares operands with the signature: their number, then their types. -/
def checkOperands (p : Primitive) (args : List Scalar) : Except CallError Unit :=
  if args.length ≠ p.signature.params.length then
    .error (.arityMismatch p.name p.signature.params.length args.length)
  else p.checkTypes 0 p.signature.params args

/-! ## The operation -/

/-- The operand at an index, as a value of the given type. -/
def operand (p : Primitive) (args : List Scalar) (index : Nat) (type : ScalarType) :
    Except CallError type.Carrier :=
  match args[index]? with
  | some arg =>
    match arg.as? type with
    | some value => .ok value
    | none => .error (.typeMismatch p.name index type arg.type)
  | none => .error (.arityMismatch p.name p.arity args.length)

/-- The operands from an index on, as values of the given types. -/
def operands (p : Primitive) (args : List Scalar) :
    (index : Nat) → (types : List ScalarType) → Except CallError (Operands types)
  | _, [] => .ok ()
  | index, type :: types => do
    let first ← p.operand args index type
    let rest ← operands p args (index + 1) types
    return (first, rest)

/-- The run of the operation of a primitive: a scalar of the result type, or a trap. -/
def run (p : Primitive) (operands : Operands p.operationSignature.params) : Except Trap Scalar :=
  (p.operation operands).map (Scalar.of p.operationSignature.result)

/-- Reads the operands and runs the operation of a primitive. A divisor is not checked. -/
def dispatch (p : Primitive) (args : List Scalar) : Outcome :=
  match p.operands args 0 p.operationSignature.params with
  | .error error => .refused error
  | .ok operands => .ofRun (p.run operands)

end Primitive

end WidthExact
