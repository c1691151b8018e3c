import WidthExact.Primitive.Basic
import WidthExact.Scalar.Basic
import WidthExact.Word.Division

/-!
# Signatures

The parameter types and the result type of a primitive. A signature determines the type of its
operations: functions from a tuple of operands, one of each parameter type, to a value of the result
type or a trap.
-/

namespace WidthExact

/-- Parameter types and result type. -/
structure Signature where
  params : List ScalarType
  result : ScalarType
  deriving DecidableEq, Repr

/-- A tuple of operands, one value of each of the given types. -/
def Operands : List ScalarType → Type
  | [] => Unit
  | type :: types => type.Carrier × Operands types

/-- The operands as scalars. -/
def Operands.toScalars : {types : List ScalarType} → Operands types → List Scalar
  | [], _ => []
  | type :: _, (first, rest) => Scalar.of type first :: toScalars rest

/-- The values of scalars that have exactly the given types, in number and order. -/
def Operands.ofScalars? : (types : List ScalarType) → List Scalar → Option (Operands types)
  | [], [] => some ()
  | type :: types, arg :: args =>
    (arg.as? type).bind fun first => (ofScalars? types args).map fun rest => (first, rest)
  | _, _ => none

namespace Signature

/-- The operations with a given signature. -/
def Operation (signature : Signature) : Type :=
  Operands signature.params → Except Trap signature.result.Carrier

/-- The number of parameters. -/
def arity (signature : Signature) : Nat := signature.params.length

/-- The written form: the parameter types in parentheses, an arrow, and the result type. -/
def text (signature : Signature) : String :=
  "(" ++ ", ".intercalate (signature.params.map ScalarType.text) ++ ") -> " ++ signature.result.text

end Signature

namespace Primitive

/-- The signature of a primitive. -/
def signature : Primitive → Signature
  | intBinary _ width => ⟨[.int width, .int width], .int width⟩
  | intCompare _ width => ⟨[.int width, .int width], .bool⟩
  | intUnary _ width => ⟨[.int width], .int width⟩
  | boolCompare _ => ⟨[.bool, .bool], .bool⟩
  | intConvert _ source target => ⟨[.int source], .int target⟩
  | intToFloat _ source target => ⟨[.int source], .float target⟩
  | floatToInt _ source target => ⟨[.float source], .int target⟩
  | fpconv source target => ⟨[.float source], .float target⟩
  | toBits width => ⟨[.float width], .int width.patternWidth⟩
  | fromBits width => ⟨[.int width.patternWidth], .float width⟩
  | floatUnary _ width => ⟨[.float width], .float width⟩
  | floatBinary _ width => ⟨[.float width, .float width], .float width⟩
  | floatPredicate _ width => ⟨[.float width], .bool⟩

/-- The number of operands. -/
def arity : Primitive → Nat
  | intBinary .. | intCompare .. | boolCompare _ | floatBinary .. => 2
  | _ => 1

theorem arity_eq (p : Primitive) : p.arity = p.signature.arity := by cases p <;> rfl

end Primitive

end WidthExact
