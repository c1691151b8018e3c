import WidthExact.Scalar.Basic

/-!
# Call errors

Why a checked call gave no result: a name or literal that was not understood, operands of another
number or of other types than the primitive takes, or a zero divisor.
-/

namespace WidthExact

/-- Why a checked call gave no result. -/
inductive CallError where
  | parse (error : ParseError)
  | arityMismatch (primitive : String) (expected found : Nat)
  | typeMismatch (primitive : String) (index : Nat) (expected found : ScalarType)
  | divisionByZero (primitive : String)
  deriving DecidableEq, Repr

namespace CallError

/-- What is told about a call error. -/
def message : CallError → String
  | parse error => "Parse error: " ++ error.message
  | arityMismatch primitive expected found =>
    primitive ++ " expects " ++ String.ofList (Text.decimal expected) ++ " operand(s), got "
      ++ String.ofList (Text.decimal found)
  | typeMismatch primitive index expected found =>
    primitive ++ " operand " ++ String.ofList (Text.decimal index) ++ ": expected "
      ++ expected.text ++ ", got " ++ found.text
  | divisionByZero primitive => "Division by zero in " ++ primitive

/-- Whether the call itself was malformed, whatever the values of its operands. -/
def isMalformed : CallError → Bool
  | divisionByZero _ => false
  | _ => true

end CallError

end WidthExact
