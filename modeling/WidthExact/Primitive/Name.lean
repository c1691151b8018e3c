import WidthExact.Primitive.Basic

/-!
# Names of primitives

A primitive is named by its family and its width in bits, with an underscore between the two if the
family ends in a digit: `add8`, `log2_32`. A conversion spells both widths: `fptosi_f64_i8`. The two
comparisons of booleans have no width.
-/

namespace WidthExact

/-- The family's name. -/
def IntBinaryOp.name : IntBinaryOp → String
  | add => "add" | sub => "sub" | mul => "mul" | pow => "pow"
  | or => "or" | xor => "xor" | and => "and"
  | shl => "shl" | ashr => "ashr" | lshr => "lshr"
  | squot => "squot" | srem => "srem"
  | sdiv => "sdiv" | smod => "smod"
  | udiv => "udiv" | umod => "umod"
  | smin => "smin" | smax => "smax" | umin => "umin" | umax => "umax"

/-- The family's name. -/
def IntCompareOp.name : IntCompareOp → String
  | slt => "slt" | sle => "sle" | ult => "ult" | ule => "ule"

/-- The family's name. -/
def IntUnaryOp.name : IntUnaryOp → String
  | ssignum => "ssignum" | usignum => "usignum"

/-- The family's name. -/
def BoolCompareOp.name : BoolCompareOp → String
  | llt => "llt" | lle => "lle"

/-- The family's name. -/
def IntConvertOp.name : IntConvertOp → String
  | sext => "sext" | zext => "zext"

/-- The family's name. -/
def IntToFloatOp.name : IntToFloatOp → String
  | sitofp => "sitofp" | uitofp => "uitofp"

/-- The family's name. -/
def FloatToIntOp.name : FloatToIntOp → String
  | fptosi => "fptosi" | fptoui => "fptoui"

/-- The family's name. -/
def FloatUnaryOp.name : FloatUnaryOp → String
  | log => "log" | log2 => "log2" | log10 => "log10"
  | sqrt => "sqrt" | exp => "exp"
  | cos => "cos" | sin => "sin" | tan => "tan"
  | acos => "acos" | asin => "asin" | atan => "atan"
  | round => "round"

/-- The family's name. -/
def FloatBinaryOp.name : FloatBinaryOp → String
  | atan2 => "atan2" | fpow => "fpow" | fmin => "fmin" | fmax => "fmax"

/-- The family's name. -/
def FloatPredicateOp.name : FloatPredicateOp → String
  | isnan => "isnan" | isinf => "isinf"

namespace Primitive

/-- A family's name and a width in bits, kept apart by an underscore where a digit would meet a
digit. -/
def sizedName (family : String) (bits : Nat) : String :=
  let separator := if family.toList.getLast?.any Char.isDigit then "_" else ""
  family ++ separator ++ String.ofList (Text.decimal bits)

/-- A family's name and the two widths of a conversion. -/
def conversionName (family source target : String) : String :=
  family ++ "_" ++ source ++ "_" ++ target

/-- The name of a primitive. -/
def name : Primitive → String
  | intBinary op width => sizedName op.name width.bits
  | intCompare op width => sizedName op.name width.bits
  | intUnary op width => sizedName op.name width.bits
  | boolCompare op => op.name
  | intConvert op source target => conversionName op.name source.text target.text
  | intToFloat op source target => conversionName op.name source.text target.text
  | floatToInt op source target => conversionName op.name source.text target.text
  | fpconv source target => conversionName "fpconv" source.text target.text
  | toBits width => sizedName "to_bits" width.bits
  | fromBits width => sizedName "from_bits" width.bits
  | floatUnary op width => sizedName op.name width.bits
  | floatBinary op width => sizedName op.name width.bits
  | floatPredicate op width => sizedName op.name width.bits

/-- Every primitive with its name. -/
def nameTable : List (String × Primitive) := all.map fun p => (p.name, p)

/-- The primitive with a given name. -/
def named? (name : String) : Option Primitive := nameTable.lookup name

/-- The primitive with a given name, or the reason why there is none. -/
def parse (name : String) : Except ParseError Primitive :=
  match named? name with
  | some p => .ok p
  | none => .error (.unknownPrimitive name)

end Primitive

end WidthExact
