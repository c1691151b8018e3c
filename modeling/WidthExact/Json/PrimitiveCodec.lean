import WidthExact.Json.Codec

/-!
# JSON forms of primitives

A primitive is tagged by its family, with the operation and the widths as named parts. `ofJson?` reads
what a text may say, so also the parts in order without their names; `ofNamedJson?` is for a request
that holds a primitive as one of its values, where every part has to have its name.
-/

namespace WidthExact

/-! ## Tags of operations -/

/-- The tag of an operation. -/
def IntBinaryOp.tag : IntBinaryOp → String
  | add => "Add" | sub => "Sub" | mul => "Mul" | pow => "Pow"
  | or => "Or" | xor => "Xor" | and => "And"
  | shl => "Shl" | ashr => "Ashr" | lshr => "Lshr"
  | squot => "Squot" | srem => "Srem"
  | sdiv => "Sdiv" | smod => "Smod"
  | udiv => "Udiv" | umod => "Umod"
  | smin => "Smin" | smax => "Smax" | umin => "Umin" | umax => "Umax"

/-- The tag of an operation. -/
def IntCompareOp.tag : IntCompareOp → String
  | slt => "Slt" | sle => "Sle" | ult => "Ult" | ule => "Ule"

/-- The tag of an operation. -/
def IntUnaryOp.tag : IntUnaryOp → String
  | ssignum => "Ssignum" | usignum => "Usignum"

/-- The tag of an operation. -/
def BoolCompareOp.tag : BoolCompareOp → String
  | llt => "Llt" | lle => "Lle"

/-- The tag of an operation. -/
def IntConvertOp.tag : IntConvertOp → String
  | sext => "Sext" | zext => "Zext"

/-- The tag of an operation. -/
def IntToFloatOp.tag : IntToFloatOp → String
  | sitofp => "Sitofp" | uitofp => "Uitofp"

/-- The tag of an operation. -/
def FloatToIntOp.tag : FloatToIntOp → String
  | fptosi => "Fptosi" | fptoui => "Fptoui"

/-- The tag of an operation. -/
def FloatUnaryOp.tag : FloatUnaryOp → String
  | log => "Log" | log2 => "Log2" | log10 => "Log10"
  | sqrt => "Sqrt" | exp => "Exp"
  | cos => "Cos" | sin => "Sin" | tan => "Tan"
  | acos => "Acos" | asin => "Asin" | atan => "Atan"
  | round => "Round"

/-- The tag of an operation. -/
def FloatBinaryOp.tag : FloatBinaryOp → String
  | atan2 => "Atan2" | fpow => "Fpow" | fmin => "Fmin" | fmax => "Fmax"

/-- The tag of an operation. -/
def FloatPredicateOp.tag : FloatPredicateOp → String
  | isnan => "IsNan" | isinf => "IsInf"

/-! ## Primitives -/

namespace Json

/-- An operation at one width. -/
def atWidth (family op width : String) : Json :=
  tagged family (record [("op", ofText op), ("width", ofText width)])

/-- An operation from one width to another. -/
def between (family op source target : String) : Json :=
  tagged family (record [("op", ofText op), ("from", ofText source), ("to", ofText target)])

/-- Reads an operation at one width. -/
def readAtWidth? {α β γ : Type} (op? : Json → Option α) (width? : Json → Option β)
    (make : α → β → γ) (data : Json) : Option γ :=
  match data.fields? ["op", "width"] with
  | some [op, width] => (op? op).bind fun op => (width? width).map (make op)
  | _ => none

/-- Reads an operation from one width to another. -/
def readBetween? {α β γ δ : Type} (op? : Json → Option α) (source? : Json → Option β)
    (target? : Json → Option γ) (make : α → β → γ → δ) (data : Json) : Option δ :=
  match data.fields? ["op", "from", "to"] with
  | some [op, source, target] =>
    (op? op).bind fun op => (source? source).bind fun source => (target? target).map (make op source)
  | _ => none

/-- Reads a change of format. -/
def readFormats? {α β : Type} (width? : Json → Option α) (make : α → α → β) (data : Json) :
    Option β :=
  match data.fields? ["from", "to"] with
  | some [source, target] => (width? source).bind fun source => (width? target).map (make source)
  | _ => none

/-- Whether the data behind a tag are parts in order, without their names. -/
def hasUnnamedParts : Json → Bool
  | object [(_, array _)] => true
  | _ => false

end Json

namespace Primitive

/-- The JSON form of a primitive. -/
def toJson : Primitive → Json
  | intBinary op width => .atWidth "IntBinary" op.tag width.tag
  | intCompare op width => .atWidth "IntCompare" op.tag width.tag
  | intUnary op width => .atWidth "IntUnary" op.tag width.tag
  | boolCompare op => .tagged "BoolCompare" (.ofText op.tag)
  | intConvert op source target => .between "IntConvert" op.tag source.tag target.tag
  | intToFloat op source target => .between "IntToFloat" op.tag source.tag target.tag
  | floatToInt op source target => .between "FloatToInt" op.tag source.tag target.tag
  | fpconv source target => .tagged "FpConv" (.record [("from", source.toJson), ("to", target.toJson)])
  | toBits width => .tagged "ToBits" width.toJson
  | fromBits width => .tagged "FromBits" width.toJson
  | floatUnary op width => .atWidth "FloatUnary" op.tag width.tag
  | floatBinary op width => .atWidth "FloatBinary" op.tag width.tag
  | floatPredicate op width => .atWidth "FloatPredicate" op.tag width.tag

/-- Reads the operation and the widths of a primitive of the family with the given tag. -/
def dataOfJson? (family : String) (data : Json) : Option Primitive :=
  let intWidth? := IntWidth.ofJson?
  let floatWidth? := FloatWidth.ofJson?
  match family with
  | "IntBinary" =>
    data.readAtWidth? (Json.readTag? IntBinaryOp.all IntBinaryOp.tag) intWidth? intBinary
  | "IntCompare" =>
    data.readAtWidth? (Json.readTag? IntCompareOp.all IntCompareOp.tag) intWidth? intCompare
  | "IntUnary" =>
    data.readAtWidth? (Json.readTag? IntUnaryOp.all IntUnaryOp.tag) intWidth? intUnary
  | "BoolCompare" => (data.readTag? BoolCompareOp.all BoolCompareOp.tag).map boolCompare
  | "IntConvert" =>
    data.readBetween? (Json.readTag? IntConvertOp.all IntConvertOp.tag) intWidth? intWidth? intConvert
  | "IntToFloat" =>
    data.readBetween? (Json.readTag? IntToFloatOp.all IntToFloatOp.tag) intWidth? floatWidth?
      intToFloat
  | "FloatToInt" =>
    data.readBetween? (Json.readTag? FloatToIntOp.all FloatToIntOp.tag) floatWidth? intWidth?
      floatToInt
  | "FpConv" => data.readFormats? floatWidth? fpconv
  | "ToBits" => (floatWidth? data).map toBits
  | "FromBits" => (floatWidth? data).map fromBits
  | "FloatUnary" =>
    data.readAtWidth? (Json.readTag? FloatUnaryOp.all FloatUnaryOp.tag) floatWidth? floatUnary
  | "FloatBinary" =>
    data.readAtWidth? (Json.readTag? FloatBinaryOp.all FloatBinaryOp.tag) floatWidth? floatBinary
  | "FloatPredicate" =>
    data.readAtWidth? (Json.readTag? FloatPredicateOp.all FloatPredicateOp.tag) floatWidth?
      floatPredicate
  | _ => none

/-- Reads a primitive. -/
def ofJson? (json : Json) : Option Primitive :=
  match json.tag? with
  | some (family, some data) => dataOfJson? family data
  | _ => none

/-- Reads a primitive with a name for each of its parts. -/
def ofNamedJson? (json : Json) : Option Primitive :=
  if json.hasUnnamedParts then none else ofJson? json

end Primitive

end WidthExact
