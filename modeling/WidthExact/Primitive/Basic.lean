import WidthExact.Width

/-!
# Primitives

A primitive is an operation at fixed widths. Primitives come in families: an operation and the width
or widths it is taken at. `Primitive.all` lists them family by family.
-/

namespace WidthExact

/-- An operation on two words of one width that gives a word of that width. -/
inductive IntBinaryOp where
  | add | sub | mul | pow
  | or | xor | and | shl | ashr | lshr
  | squot | srem | sdiv | smod | udiv | umod
  | smin | smax | umin | umax
  deriving DecidableEq, Repr

/-- A comparison of two words. -/
inductive IntCompareOp where
  | slt | sle | ult | ule
  deriving DecidableEq, Repr

/-- An operation on one word. -/
inductive IntUnaryOp where
  | ssignum | usignum
  deriving DecidableEq, Repr

/-- A comparison of two booleans, `false` below `true`. -/
inductive BoolCompareOp where
  | llt | lle
  deriving DecidableEq, Repr

/-- A conversion of words to another width. -/
inductive IntConvertOp where
  | sext | zext
  deriving DecidableEq, Repr

/-- A conversion of words to floating point. -/
inductive IntToFloatOp where
  | sitofp | uitofp
  deriving DecidableEq, Repr

/-- A conversion of floating-point values to words. -/
inductive FloatToIntOp where
  | fptosi | fptoui
  deriving DecidableEq, Repr

/-- An operation on one floating-point value. -/
inductive FloatUnaryOp where
  | log | log2 | log10 | sqrt | exp | cos | sin | tan | acos | asin | atan | round
  deriving DecidableEq, Repr

/-- An operation on two floating-point values. -/
inductive FloatBinaryOp where
  | atan2 | fpow | fmin | fmax
  deriving DecidableEq, Repr

/-- A property of floating-point values. -/
inductive FloatPredicateOp where
  | isnan | isinf
  deriving DecidableEq, Repr

/-- An operation at fixed widths. -/
inductive Primitive where
  | intBinary (op : IntBinaryOp) (width : IntWidth)
  | intCompare (op : IntCompareOp) (width : IntWidth)
  | intUnary (op : IntUnaryOp) (width : IntWidth)
  | boolCompare (op : BoolCompareOp)
  | intConvert (op : IntConvertOp) (source target : IntWidth)
  | intToFloat (op : IntToFloatOp) (source : IntWidth) (target : FloatWidth)
  | floatToInt (op : FloatToIntOp) (source : FloatWidth) (target : IntWidth)
  | fpconv (source target : FloatWidth)
  | toBits (width : FloatWidth)
  | fromBits (width : FloatWidth)
  | floatUnary (op : FloatUnaryOp) (width : FloatWidth)
  | floatBinary (op : FloatBinaryOp) (width : FloatWidth)
  | floatPredicate (op : FloatPredicateOp) (width : FloatWidth)
  deriving DecidableEq, Repr

/-! ## Enumeration -/

namespace IntBinaryOp

/-- Every operation of the family. -/
def all : List IntBinaryOp :=
  [add, sub, mul, pow, or, xor, and, shl, ashr, lshr, squot, srem, sdiv, smod, udiv, umod,
    smin, smax, umin, umax]

/-- Whether the second operand is a divisor. -/
def isDivision : IntBinaryOp → Bool
  | squot | srem | sdiv | smod | udiv | umod => true
  | _ => false

end IntBinaryOp

/-- Every operation of the family. -/
def IntCompareOp.all : List IntCompareOp := [slt, sle, ult, ule]

/-- Every operation of the family. -/
def IntUnaryOp.all : List IntUnaryOp := [ssignum, usignum]

/-- Every operation of the family. -/
def BoolCompareOp.all : List BoolCompareOp := [llt, lle]

/-- Every operation of the family. -/
def IntConvertOp.all : List IntConvertOp := [sext, zext]

/-- Every operation of the family. -/
def IntToFloatOp.all : List IntToFloatOp := [sitofp, uitofp]

/-- Every operation of the family. -/
def FloatToIntOp.all : List FloatToIntOp := [fptosi, fptoui]

/-- Every operation of the family. -/
def FloatUnaryOp.all : List FloatUnaryOp :=
  [log, log2, log10, sqrt, exp, cos, sin, tan, acos, asin, atan, round]

/-- Every operation of the family. -/
def FloatBinaryOp.all : List FloatBinaryOp := [atan2, fpow, fmin, fmax]

/-- Every operation of the family. -/
def FloatPredicateOp.all : List FloatPredicateOp := [isnan, isinf]

namespace Primitive

/-- Every primitive, grouped by family. -/
def all : List Primitive :=
  (IntBinaryOp.all.flatMap fun op => IntWidth.all.map (intBinary op))
    ++ (IntCompareOp.all.flatMap fun op => IntWidth.all.map (intCompare op))
    ++ (IntUnaryOp.all.flatMap fun op => IntWidth.all.map (intUnary op))
    ++ BoolCompareOp.all.map boolCompare
    ++ (IntConvertOp.all.flatMap fun op => IntWidth.all.flatMap fun source =>
      IntWidth.all.map (intConvert op source))
    ++ (IntToFloatOp.all.flatMap fun op => FloatWidth.all.flatMap fun target =>
      IntWidth.all.map fun source => intToFloat op source target)
    ++ (FloatToIntOp.all.flatMap fun op => FloatWidth.all.flatMap fun source =>
      IntWidth.all.map (floatToInt op source))
    ++ (FloatWidth.all.flatMap fun source => FloatWidth.all.map (fpconv source))
    ++ FloatWidth.all.map toBits
    ++ FloatWidth.all.map fromBits
    ++ (FloatUnaryOp.all.flatMap fun op => FloatWidth.all.map (floatUnary op))
    ++ (FloatBinaryOp.all.flatMap fun op => FloatWidth.all.map (floatBinary op))
    ++ (FloatPredicateOp.all.flatMap fun op => FloatWidth.all.map (floatPredicate op))

/-- Whether the second operand is a divisor, which must not be zero. -/
def isDivision : Primitive → Bool
  | intBinary op _ => op.isDivision
  | _ => false

end Primitive

end WidthExact
