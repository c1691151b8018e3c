import WidthExact.Binary.Convert
import WidthExact.Binary.Elementary
import WidthExact.Binary.SquareRoot
import WidthExact.Primitive.Signature
import WidthExact.Word.Division
import WidthExact.Word.Order

/-!
# What primitives do

The operation of each primitive, by its family and widths, and the types that it takes and gives.
These are written out beside the operations and not taken from the signature, which is what operands
are checked against; that the two agree is a theorem. The type of an operation is given by its own
types, so it cannot be applied to operands of other types or in another number.

## Main results

* `Primitive.operationSignature_eq`: operations take and give what the signatures say.
-/

namespace WidthExact

variable {w : IntWidth} {f : FloatWidth}

/-- The operation of the family at width `w`. -/
def IntBinaryOp.run (op : IntBinaryOp) (x y : Word w) : Except Trap (Word w) :=
  match op with
  | add => .ok (x.add y)
  | sub => .ok (x.sub y)
  | mul => .ok (x.mul y)
  | pow => .ok (x.pow y)
  | or => .ok (x.or y)
  | xor => .ok (x.xor y)
  | and => .ok (x.and y)
  | shl => .ok (x.shl y)
  | ashr => .ok (x.ashr y)
  | lshr => .ok (x.lshr y)
  | squot => x.squot y
  | srem => x.srem y
  | sdiv => x.sdiv y
  | smod => x.smod y
  | udiv => x.udiv y
  | umod => x.umod y
  | smin => .ok (x.smin y)
  | smax => .ok (x.smax y)
  | umin => .ok (x.umin y)
  | umax => .ok (x.umax y)

/-- The operation of the family at width `w`. -/
def IntCompareOp.run (op : IntCompareOp) (x y : Word w) : Bool :=
  match op with
  | slt => x.slt y
  | sle => x.sle y
  | ult => x.ult y
  | ule => x.ule y

/-- The operation of the family at width `w`. -/
def IntUnaryOp.run (op : IntUnaryOp) (x : Word w) : Word w :=
  match op with
  | ssignum => x.ssignum
  | usignum => x.usignum

/-- The operation of the family. -/
def BoolCompareOp.run (op : BoolCompareOp) (x y : Bool) : Bool :=
  match op with
  | llt => boolLt x y
  | lle => boolLe x y

/-- The operation of the family to width `target`. -/
def IntConvertOp.run (op : IntConvertOp) (x : Word w) (target : IntWidth) : Word target :=
  match op with
  | sext => x.sext target
  | zext => x.zext target

/-- The operation of the family to format `target`. -/
def IntToFloatOp.run (op : IntToFloatOp) (x : Word w) (target : FloatWidth) : Binary target :=
  match op with
  | sitofp => x.sitofp target
  | uitofp => x.uitofp target

/-- The operation of the family to width `target`. -/
def FloatToIntOp.run (op : FloatToIntOp) (x : Binary f) (target : IntWidth) : Word target :=
  match op with
  | fptosi => x.fptosi target
  | fptoui => x.fptoui target

/-- The operation of the family in format `f`. -/
def FloatUnaryOp.run (op : FloatUnaryOp) (x : Binary f) : Binary f :=
  match op with
  | log => x.log
  | log2 => x.log2
  | log10 => x.log10
  | sqrt => x.sqrt
  | exp => x.exp
  | cos => x.cos
  | sin => x.sin
  | tan => x.tan
  | acos => x.acos
  | asin => x.asin
  | atan => x.atan
  | round => x.round

/-- The operation of the family in format `f`. -/
def FloatBinaryOp.run (op : FloatBinaryOp) (x y : Binary f) : Binary f :=
  match op with
  | atan2 => x.atan2 y
  | fpow => x.fpow y
  | fmin => x.fmin y
  | fmax => x.fmax y

/-- The operation of the family in format `f`. -/
def FloatPredicateOp.run (op : FloatPredicateOp) (x : Binary f) : Bool :=
  match op with
  | isnan => x.isNaN
  | isinf => x.isInfinite

namespace Primitive

/-- The types at which the operation of a primitive takes its operands, and that of its result. -/
def operationSignature : Primitive → Signature
  | intBinary _ w => ⟨[.int w, .int w], .int w⟩
  | intCompare _ w => ⟨[.int w, .int w], .bool⟩
  | intUnary _ w => ⟨[.int w], .int w⟩
  | boolCompare _ => ⟨[.bool, .bool], .bool⟩
  | intConvert _ w target => ⟨[.int w], .int target⟩
  | intToFloat _ w target => ⟨[.int w], .float target⟩
  | floatToInt _ f target => ⟨[.float f], .int target⟩
  | fpconv f target => ⟨[.float f], .float target⟩
  | toBits f => ⟨[.float f], .int f.patternWidth⟩
  | fromBits f => ⟨[.int f.patternWidth], .float f⟩
  | floatUnary _ f => ⟨[.float f], .float f⟩
  | floatBinary _ f => ⟨[.float f, .float f], .float f⟩
  | floatPredicate _ f => ⟨[.float f], .bool⟩

/-- **Operations take and give what the signatures say.** -/
theorem operationSignature_eq (p : Primitive) : p.operationSignature = p.signature := by
  cases p <;> rfl

/-- The operation of a primitive. -/
def operation : (p : Primitive) → p.operationSignature.Operation
  | intBinary op _ => fun (x, y, ()) => op.run x y
  | intCompare op _ => fun (x, y, ()) => .ok (op.run x y)
  | intUnary op _ => fun (x, ()) => .ok (op.run x)
  | boolCompare op => fun (x, y, ()) => .ok (op.run x y)
  | intConvert op _ target => fun (x, ()) => .ok (op.run x target)
  | intToFloat op _ target => fun (x, ()) => .ok (op.run x target)
  | floatToInt op _ target => fun (x, ()) => .ok (op.run x target)
  | fpconv _ target => fun (x, ()) => .ok (Binary.fpconv x target)
  | toBits _ => fun (x, ()) => .ok (Binary.toBits x)
  | fromBits _ => fun (x, ()) => .ok (Binary.ofBits x)
  | floatUnary op _ => fun (x, ()) => .ok (op.run x)
  | floatBinary op _ => fun (x, y, ()) => .ok (op.run x y)
  | floatPredicate op _ => fun (x, ()) => .ok (op.run x)

end Primitive

end WidthExact
