import WidthExact.Binary.Convert
import WidthExact.Binary.Elementary
import WidthExact.Binary.SquareRoot
import WidthExact.Primitive.Signature
import WidthExact.Word.Division
import WidthExact.Word.Order

/-!
# The catalogue

The operations of the library at every width, each under the name that generated code refers to it
by. An entry is an unchecked function: it takes operands of exactly the types of its signature, and
a division by zero stops it with a trap.

The entries are written out by name and width, independently of `Primitive`.
-/

namespace WidthExact.Catalogue

/-- A named function with its signature. -/
structure Entry where
  name : String
  signature : Signature
  run : signature.Operation

/-- Runs a function on the values of scalars, if they are of exactly the types that it takes. -/
def Entry.runOn? (entry : Entry) (args : List Scalar) : Option (Except Trap Scalar) :=
  (Operands.ofScalars? entry.signature.params args).map fun operands =>
    (entry.run operands).map (Scalar.of entry.signature.result)

/-! ## Kinds of entries -/

/-- A function of one operand. -/
def conversion (name : String) (source target : ScalarType) (op : source.Carrier → target.Carrier) :
    Entry :=
  ⟨name, ⟨[source], target⟩, fun (x, ()) => .ok (op x)⟩

/-- A function of two operands of one type. -/
def binary (name : String) (param result : ScalarType)
    (op : param.Carrier → param.Carrier → result.Carrier) : Entry :=
  ⟨name, ⟨[param, param], result⟩, fun (x, y, ()) => .ok (op x y)⟩

/-- A division of words, which may trap. -/
def intDivision (name : String) (w : IntWidth) (op : Word w → Word w → Except Trap (Word w)) : Entry :=
  ⟨name, ⟨[.int w, .int w], .int w⟩, fun (x, y, ()) => op x y⟩

/-- An operation on two words. -/
def intBinary (name : String) (w : IntWidth) (op : Word w → Word w → Word w) : Entry :=
  binary name (.int w) (.int w) op

/-- A comparison of two words. -/
def intCompare (name : String) (w : IntWidth) (op : Word w → Word w → Bool) : Entry :=
  binary name (.int w) .bool op

/-- An operation on one word. -/
def intUnary (name : String) (w : IntWidth) (op : Word w → Word w) : Entry :=
  conversion name (.int w) (.int w) op

/-- A comparison of two booleans. -/
def boolBinary (name : String) (op : Bool → Bool → Bool) : Entry := binary name .bool .bool op

/-- An operation on one floating-point value. -/
def floatUnary (name : String) (f : FloatWidth) (op : Binary f → Binary f) : Entry :=
  conversion name (.float f) (.float f) op

/-- An operation on two floating-point values. -/
def floatBinary (name : String) (f : FloatWidth) (op : Binary f → Binary f → Binary f) : Entry :=
  binary name (.float f) (.float f) op

/-- A property of a floating-point value. -/
def floatPredicate (name : String) (f : FloatWidth) (op : Binary f → Bool) : Entry :=
  conversion name (.float f) .bool op

/-! ## Entries -/

/-- Wraparound arithmetic. -/
def arithmetic : List Entry := [
  intBinary "add8" .w8 Word.add, intBinary "add16" .w16 Word.add,
  intBinary "add32" .w32 Word.add, intBinary "add64" .w64 Word.add,
  intBinary "sub8" .w8 Word.sub, intBinary "sub16" .w16 Word.sub,
  intBinary "sub32" .w32 Word.sub, intBinary "sub64" .w64 Word.sub,
  intBinary "mul8" .w8 Word.mul, intBinary "mul16" .w16 Word.mul,
  intBinary "mul32" .w32 Word.mul, intBinary "mul64" .w64 Word.mul,
  intBinary "pow8" .w8 Word.pow, intBinary "pow16" .w16 Word.pow,
  intBinary "pow32" .w32 Word.pow, intBinary "pow64" .w64 Word.pow]

/-- Bit operations and shifts. -/
def bitwise : List Entry := [
  intBinary "or8" .w8 Word.or, intBinary "or16" .w16 Word.or,
  intBinary "or32" .w32 Word.or, intBinary "or64" .w64 Word.or,
  intBinary "xor8" .w8 Word.xor, intBinary "xor16" .w16 Word.xor,
  intBinary "xor32" .w32 Word.xor, intBinary "xor64" .w64 Word.xor,
  intBinary "and8" .w8 Word.and, intBinary "and16" .w16 Word.and,
  intBinary "and32" .w32 Word.and, intBinary "and64" .w64 Word.and,
  intBinary "shl8" .w8 Word.shl, intBinary "shl16" .w16 Word.shl,
  intBinary "shl32" .w32 Word.shl, intBinary "shl64" .w64 Word.shl,
  intBinary "ashr8" .w8 Word.ashr, intBinary "ashr16" .w16 Word.ashr,
  intBinary "ashr32" .w32 Word.ashr, intBinary "ashr64" .w64 Word.ashr,
  intBinary "lshr8" .w8 Word.lshr, intBinary "lshr16" .w16 Word.lshr,
  intBinary "lshr32" .w32 Word.lshr, intBinary "lshr64" .w64 Word.lshr]

/-- Order of the booleans, `false` below `true`. -/
def booleans : List Entry := [
  boolBinary "llt" boolLt,
  boolBinary "lle" boolLe]

/-- Quotients and remainders. -/
def divisions : List Entry := [
  intDivision "squot8" .w8 Word.squot, intDivision "squot16" .w16 Word.squot,
  intDivision "squot32" .w32 Word.squot, intDivision "squot64" .w64 Word.squot,
  intDivision "srem8" .w8 Word.srem, intDivision "srem16" .w16 Word.srem,
  intDivision "srem32" .w32 Word.srem, intDivision "srem64" .w64 Word.srem,
  intDivision "sdiv8" .w8 Word.sdiv, intDivision "sdiv16" .w16 Word.sdiv,
  intDivision "sdiv32" .w32 Word.sdiv, intDivision "sdiv64" .w64 Word.sdiv,
  intDivision "smod8" .w8 Word.smod, intDivision "smod16" .w16 Word.smod,
  intDivision "smod32" .w32 Word.smod, intDivision "smod64" .w64 Word.smod,
  intDivision "udiv8" .w8 Word.udiv, intDivision "udiv16" .w16 Word.udiv,
  intDivision "udiv32" .w32 Word.udiv, intDivision "udiv64" .w64 Word.udiv,
  intDivision "umod8" .w8 Word.umod, intDivision "umod16" .w16 Word.umod,
  intDivision "umod32" .w32 Word.umod, intDivision "umod64" .w64 Word.umod]

/-- Comparisons of words. -/
def comparisons : List Entry := [
  intCompare "slt8" .w8 Word.slt, intCompare "slt16" .w16 Word.slt,
  intCompare "slt32" .w32 Word.slt, intCompare "slt64" .w64 Word.slt,
  intCompare "sle8" .w8 Word.sle, intCompare "sle16" .w16 Word.sle,
  intCompare "sle32" .w32 Word.sle, intCompare "sle64" .w64 Word.sle,
  intCompare "ult8" .w8 Word.ult, intCompare "ult16" .w16 Word.ult,
  intCompare "ult32" .w32 Word.ult, intCompare "ult64" .w64 Word.ult,
  intCompare "ule8" .w8 Word.ule, intCompare "ule16" .w16 Word.ule,
  intCompare "ule32" .w32 Word.ule, intCompare "ule64" .w64 Word.ule]

/-- Minimum and maximum. -/
def extrema : List Entry := [
  intBinary "smin8" .w8 Word.smin, intBinary "smin16" .w16 Word.smin,
  intBinary "smin32" .w32 Word.smin, intBinary "smin64" .w64 Word.smin,
  intBinary "smax8" .w8 Word.smax, intBinary "smax16" .w16 Word.smax,
  intBinary "smax32" .w32 Word.smax, intBinary "smax64" .w64 Word.smax,
  intBinary "umin8" .w8 Word.umin, intBinary "umin16" .w16 Word.umin,
  intBinary "umin32" .w32 Word.umin, intBinary "umin64" .w64 Word.umin,
  intBinary "umax8" .w8 Word.umax, intBinary "umax16" .w16 Word.umax,
  intBinary "umax32" .w32 Word.umax, intBinary "umax64" .w64 Word.umax,
  floatBinary "fmin32" .f32 Binary.fmin, floatBinary "fmin64" .f64 Binary.fmin,
  floatBinary "fmax32" .f32 Binary.fmax, floatBinary "fmax64" .f64 Binary.fmax]

/-- Signs of words. -/
def signs : List Entry := [
  intUnary "ssignum8" .w8 Word.ssignum, intUnary "ssignum16" .w16 Word.ssignum,
  intUnary "ssignum32" .w32 Word.ssignum, intUnary "ssignum64" .w64 Word.ssignum,
  intUnary "usignum8" .w8 Word.usignum, intUnary "usignum16" .w16 Word.usignum,
  intUnary "usignum32" .w32 Word.usignum, intUnary "usignum64" .w64 Word.usignum]

/-- Changes of integer width. -/
def extensions : List Entry := [
  conversion "sext_i8_i8" (.int .w8) (.int .w8) (Word.sext · .w8),
  conversion "sext_i8_i16" (.int .w8) (.int .w16) (Word.sext · .w16),
  conversion "sext_i8_i32" (.int .w8) (.int .w32) (Word.sext · .w32),
  conversion "sext_i8_i64" (.int .w8) (.int .w64) (Word.sext · .w64),
  conversion "sext_i16_i8" (.int .w16) (.int .w8) (Word.sext · .w8),
  conversion "sext_i16_i16" (.int .w16) (.int .w16) (Word.sext · .w16),
  conversion "sext_i16_i32" (.int .w16) (.int .w32) (Word.sext · .w32),
  conversion "sext_i16_i64" (.int .w16) (.int .w64) (Word.sext · .w64),
  conversion "sext_i32_i8" (.int .w32) (.int .w8) (Word.sext · .w8),
  conversion "sext_i32_i16" (.int .w32) (.int .w16) (Word.sext · .w16),
  conversion "sext_i32_i32" (.int .w32) (.int .w32) (Word.sext · .w32),
  conversion "sext_i32_i64" (.int .w32) (.int .w64) (Word.sext · .w64),
  conversion "sext_i64_i8" (.int .w64) (.int .w8) (Word.sext · .w8),
  conversion "sext_i64_i16" (.int .w64) (.int .w16) (Word.sext · .w16),
  conversion "sext_i64_i32" (.int .w64) (.int .w32) (Word.sext · .w32),
  conversion "sext_i64_i64" (.int .w64) (.int .w64) (Word.sext · .w64),
  conversion "zext_i8_i8" (.int .w8) (.int .w8) (Word.zext · .w8),
  conversion "zext_i8_i16" (.int .w8) (.int .w16) (Word.zext · .w16),
  conversion "zext_i8_i32" (.int .w8) (.int .w32) (Word.zext · .w32),
  conversion "zext_i8_i64" (.int .w8) (.int .w64) (Word.zext · .w64),
  conversion "zext_i16_i8" (.int .w16) (.int .w8) (Word.zext · .w8),
  conversion "zext_i16_i16" (.int .w16) (.int .w16) (Word.zext · .w16),
  conversion "zext_i16_i32" (.int .w16) (.int .w32) (Word.zext · .w32),
  conversion "zext_i16_i64" (.int .w16) (.int .w64) (Word.zext · .w64),
  conversion "zext_i32_i8" (.int .w32) (.int .w8) (Word.zext · .w8),
  conversion "zext_i32_i16" (.int .w32) (.int .w16) (Word.zext · .w16),
  conversion "zext_i32_i32" (.int .w32) (.int .w32) (Word.zext · .w32),
  conversion "zext_i32_i64" (.int .w32) (.int .w64) (Word.zext · .w64),
  conversion "zext_i64_i8" (.int .w64) (.int .w8) (Word.zext · .w8),
  conversion "zext_i64_i16" (.int .w64) (.int .w16) (Word.zext · .w16),
  conversion "zext_i64_i32" (.int .w64) (.int .w32) (Word.zext · .w32),
  conversion "zext_i64_i64" (.int .w64) (.int .w64) (Word.zext · .w64)]

/-- Integers as floating-point values. -/
def integerToFloat : List Entry := [
  conversion "sitofp_i8_f32" (.int .w8) (.float .f32) (Word.sitofp · .f32),
  conversion "sitofp_i16_f32" (.int .w16) (.float .f32) (Word.sitofp · .f32),
  conversion "sitofp_i32_f32" (.int .w32) (.float .f32) (Word.sitofp · .f32),
  conversion "sitofp_i64_f32" (.int .w64) (.float .f32) (Word.sitofp · .f32),
  conversion "sitofp_i8_f64" (.int .w8) (.float .f64) (Word.sitofp · .f64),
  conversion "sitofp_i16_f64" (.int .w16) (.float .f64) (Word.sitofp · .f64),
  conversion "sitofp_i32_f64" (.int .w32) (.float .f64) (Word.sitofp · .f64),
  conversion "sitofp_i64_f64" (.int .w64) (.float .f64) (Word.sitofp · .f64),
  conversion "uitofp_i8_f32" (.int .w8) (.float .f32) (Word.uitofp · .f32),
  conversion "uitofp_i16_f32" (.int .w16) (.float .f32) (Word.uitofp · .f32),
  conversion "uitofp_i32_f32" (.int .w32) (.float .f32) (Word.uitofp · .f32),
  conversion "uitofp_i64_f32" (.int .w64) (.float .f32) (Word.uitofp · .f32),
  conversion "uitofp_i8_f64" (.int .w8) (.float .f64) (Word.uitofp · .f64),
  conversion "uitofp_i16_f64" (.int .w16) (.float .f64) (Word.uitofp · .f64),
  conversion "uitofp_i32_f64" (.int .w32) (.float .f64) (Word.uitofp · .f64),
  conversion "uitofp_i64_f64" (.int .w64) (.float .f64) (Word.uitofp · .f64)]

/-- Floating-point values as integers. -/
def floatToInteger : List Entry := [
  conversion "fptosi_f32_i8" (.float .f32) (.int .w8) (Binary.fptosi · .w8),
  conversion "fptosi_f32_i16" (.float .f32) (.int .w16) (Binary.fptosi · .w16),
  conversion "fptosi_f32_i32" (.float .f32) (.int .w32) (Binary.fptosi · .w32),
  conversion "fptosi_f32_i64" (.float .f32) (.int .w64) (Binary.fptosi · .w64),
  conversion "fptosi_f64_i8" (.float .f64) (.int .w8) (Binary.fptosi · .w8),
  conversion "fptosi_f64_i16" (.float .f64) (.int .w16) (Binary.fptosi · .w16),
  conversion "fptosi_f64_i32" (.float .f64) (.int .w32) (Binary.fptosi · .w32),
  conversion "fptosi_f64_i64" (.float .f64) (.int .w64) (Binary.fptosi · .w64),
  conversion "fptoui_f32_i8" (.float .f32) (.int .w8) (Binary.fptoui · .w8),
  conversion "fptoui_f32_i16" (.float .f32) (.int .w16) (Binary.fptoui · .w16),
  conversion "fptoui_f32_i32" (.float .f32) (.int .w32) (Binary.fptoui · .w32),
  conversion "fptoui_f32_i64" (.float .f32) (.int .w64) (Binary.fptoui · .w64),
  conversion "fptoui_f64_i8" (.float .f64) (.int .w8) (Binary.fptoui · .w8),
  conversion "fptoui_f64_i16" (.float .f64) (.int .w16) (Binary.fptoui · .w16),
  conversion "fptoui_f64_i32" (.float .f64) (.int .w32) (Binary.fptoui · .w32),
  conversion "fptoui_f64_i64" (.float .f64) (.int .w64) (Binary.fptoui · .w64)]

/-- Changes of floating-point format. -/
def formatChanges : List Entry := [
  conversion "fpconv_f32_f32" (.float .f32) (.float .f32) (Binary.fpconv · .f32),
  conversion "fpconv_f32_f64" (.float .f32) (.float .f64) (Binary.fpconv · .f64),
  conversion "fpconv_f64_f32" (.float .f64) (.float .f32) (Binary.fpconv · .f32),
  conversion "fpconv_f64_f64" (.float .f64) (.float .f64) (Binary.fpconv · .f64)]

/-- Bit patterns of floating-point values. -/
def bitCasts : List Entry := [
  conversion "to_bits32" (.float .f32) (.int .w32) (@Binary.toBits .f32),
  conversion "to_bits64" (.float .f64) (.int .w64) (@Binary.toBits .f64),
  conversion "from_bits32" (.int .w32) (.float .f32) (@Binary.ofBits .f32),
  conversion "from_bits64" (.int .w64) (.float .f64) (@Binary.ofBits .f64)]

/-- Roots, rounding and elementary functions. -/
def elementary : List Entry := [
  floatUnary "log32" .f32 Binary.log, floatUnary "log64" .f64 Binary.log,
  floatUnary "log2_32" .f32 Binary.log2, floatUnary "log2_64" .f64 Binary.log2,
  floatUnary "log10_32" .f32 Binary.log10, floatUnary "log10_64" .f64 Binary.log10,
  floatUnary "sqrt32" .f32 Binary.sqrt, floatUnary "sqrt64" .f64 Binary.sqrt,
  floatUnary "exp32" .f32 Binary.exp, floatUnary "exp64" .f64 Binary.exp,
  floatUnary "cos32" .f32 Binary.cos, floatUnary "cos64" .f64 Binary.cos,
  floatUnary "sin32" .f32 Binary.sin, floatUnary "sin64" .f64 Binary.sin,
  floatUnary "tan32" .f32 Binary.tan, floatUnary "tan64" .f64 Binary.tan,
  floatUnary "acos32" .f32 Binary.acos, floatUnary "acos64" .f64 Binary.acos,
  floatUnary "asin32" .f32 Binary.asin, floatUnary "asin64" .f64 Binary.asin,
  floatUnary "atan32" .f32 Binary.atan, floatUnary "atan64" .f64 Binary.atan,
  floatUnary "round32" .f32 Binary.round, floatUnary "round64" .f64 Binary.round,
  floatBinary "atan2_32" .f32 Binary.atan2, floatBinary "atan2_64" .f64 Binary.atan2,
  floatBinary "fpow32" .f32 Binary.fpow, floatBinary "fpow64" .f64 Binary.fpow]

/-- Properties of floating-point values. -/
def predicates : List Entry := [
  floatPredicate "isnan32" .f32 Binary.isNaN, floatPredicate "isnan64" .f64 Binary.isNaN,
  floatPredicate "isinf32" .f32 Binary.isInfinite, floatPredicate "isinf64" .f64 Binary.isInfinite]

/-- Every entry. -/
def entries : List Entry :=
  arithmetic ++ bitwise ++ booleans ++ divisions ++ comparisons ++ extrema ++ signs ++ extensions
    ++ integerToFloat ++ floatToInteger ++ formatChanges ++ bitCasts ++ elementary ++ predicates

/-- The entry with a given name. -/
def find? (name : String) : Option Entry := entries.find? fun entry => entry.name = name

/-- The value of the function with a given name, if there is one, it takes the operands, and it does
not stop on them. -/
def evaluate? (name : String) (args : List Scalar) : Option Scalar :=
  (find? name).bind fun entry => (entry.runOn? args).bind Except.toOption

end WidthExact.Catalogue
