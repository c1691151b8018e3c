import WidthExact.Evaluator.Basic
import WidthExact.Json.Number
import WidthExact.Json.Parser
import WidthExact.Json.Printer

/-!
# JSON forms

How the types of the library are written as JSON and read back. A value of a type with several
constructors is tagged from outside: a constructor without data is its tag as a string, any other is an
object with the tag as its only field. Data with named parts is an object, or, when read, also an
array of the parts in order; unknown fields are passed over, and a field may be neither missing nor
repeated. A tag without data may also be read from an object with `null` behind the tag.
-/

namespace WidthExact

namespace Json

/-! ## Building blocks -/

/-- A text as a JSON string. -/
def ofText (text : String) : Json := string (JsonString.ofText text)

/-- A constructor with data. -/
def tagged (tag : String) (data : Json) : Json := object [(JsonString.ofText tag, data)]

/-- Data with named parts. -/
def record (fields : List (String × Json)) : Json :=
  object (fields.map fun (name, value) => (JsonString.ofText name, value))

/-- The tag of a constructor, and its data if there is any. -/
def tag? : Json → Option (String × Option Json)
  | string s => s.text?.map fun tag => (tag, none)
  | object [(name, data)] => name.text?.map fun tag => (tag, some data)
  | _ => none

/-- Whether data are those of a constructor that has none. -/
def isNoData : Option Json → Bool
  | none => true
  | some null => true
  | some _ => false

/-- Reads a type whose constructors have no data, from its values and their tags. -/
def readTag? {α : Type} (values : List α) (tag : α → String) (json : Json) : Option α :=
  json.tag?.bind fun (found, data) =>
    if isNoData data then values.find? fun value => tag value = found else none

/-- The value of the only field with a given name. -/
def field? (name : String) (fields : List (String × Json)) : Option Json :=
  match fields.filter fun field => field.1 = name with
  | [(_, value)] => some value
  | _ => none

/-- A field with its name as a text. -/
def namedField? (field : JsonString × Json) : Option (String × Json) :=
  field.1.text?.map fun name => (name, field.2)

/-- The named parts of data, in the order of the names. -/
def fields? (names : List String) : Json → Option (List Json)
  | array items => if items.length = names.length then some items else none
  | object fields =>
    (fields.mapM namedField?).bind fun fields => names.mapM fun name => field? name fields
  | _ => none

/-- The integer between two bounds that a JSON value is. -/
def int? (least greatest : Int) : Json → Option Int
  | number n => n.int?.filter fun i => least ≤ i ∧ i ≤ greatest
  | _ => none

/-- The word whose signed reading a JSON value is. -/
def word? (w : IntWidth) (json : Json) : Option (Word w) :=
  (json.int? (-twoPow (w.bits - 1)) (twoPow (w.bits - 1) - 1)).map Word.ofSigned

/-- The floating-point value that a JSON value is. -/
def binary? (f : FloatWidth) : Json → Option (Binary f)
  | number n => n.binary? f
  | _ => none

/-- The boolean that a JSON value is. -/
def bool? : Json → Option Bool
  | bool value => some value
  | _ => none

end Json

/-! ## Widths and scalar types -/

/-- The tag of a width. -/
def IntWidth.tag : IntWidth → String
  | w8 => "W8"
  | w16 => "W16"
  | w32 => "W32"
  | w64 => "W64"

/-- The tag of a width. -/
def FloatWidth.tag : FloatWidth → String
  | f32 => "F32"
  | f64 => "F64"

/-- The tag of a scalar, by its type. -/
def ScalarType.tag : ScalarType → String
  | bool => "Bool"
  | int .w8 => "I8"
  | int .w16 => "I16"
  | int .w32 => "I32"
  | int .w64 => "I64"
  | float .f32 => "F32"
  | float .f64 => "F64"

/-- The JSON form of a width. -/
def IntWidth.toJson (w : IntWidth) : Json := .ofText w.tag

/-- Reads a width. -/
def IntWidth.ofJson? (json : Json) : Option IntWidth := json.readTag? IntWidth.all IntWidth.tag

/-- The JSON form of a width. -/
def FloatWidth.toJson (f : FloatWidth) : Json := .ofText f.tag

/-- Reads a width. -/
def FloatWidth.ofJson? (json : Json) : Option FloatWidth :=
  json.readTag? FloatWidth.all FloatWidth.tag

/-- The JSON form of a scalar type: its written form. -/
def ScalarType.toJson (type : ScalarType) : Json := .ofText type.text

/-- Reads a scalar type. -/
def ScalarType.ofJson? (json : Json) : Option ScalarType :=
  json.readTag? ScalarType.all ScalarType.text

/-! ## Scalars -/

namespace Scalar

/-- The JSON form of a scalar. -/
def toJson (s : Scalar) : Json :=
  .tagged s.type.tag <|
    match s with
    | bool value => .bool value
    | int _ value => .ofInt value.signed
    | float _ value => .ofBinary value

/-- Reads the value of a scalar of a given type. -/
def valueOfJson? (type : ScalarType) (json : Json) : Option Scalar :=
  match type with
  | .bool => json.bool?.map bool
  | .int width => (json.word? width).map (int width)
  | .float width => (json.binary? width).map (float width)

/-- Reads a scalar. -/
def ofJson? (json : Json) : Option Scalar :=
  match json.tag? with
  | some (tag, some data) =>
    (ScalarType.all.find? fun type => type.tag = tag).bind fun type => valueOfJson? type data
  | _ => none

end Scalar

/-! ## Signatures and policies -/

namespace Signature

/-- The JSON form of a signature. -/
def toJson (signature : Signature) : Json :=
  .record [("params", .array (signature.params.map ScalarType.toJson)),
    ("result", signature.result.toJson)]

/-- Reads a list of scalar types. -/
def typesOfJson? : Json → Option (List ScalarType)
  | .array items => items.mapM ScalarType.ofJson?
  | _ => none

/-- Reads a signature. -/
def ofJson? (json : Json) : Option Signature :=
  match json.fields? ["params", "result"] with
  | some [params, result] =>
    (typesOfJson? params).bind fun params =>
      (ScalarType.ofJson? result).map fun result => ⟨params, result⟩
  | _ => none

end Signature

namespace ZeroDivisionPolicy

/-- The JSON form of a policy. -/
def toJson : ZeroDivisionPolicy → Json
  | error => .ofText "Error"
  | fatal exitCode => .tagged "Fatal" (.record [("exit_code", .ofInt exitCode.signed)])

/-- Reads a policy. -/
def ofJson? (json : Json) : Option ZeroDivisionPolicy :=
  match json.tag? with
  | some ("Error", data) => if Json.isNoData data then some error else none
  | some ("Fatal", some data) =>
    match data.fields? ["exit_code"] with
    | some [exitCode] => (exitCode.word? .w32).map fatal
    | _ => none
  | _ => none

end ZeroDivisionPolicy

end WidthExact
