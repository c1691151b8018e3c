import WidthExact.Binary.Basic

/-!
# Scalars

A scalar is a value together with its type: a boolean, a word of some integer width, or a value of
some floating-point format. `ScalarType.Carrier` is the type of the values that a scalar type holds.
-/

namespace WidthExact

/-- The type of a scalar. -/
inductive ScalarType where
  | bool
  | int (width : IntWidth)
  | float (width : FloatWidth)
  deriving DecidableEq, Repr

/-- The values of a scalar type. -/
def ScalarType.Carrier : ScalarType → Type
  | bool => Bool
  | int width => Word width
  | float width => Binary width

/-- The written form of a scalar type: `bool`, or that of its width. -/
def ScalarType.text : ScalarType → String
  | bool => "bool"
  | int width => width.text
  | float width => width.text

/-- Every scalar type. -/
def ScalarType.all : List ScalarType :=
  bool :: IntWidth.all.map int ++ FloatWidth.all.map float

/-- A value tagged with its type. -/
inductive Scalar where
  | bool (value : Bool)
  | int (width : IntWidth) (value : Word width)
  | float (width : FloatWidth) (value : Binary width)
  deriving DecidableEq

namespace Scalar

/-- The type of a scalar. -/
def type : Scalar → ScalarType
  | bool _ => .bool
  | int width _ => .int width
  | float width _ => .float width

/-- A value of a scalar type as a scalar. -/
def of : (type : ScalarType) → type.Carrier → Scalar
  | .bool, value => bool value
  | .int width, value => int width value
  | .float width, value => float width value

/-- The value of a scalar, if the scalar has the given type. -/
def as? : (type : ScalarType) → Scalar → Option type.Carrier
  | .bool, bool value => some value
  | .int width, int found value => if h : found = width then some (h ▸ value) else none
  | .float width, float found value => if h : found = width then some (h ▸ value) else none
  | _, _ => none

@[simp] theorem type_of (type : ScalarType) (value : type.Carrier) : (of type value).type = type := by
  cases type <;> rfl

@[simp] theorem as?_of (type : ScalarType) (value : type.Carrier) :
    as? type (of type value) = some value := by
  cases type <;> simp [of, as?]

theorem as?_eq_none_iff (type : ScalarType) (s : Scalar) : as? type s = none ↔ s.type ≠ type := by
  cases type <;> cases s <;> simp [as?, Scalar.type]

theorem of_eq_of_as? {type : ScalarType} {s : Scalar} {value : type.Carrier}
    (h : as? type s = some value) : of type value = s := by
  cases type <;> cases s <;> simp only [as?, reduceCtorEq] at h
  · cases h; rfl
  · split at h
    · next same => subst same; cases h; rfl
    · cases h
  · split at h
    · next same => subst same; cases h; rfl
    · cases h

/-! ## Comparison -/

/-- Whether the scalar is the zero of an integer type. -/
def isIntZero : Scalar → Bool
  | int _ value => value = Word.zero
  | _ => false

/-- Whether two scalars have the same type and the same bit pattern. -/
def bitEq (a b : Scalar) : Bool := a = b

/-- Whether two scalars have the same type and the same value: a NaN equals nothing, and the two
zeros of a floating-point format are equal. -/
def valueEq : Scalar → Scalar → Bool
  | float width a, float width' b => if h : width = width' then Binary.eq (h ▸ a) b else false
  | a, b => a = b

end Scalar

/-! ## Order of the booleans -/

/-- Less than, `false` below `true`. -/
def boolLt (x y : Bool) : Bool := !x && y

/-- At most, `false` below `true`. -/
def boolLe (x y : Bool) : Bool := !x || y

end WidthExact
