/-!
# JSON values

The syntax trees of JSON texts. Numbers are kept as they are written, since an integer literal and a
decimal one of the same value are read differently; and strings may hold escapes of surrogates that
are no part of a pair, which a reader may have to refuse or may pass over.
-/

namespace WidthExact

/-- A number as it is written. -/
structure JsonNumber where
  negative : Bool
  /-- The digits before the point. -/
  whole : List Char
  /-- The digits behind the point, or none without a point. -/
  fraction : List Char
  /-- The sign and the digits of the exponent, if there is one. -/
  exponent : Option (Bool × List Char)
  deriving DecidableEq, Repr

/-- A part of a string: a character, or the code of a surrogate that is no part of a pair. -/
inductive JsonChar where
  | char (c : Char)
  | surrogate (code : Nat)
  deriving DecidableEq, Repr

/-- A string. -/
abbrev JsonString := List JsonChar

/-- A JSON value. The fields of an object are in the order of the text, repeated names included. -/
inductive Json where
  | null
  | bool (value : Bool)
  | number (value : JsonNumber)
  | string (value : JsonString)
  | array (items : List Json)
  | object (fields : List (JsonString × Json))
  deriving Repr, Inhabited

/-- The string that holds a text. -/
def JsonString.ofText (text : String) : JsonString := text.toList.map JsonChar.char

/-- The character, if it is one. -/
def JsonChar.char? : JsonChar → Option Char
  | char c => some c
  | surrogate _ => none

/-- The text that a string holds, unless a surrogate stands alone in it. -/
def JsonString.text? (s : JsonString) : Option String :=
  (s.mapM JsonChar.char?).map String.ofList

end WidthExact
