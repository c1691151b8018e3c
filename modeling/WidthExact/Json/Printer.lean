import WidthExact.Json.Basic
import WidthExact.Text.Numeral

/-!
# Writing JSON

Two layouts: compact, without any white space, and pretty, with every item and field on a line of its
own, indented by two blanks for each level.
-/

namespace WidthExact

/-- A number, written as its parts say. An exponent has a sign always. -/
def JsonNumber.text (n : JsonNumber) : List Char :=
  (if n.negative then ['-'] else []) ++ n.whole
    ++ (if n.fraction.isEmpty then [] else '.' :: n.fraction)
    ++ match n.exponent with
      | none => []
      | some (negative, digits) => 'e' :: (if negative then '-' else '+') :: digits

/-- A part of a string: quotes, backslashes and controls are escaped. -/
def JsonChar.text : JsonChar → List Char
  | surrogate code => '\\' :: 'u' :: Text.hexFixed 4 code
  | char '"' => ['\\', '"']
  | char '\\' => ['\\', '\\']
  | char '\x08' => ['\\', 'b']
  | char '\x0c' => ['\\', 'f']
  | char '\n' => ['\\', 'n']
  | char '\r' => ['\\', 'r']
  | char '\t' => ['\\', 't']
  | char c => if c.toNat < 0x20 then '\\' :: 'u' :: Text.hexFixed 4 c.toNat else [c]

/-- A string in quotes. -/
def JsonString.written (s : JsonString) : List Char := '"' :: s.flatMap JsonChar.text ++ ['"']

namespace Json

/-! ## Compact -/

mutual

/-- A value without white space. -/
def compact : Json → List Char
  | null => ['n', 'u', 'l', 'l']
  | bool true => ['t', 'r', 'u', 'e']
  | bool false => ['f', 'a', 'l', 's', 'e']
  | number n => n.text
  | string s => s.written
  | array items => '[' :: compactItems items
  | object fields => '\x7b' :: compactFields fields

/-- The items of an array, with the bracket that closes it. -/
def compactItems : List Json → List Char
  | [] => [']']
  | [item] => item.compact ++ [']']
  | item :: items => item.compact ++ ',' :: compactItems items

/-- The fields of an object, with the bracket that closes it. -/
def compactFields : List (JsonString × Json) → List Char
  | [] => ['\x7d']
  | [(name, value)] => name.written ++ ':' :: value.compact ++ ['\x7d']
  | (name, value) :: fields => name.written ++ ':' :: value.compact ++ ',' :: compactFields fields

end

/-! ## Pretty -/

/-- A new line at the given level. -/
def newLine (level : Nat) : List Char := '\n' :: List.replicate (2 * level) ' '

mutual

/-- A value whose lines, all but the first, are indented to the given level. -/
def pretty (level : Nat) : Json → List Char
  | array [] => ['[', ']']
  | array (item :: items) => '[' :: prettyItems level (item :: items)
  | object [] => ['\x7b', '\x7d']
  | object (field :: fields) => '\x7b' :: prettyFields level (field :: fields)
  | null => compact null
  | bool value => compact (bool value)
  | number n => compact (number n)
  | string s => compact (string s)

/-- The items of an array, with the bracket that closes it. -/
def prettyItems (level : Nat) : List Json → List Char
  | [] => newLine level ++ [']']
  | [item] => newLine (level + 1) ++ item.pretty (level + 1) ++ newLine level ++ [']']
  | item :: items => newLine (level + 1) ++ item.pretty (level + 1) ++ ',' :: prettyItems level items

/-- The fields of an object, with the bracket that closes it. -/
def prettyFields (level : Nat) : List (JsonString × Json) → List Char
  | [] => newLine level ++ ['\x7d']
  | [(name, value)] =>
    newLine (level + 1) ++ name.written ++ ':' :: ' ' :: value.pretty (level + 1)
      ++ newLine level ++ ['\x7d']
  | (name, value) :: fields =>
    newLine (level + 1) ++ name.written ++ ':' :: ' ' :: value.pretty (level + 1)
      ++ ',' :: prettyFields level fields

end

end Json

end WidthExact
