/-!
# Numerals and blanks

Reading and writing natural numbers in decimal and hexadecimal digits, with the powers that weigh
the digits of binary and decimal numerals. The readers take any number of digits, leading zeros
included, and no sign, blank or separator. What stands around a numeral is taken off by `trim`: the
25 characters with the Unicode property `White_Space`.
-/

namespace WidthExact

/-! ## Powers of two and ten -/

/-- The power of two. -/
def twoPow (n : Nat) : Nat := Nat.pow 2 n

/-- The power of ten. -/
def tenPow (n : Nat) : Nat := Nat.pow 10 n

theorem twoPow_pos (n : Nat) : 0 < twoPow n := Nat.pow_pos (by decide)

theorem twoPow_succ (n : Nat) : twoPow (n + 1) = twoPow n * 2 := rfl

theorem twoPow_add (m n : Nat) : twoPow (m + n) = twoPow m * twoPow n := Nat.pow_add 2 m n

theorem tenPow_pos (n : Nat) : 0 < tenPow n := Nat.pow_pos (by decide)

namespace Text

/-! ## Blanks -/

/-- The characters with property `White_Space`, as closed ranges of code points. -/
def blankRanges : List (Nat × Nat) :=
  [(0x9, 0xd), (0x20, 0x20), (0x85, 0x85), (0xa0, 0xa0), (0x1680, 0x1680), (0x2000, 0x200a),
    (0x2028, 0x2029), (0x202f, 0x202f), (0x205f, 0x205f), (0x3000, 0x3000)]

/-- Whether a code point lies in one of the closed ranges. -/
def inRanges (ranges : List (Nat × Nat)) (code : Nat) : Bool :=
  ranges.any fun range => range.1 ≤ code && code ≤ range.2

/-- Whether a character is white space. -/
def isBlank (c : Char) : Bool := inRanges blankRanges c.toNat

/-- A text without the white space at its two ends. -/
def trim (text : List Char) : List Char :=
  ((text.dropWhile isBlank).reverse.dropWhile isBlank).reverse

/-! ## Decimal -/

/-- The digits of a number in base ten, without leading zeros (zero itself is the digit `0`). -/
def decimal (n : Nat) : List Char := Nat.toDigits 10 n

/-- The number written by a nonempty sequence of decimal digits. -/
def readDecimal? (digits : List Char) : Option Nat :=
  if !digits.isEmpty && digits.all Char.isDigit then some (Nat.ofDigitChars 10 digits 0) else none

/-- An integer in base ten, with a minus sign when it is negative. -/
def decimalInt (n : Int) : List Char :=
  if n < 0 then '-' :: decimal n.natAbs else decimal n.natAbs

theorem readDecimal?_decimal (n : Nat) : readDecimal? (decimal n) = some n := by
  have nonempty : (Nat.toDigits 10 n).isEmpty = false := by
    simp [List.isEmpty_eq_false_iff, Nat.toDigits_ne_nil]
  have digits : (Nat.toDigits 10 n).all Char.isDigit = true := by
    simp only [List.all_eq_true]
    exact fun c hc => Nat.isDigit_of_mem_toDigits (by decide) (by decide) hc
  simp [readDecimal?, decimal, nonempty, digits, Nat.ofDigitChars_toDigits]

/-! ## Hexadecimal -/

/-- The lower-case hexadecimal digit of a number below sixteen. -/
def hexDigit (d : Nat) : Char := Char.ofNat (if d < 10 then 48 + d else 87 + d)

/-- The value of a hexadecimal digit of either case. -/
def hexValue? (c : Char) : Option Nat :=
  if '0' ≤ c ∧ c ≤ '9' then some (c.toNat - 48)
  else if 'a' ≤ c ∧ c ≤ 'f' then some (c.toNat - 87)
  else if 'A' ≤ c ∧ c ≤ 'F' then some (c.toNat - 55)
  else none

/-- The hexadecimal digits of a number, without leading zeros, in front of `tail`. -/
def hexOnto (n : Nat) (tail : List Char) : List Char :=
  if n < 16 then hexDigit n :: tail else hexOnto (n / 16) (hexDigit (n % 16) :: tail)

/-- The hexadecimal digits of a number in lower case, without leading zeros. -/
def hex (n : Nat) : List Char := hexOnto n []

/-- The last `count` hexadecimal digits of a number, leading zeros included. -/
def hexFixed : Nat → Nat → List Char
  | 0, _ => []
  | count + 1, n => hexFixed count (n / 16) ++ [hexDigit (n % 16)]

/-- The number that hexadecimal digits write after the digits of `start`. -/
def readHexFrom? (start : Nat) : List Char → Option Nat
  | [] => some start
  | c :: rest => (hexValue? c).bind fun d => readHexFrom? (16 * start + d) rest

/-- The number written by a nonempty sequence of hexadecimal digits. -/
def readHex? (digits : List Char) : Option Nat :=
  if digits.isEmpty then none else readHexFrom? 0 digits

end Text

end WidthExact
