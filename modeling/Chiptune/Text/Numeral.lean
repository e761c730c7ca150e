/-!
# Numerals

Decimal and hexadecimal numerals. A signed numeral may begin with one sign, an
unsigned one with a plus sign; at least one digit follows, and the value fits its
bounds.
-/

namespace Chiptune.Text

/-- Letters of the basic Latin alphabet. -/
def isLetter (c : Char) : Bool := ('a' ≤ c && c ≤ 'z') || ('A' ≤ c && c ≤ 'Z')

/-- The decimal digits. -/
def isDigit (c : Char) : Bool := '0' ≤ c && c ≤ '9'

/-- Letters and decimal digits. -/
def isAlphanumeric (c : Char) : Bool := isLetter c || isDigit c

/-- The value of a hexadecimal digit in either case. -/
def hexValue? (c : Char) : Option Nat :=
  if isDigit c then some (c.toNat - '0'.toNat)
  else if 'a' ≤ c && c ≤ 'f' then some (c.toNat - 'a'.toNat + 10)
  else if 'A' ≤ c && c ≤ 'F' then some (c.toNat - 'A'.toNat + 10)
  else none

/-- The hexadecimal digits in either case. -/
def isHexDigit (c : Char) : Bool := (hexValue? c).isSome

/-- The value of a run of decimal digits, most significant first. -/
def decimalValue (cs : List Char) : Nat :=
  cs.foldl (fun n c => 10 * n + (c.toNat - '0'.toNat)) 0

/-- A nonempty run of decimal digits and nothing else, as a number. -/
def digits? (cs : List Char) : Option Nat :=
  if !cs.isEmpty && cs.all isDigit then some (decimalValue cs) else none

/-- An unsigned numeral no greater than `limit`. -/
def natUpTo? (limit : Nat) (text : String) : Option Nat :=
  let value? :=
    match text.toList with
    | '+' :: cs => digits? cs
    | cs => digits? cs
  value?.filter (· ≤ limit)

/-- A signed numeral from `low` to `high`. -/
def intWithin? (low high : Int) (text : String) : Option Int :=
  let value? : Option Int :=
    match text.toList with
    | '+' :: cs => (digits? cs).map Int.ofNat
    | '-' :: cs => (digits? cs).map fun n => -Int.ofNat n
    | cs => (digits? cs).map Int.ofNat
  value?.filter fun n => decide (low ≤ n ∧ n ≤ high)

/-- The greatest unsigned number of 32 bits. -/
def maxNat32 : Nat := 4294967295

/-- The greatest unsigned number of 64 bits. -/
def maxNat64 : Nat := 18446744073709551615

/-- An unsigned numeral that fits 32 bits. -/
def nat32? (text : String) : Option Nat := natUpTo? maxNat32 text

/-- A signed numeral that fits 32 bits. -/
def int32? (text : String) : Option Int := intWithin? (-2147483648) 2147483647 text

/-- A signed numeral that fits 64 bits. -/
def int64? (text : String) : Option Int :=
  intWithin? (-9223372036854775808) 9223372036854775807 text

/-- The hexadecimal digit of `n` modulo sixteen, from the given digits. -/
private def hexDigitFrom (digits : List Char) (n : Nat) : Char :=
  digits.getD (n % 16) '0'

/-- An upper-case hexadecimal digit. -/
def upperHexDigit (n : Nat) : Char := hexDigitFrom "0123456789ABCDEF".toList n

/-- A lower-case hexadecimal digit. -/
def lowerHexDigit (n : Nat) : Char := hexDigitFrom "0123456789abcdef".toList n

/-- `count` hexadecimal digits of `n`, most significant first, written by `digit`. -/
def hexDigits (digit : Nat → Char) : Nat → Nat → List Char
  | 0, _ => []
  | count + 1, n => hexDigits digit count (n / 16) ++ [digit n]

/-- A byte or word in upper-case hexadecimal, `count` digits wide. -/
def upperHex (count n : Nat) : String := String.ofList (hexDigits upperHexDigit count n)

/-- A byte or word in lower-case hexadecimal, `count` digits wide. -/
def lowerHex (count n : Nat) : String := String.ofList (hexDigits lowerHexDigit count n)

/-- The decimal text of a natural number. -/
def natText (n : Nat) : String := String.ofList (Nat.toDigits 10 n)

/-- The decimal text of an integer, with a minus sign below zero. -/
def intText (n : Int) : String :=
  if n < 0 then "-" ++ natText n.natAbs else natText n.natAbs

end Chiptune.Text
