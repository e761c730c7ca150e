import Chiptune.Decimal.Shortest

/-!
# JSON

A JSON value with its fields in order, and its text on several lines with an
indentation of two blanks.
-/

namespace Chiptune.Output

/-- A JSON value. -/
inductive Json where
  | null
  | bool (value : Bool)
  | int (value : Int)
  | float (value : Float)
  | string (value : String)
  | array (items : List Json)
  | object (fields : List (String × Json))
deriving Inhabited

namespace Json

/-- A natural number. -/
def nat (n : Nat) : Json := int (Int.ofNat n)

/-- A value that may be absent. -/
def option {α : Type} (encode : α → Json) : Option α → Json
  | some value => encode value
  | none => null

/-- A character as it stands in a string: quotes, backslashes and control characters are
escaped. -/
def escapeChar (c : Char) : List Char :=
  if c = '"' then ['\\', '"']
  else if c = '\\' then ['\\', '\\']
  else if c = '\x08' then ['\\', 'b']
  else if c = '\x0c' then ['\\', 'f']
  else if c = '\n' then ['\\', 'n']
  else if c = '\r' then ['\\', 'r']
  else if c = '\t' then ['\\', 't']
  else if c.toNat < 32 then
    ['\\', 'u', '0', '0', Text.lowerHexDigit (c.toNat / 16), Text.lowerHexDigit (c.toNat % 16)]
  else [c]

/-- A string between quotes. -/
def quote (text : String) : String :=
  "\"" ++ String.ofList (text.toList.flatMap escapeChar) ++ "\""

/-- A double: shortest digits, a half to even, positional, with at least one decimal
place. What is not a number has no text. -/
def floatText (x : Float) : String :=
  match Decimal.Binary.ofFloat x with
  | .finite negative mantissa exponent =>
    let decimal := Decimal.shortestOf .toEven mantissa exponent
    (if negative then "-" else "") ++ decimal.positional ++
      (if 0 ≤ decimal.exponent then ".0" else "")
  | _ => "null"

/-- The text of a line break and an indentation. -/
def breakLine (indent : Nat) : String :=
  "\n" ++ String.ofList (List.replicate (2 * indent) ' ')

mutual

/-- The text of a value on lines that are indented `indent` steps. -/
def prettyAt (indent : Nat) : Json → String
  | null => "null"
  | bool value => if value then "true" else "false"
  | int value => Text.intText value
  | float value => floatText value
  | string value => quote value
  | array [] => "[]"
  | array (item :: items) =>
    "[" ++ breakLine (indent + 1) ++ prettyAt (indent + 1) item ++
      prettyItems (indent + 1) items ++ breakLine indent ++ "]"
  | object [] => "\x7b\x7d"
  | object (field :: fields) =>
    "\x7b" ++ breakLine (indent + 1) ++ prettyField (indent + 1) field ++
      prettyFields (indent + 1) fields ++ breakLine indent ++ "\x7d"

/-- The text of the items behind the first one. -/
def prettyItems (indent : Nat) : List Json → String
  | [] => ""
  | item :: items =>
    "," ++ breakLine indent ++ prettyAt indent item ++ prettyItems indent items

/-- The text of a field. -/
def prettyField (indent : Nat) : String × Json → String
  | (key, value) => quote key ++ ": " ++ prettyAt indent value

/-- The text of the fields behind the first one. -/
def prettyFields (indent : Nat) : List (String × Json) → String
  | [] => ""
  | field :: fields =>
    "," ++ breakLine indent ++ prettyField indent field ++ prettyFields indent fields

end

/-- The text of a value. -/
def pretty (value : Json) : String := prettyAt 0 value

end Json

end Chiptune.Output
