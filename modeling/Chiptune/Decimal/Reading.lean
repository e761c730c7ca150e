import Chiptune.Text.Numeral

/-!
# Reading decimals

A decimal is an optional sign, digits with at most one point and at least one
digit, and an optional power of ten. The words `inf`, `infinity` and `nan` in any
case are read as well.
-/

namespace Chiptune.Decimal

/-- The double nearest to `digits * 10 ^ exponent`. Beyond the range of doubles the
power itself is never formed. -/
def nearestFloat (digits : Nat) (exponent : Int) : Float :=
  if digits = 0 then 0.0
  else
    let lead := Int.ofNat (Nat.toDigits 10 digits).length + exponent
    if 310 < lead then 1.0 / 0.0
    else if lead < -330 then 0.0
    else if exponent < 0 then Float.ofScientific digits true (-exponent).toNat
    else Float.ofScientific digits false exponent.toNat

/-- The power of ten after `e`, which has an optional sign and at least one digit. -/
def powerOfTen? : List Char → Option Int
  | '+' :: cs => (Text.digits? cs).map Int.ofNat
  | '-' :: cs => (Text.digits? cs).map fun n => -Int.ofNat n
  | cs => (Text.digits? cs).map Int.ofNat

/-- An unsigned decimal. -/
def unsignedFloat? (cs : List Char) : Option Float :=
  let whole := cs.takeWhile Text.isDigit
  let rest := cs.dropWhile Text.isDigit
  let (places, rest) :=
    match rest with
    | '.' :: rest => (rest.takeWhile Text.isDigit, rest.dropWhile Text.isDigit)
    | rest => ([], rest)
  if whole.isEmpty && places.isEmpty then none
  else
    let digits := Text.decimalValue (whole ++ places)
    let shift := Int.ofNat places.length
    match rest with
    | [] => some (nearestFloat digits (-shift))
    | c :: power =>
      if c = 'e' || c = 'E' then
        (powerOfTen? power).map fun n => nearestFloat digits (n - shift)
      else none

/-- A decimal or one of the words for infinity and not-a-number. -/
def magnitude? (cs : List Char) : Option Float :=
  let word := String.ofList (cs.map Char.toLower)
  if word = "inf" || word = "infinity" then some (1.0 / 0.0)
  else if word = "nan" then some (0.0 / 0.0)
  else unsignedFloat? cs

/-- A signed decimal, as the nearest double. -/
def float? (text : String) : Option Float :=
  match text.toList with
  | '+' :: cs => magnitude? cs
  | '-' :: cs => (magnitude? cs).map fun x => -x
  | cs => magnitude? cs

end Chiptune.Decimal
