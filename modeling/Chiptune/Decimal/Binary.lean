import Chiptune.Decimal.Rounding

/-!
# Binary fractions

A double is not a number, an infinity, or a signed binary fraction
`mantissa * 2 ^ exponent`.
-/

namespace Chiptune.Decimal

/-- What a double denotes. -/
inductive Binary where
  | notANumber
  | infinite (negative : Bool)
  | finite (negative : Bool) (mantissa : Nat) (exponent : Int)
deriving DecidableEq, Repr

namespace Binary

/-- The meaning of the sixty-four bits of a double. -/
def ofBits (bits : Nat) : Binary :=
  let negative := bits / twoTo 63 % 2 == 1
  let exponent := bits / twoTo 52 % twoTo 11
  let fraction := bits % twoTo 52
  if exponent = 2047 then
    if fraction = 0 then infinite negative else notANumber
  else if exponent = 0 then finite negative fraction (-1074)
  else finite negative (twoTo 52 + fraction) (Int.ofNat exponent - 1075)

/-- The meaning of a double. -/
def ofFloat (x : Float) : Binary := ofBits x.toBits.toNat

/-- The integer nearest to a finite value, a half going to the even neighbour. -/
def nearestInt? : Binary → Option Int
  | finite negative mantissa exponent =>
    let magnitude :=
      if 0 ≤ exponent then mantissa * twoTo exponent.toNat
      else roundDiv mantissa (twoTo (-exponent).toNat)
    some (if negative then -Int.ofNat magnitude else Int.ofNat magnitude)
  | _ => none

end Binary

end Chiptune.Decimal
