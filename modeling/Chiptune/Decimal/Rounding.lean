import Chiptune.Text.Numeral

/-!
# Rounding quotients

A quotient of naturals is rounded to the nearest natural, a half to the even
neighbour or upward, and written with a fixed number of decimal places.
-/

namespace Chiptune.Decimal

/-- The power of two with the given exponent. -/
def twoTo (exponent : Nat) : Nat := Nat.pow 2 exponent

/-- The power of ten with the given exponent. -/
def tenTo (exponent : Nat) : Nat := Nat.pow 10 exponent

/-- The natural nearest to `num / den`; a half goes to the even neighbour. -/
def roundDiv (num den : Nat) : Nat :=
  let quotient := num / den
  let rest := 2 * (num % den)
  if rest < den then quotient
  else if den < rest then quotient + 1
  else if quotient % 2 = 0 then quotient else quotient + 1

/-- Where a half goes. -/
inductive Tie where
  | toEven
  | upward
deriving DecidableEq, Repr, Inhabited

/-- The natural nearest to `num / den`; a half goes as `tie` says. -/
def roundDivTo (tie : Tie) (num den : Nat) : Nat :=
  match tie with
  | .toEven => roundDiv num den
  | .upward => (2 * num + den) / (2 * den)

/-- The decimal digits of `n`, with zeros in front up to `width`. -/
def padded (width n : Nat) : String :=
  let digits := Nat.toDigits 10 n
  String.ofList (List.replicate (width - digits.length) '0' ++ digits)

/-- The quotient `num / den` with exactly `places` decimal places. -/
def fixedText (places num den : Nat) : String :=
  let scaled := roundDiv (num * tenTo places) den
  Text.natText (scaled / tenTo places) ++ "." ++ padded places (scaled % tenTo places)

end Chiptune.Decimal
