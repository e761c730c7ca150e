import Chiptune.Decimal.Binary

/-!
# Shortest decimals

The shortest decimal of a double is the one with the fewest digits among those
that round to it, and the nearest of these to it. Decimal grids are tried from
the coarsest; on each only the two neighbours of the value can be in its
rounding interval. If both are at the same distance, the form of the text decides
between them.
-/

namespace Chiptune.Decimal

/-- The decimal `digits * 10 ^ exponent`. -/
structure Scientific where
  digits : Nat
  exponent : Int
deriving DecidableEq, Repr

/-- The reals that round to a positive double, as numerators over `den`: from `low`
to `high` about `value`, ends included when `closed`. -/
structure RoundingInterval where
  low : Nat
  value : Nat
  high : Nat
  den : Nat
  closed : Bool

namespace RoundingInterval

/-- The rounding interval of `mantissa * 2 ^ exponent`. Below a power of two the
doubles lie twice as close. -/
def ofBinary (mantissa : Nat) (exponent : Int) : RoundingInterval :=
  let below := if mantissa = twoTo 52 ∧ -1074 < exponent then 1 else 2
  let up := twoTo (exponent - 2).toNat
  { low := (4 * mantissa - below) * up
    value := 4 * mantissa * up
    high := (4 * mantissa + 2) * up
    den := twoTo (2 - exponent).toNat
    closed := mantissa % 2 == 0 }

/-- Whether `c * 10 ^ grid` rounds to the double. -/
def contains (i : RoundingInterval) (c : Nat) (grid : Int) : Bool :=
  let point := c * tenTo grid.toNat * i.den
  let scale := tenTo (-grid).toNat
  if i.closed then i.low * scale ≤ point && point ≤ i.high * scale
  else i.low * scale < point && point < i.high * scale

/-- The shortest decimal on one grid, if a neighbour of the value on it rounds to
the double: the nearer of the two, and at equal distance the one that `tie` says. -/
def onGrid? (i : RoundingInterval) (tie : Tie) (grid : Int) : Option Scientific :=
  let num := i.value * tenTo (-grid).toNat
  let den := i.den * tenTo grid.toNat
  let below := num / den
  let nearest := roundDivTo tie num den
  let other := if nearest = below then below + 1 else below
  if i.contains nearest grid then some ⟨nearest, grid⟩
  else if i.contains other grid then some ⟨other, grid⟩
  else none

/-- The exponent of the leading decimal digit of the value. -/
def leadingExponent (i : RoundingInterval) : Int :=
  let whole := i.value / i.den
  if 0 < whole then Int.ofNat (Nat.toDigits 10 whole).length - 1
  else
    match (List.range 400).find? fun k => i.den ≤ i.value * tenTo k with
    | some k => -Int.ofNat k
    | none => 0

/-- The shortest decimal of the double. Seventeen digits always suffice. -/
def shortest (i : RoundingInterval) (tie : Tie) : Scientific :=
  let lead := i.leadingExponent
  let found := (List.range 17).findSome? fun n => i.onGrid? tie (lead - Int.ofNat n)
  found.getD ⟨roundDiv i.value i.den, 0⟩

end RoundingInterval

/-- Trailing zeros moved from the digits to the exponent; at most `fuel` of them. -/
def Scientific.stripped : Nat → Scientific → Scientific
  | 0, s => s
  | fuel + 1, s =>
    if s.digits ≠ 0 ∧ s.digits % 10 = 0 then
      Scientific.stripped fuel ⟨s.digits / 10, s.exponent + 1⟩
    else s

/-- The shortest decimal of the double `mantissa * 2 ^ exponent`. -/
def shortestOf (tie : Tie) (mantissa : Nat) (exponent : Int) : Scientific :=
  if mantissa = 0 then ⟨0, 0⟩
  else ((RoundingInterval.ofBinary mantissa exponent).shortest tie).stripped 20

/-- The decimal in positional form, without a point when it is whole. -/
def Scientific.positional (s : Scientific) : String :=
  if 0 ≤ s.exponent then
    if s.digits = 0 then "0"
    else Text.natText s.digits ++ String.ofList (List.replicate s.exponent.toNat '0')
  else
    let places := (-s.exponent).toNat
    Text.natText (s.digits / tenTo places) ++ "." ++ padded places (s.digits % tenTo places)

/-- A double in a message: shortest digits, a half away from zero, positional, no point
when it is whole. -/
def messageText (x : Float) : String :=
  match Binary.ofFloat x with
  | .notANumber => "NaN"
  | .infinite negative => if negative then "-inf" else "inf"
  | .finite negative mantissa exponent =>
    (if negative then "-" else "") ++ (shortestOf .upward mantissa exponent).positional

end Chiptune.Decimal
