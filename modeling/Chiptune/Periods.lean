import Chiptune.Decimal.Binary
import Chiptune.Output.Wrap
import Chiptune.Text.Numeral

/-!
# Period tables

The sound chip divides its clock by a period. A period table gives the period of
each semitone from the lowest A up, for the clock of a region and a tuning.
-/

namespace Chiptune

/-- The consoles, by their clocks. -/
inductive Region where
  | ntsc
  | pal
  | dendy
deriving DecidableEq, Repr, Inhabited

namespace Region

/-- The name of the region. -/
def name : Region → String
  | ntsc => "ntsc"
  | pal => "pal"
  | dendy => "dendy"

/-- The region with the given name. -/
def ofName? (name : String) : Option Region :=
  if name = "ntsc" then some ntsc
  else if name = "pal" then some pal
  else if name = "dendy" then some dendy
  else none

/-- The clock of the region over the sixteen steps of the pulse channel. -/
def clock : Region → Float
  | ntsc => 39375000.0 / (22.0 * 16.0)
  | pal => 266017125.0 / (10.0 * 16.0 * 16.0)
  | dendy => 266017125.0 / (10.0 * 16.0 * 15.0)

end Region

namespace Periods

/-- The most semitones of a table. -/
def most : Nat := 88

/-- The greatest period. -/
def longest : Nat := 2047

/-- The power of a double with a natural exponent, by repeated squaring: `product` times
`base` to the power `exponent`. -/
def power (product base : Float) (exponent : Nat) : Float :=
  let product := if exponent % 2 = 1 then product * base else product
  if exponent / 2 = 0 then product else power product (base * base) (exponent / 2)
termination_by exponent

/-- The ratio of a semitone. -/
def semitone : Float := Float.pow 2.0 (1.0 / 12.0)

/-- The ratio of semitone number `index` to the first one. -/
def ratio (index : Nat) : Float :=
  Float.ofNat (Decimal.twoTo (index / 12)) * power 1.0 semitone (index % 12)

/-- One less than a quotient of frequencies rounded to the nearest, held to the periods
of the chip. -/
def register (quotient : Float) : Nat :=
  match Decimal.Binary.ofFloat quotient with
  | .notANumber => 0
  | .infinite negative => if negative then 0 else longest
  | value => min ((value.nearestInt?.getD 0) - 1).toNat longest

/-- The periods of `count` semitones, where the A above middle C sounds at `tuning`
cycles a second. -/
def values (count : Nat) (region : Region) (tuning : Float) : List Nat :=
  let lowest := region.clock / (tuning / 8.0)
  (List.range count).map fun index => register (lowest / ratio index)

/-- The lines of a period table: low bytes, then high bytes. -/
def lines (count : Nat) (region : Region) (tuning : Float) : List String :=
  let periods := values count region tuning
  [s!"; Period table of length {Text.natText count} for {region.name}",
    ".export periodTableLo, periodTableHi", "periodTableLo:"] ++
  Output.wrap ".byt " (periods.map fun period => "$" ++ Text.lowerHex 2 (period % 256)) ++
  ["periodTableHi:"] ++
  Output.wrap ".byt " (periods.map fun period => Text.natText (period / 256))

end Periods

end Chiptune
