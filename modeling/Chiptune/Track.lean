/-!
# Tracks

The channels that a pattern or a conductor command addresses.
-/

namespace Chiptune

/-- A channel of the engine. -/
inductive Track where
  | pulse1
  | pulse2
  | triangle
  | drum
  | attack
deriving DecidableEq, Repr, Inhabited

namespace Track

/-- The track with the given name; the drum track has two. -/
def ofName? (name : String) : Option Track :=
  if name = "pulse1" then some pulse1
  else if name = "pulse2" then some pulse2
  else if name = "triangle" then some triangle
  else if name = "drum" || name = "noise" then some drum
  else if name = "attack" then some attack
  else none

/-- The name of the track. -/
def name : Track → String
  | pulse1 => "pulse1"
  | pulse2 => "pulse2"
  | triangle => "triangle"
  | drum => "drum"
  | attack => "attack"

/-- The number of the channel. -/
def index : Track → Nat
  | pulse1 => 0
  | pulse2 => 1
  | triangle => 2
  | drum => 3
  | attack => 4

/-- The ending of the conductor commands for the track. -/
def suffix : Track → String
  | pulse1 => "Sq1"
  | pulse2 => "Sq2"
  | triangle => "Tri"
  | drum => "Noise"
  | attack => "Attack"

/-- Whether the track plays pitches. -/
def isPitched (track : Track) : Bool := track != drum

/-- The bit of the track in a mute mask. -/
def muteBit (track : Track) : Nat := 1 <<< track.index

end Track

end Chiptune
