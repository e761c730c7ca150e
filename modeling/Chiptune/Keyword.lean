/-!
# Keywords

The first words of statements.
-/

namespace Chiptune

/-- A word that starts a statement. -/
inductive Keyword where
  | noteNames
  | durations
  | octaveMarks
  | sfx
  | instrument
  | rate
  | volume
  | decay
  | timbre
  | pitch
  | detached
  | drum
  | song
  | ending
  | segno
  | mark
  | time
  | scale
  | attack
  | pattern
  | fallthrough
  | position
  | pickup
  | resume
  | mute
  | solo
  | tempo
  | play
  | stop
  | inclusion
  | title
  | author
  | copyright
deriving DecidableEq, Repr, Inhabited

namespace Keyword

/-- Every keyword with its word; a song may be ended in several words. -/
def table : List (String × Keyword) :=
  [("notenames", noteNames), ("durations", durations), ("mmloctaves", octaveMarks),
    ("sfx", sfx), ("instrument", instrument), ("rate", rate), ("volume", volume),
    ("decay", decay), ("timbre", timbre), ("pitch", pitch), ("detached", detached),
    ("drum", drum), ("song", song), ("fine", ending), ("dal", ending),
    ("dalSegno", ending), ("da", ending), ("daCapo", ending), ("segno", segno),
    ("mark", mark), ("time", time), ("scale", scale), ("attack", attack),
    ("pattern", pattern), ("fallthrough", fallthrough), ("at", position),
    ("pickup", pickup), ("resume", resume), ("mute", mute), ("solo", solo),
    ("tempo", tempo), ("play", play), ("stop", stop), ("include", inclusion),
    ("title", title), ("author", author), ("copyright", copyright)]

/-- The keyword that a word is. -/
def ofWord? (word : String) : Option Keyword := table.lookup word

/-- Whether the statement ends the definition of an instrument, sound effect or
pattern. -/
def closesObject : Keyword → Bool
  | drum | song | ending | segno | mark | position | attack | play | stop | fallthrough
  | resume => true
  | _ => false

end Keyword

end Chiptune
