import Chiptune.Note.DrumWord
import Chiptune.Pitch
import Chiptune.Registry
import Chiptune.Rhythm.Meter

/-!
# Patterns

A pattern is a sequence of notes and effects for one track. Its words are read
one by one into items, in a pitch context and a meter of its own.
-/

namespace Chiptune

/-- What a note plays. -/
inductive PatternNote where
  | pitch (semitones : Int)
  | rest
  /-- Hold the note before. -/
  | wait
  | drum (name : String)
deriving DecidableEq, Repr, Inhabited

/-- Whether the note starts a sound. -/
def PatternNote.isAttack : PatternNote → Bool
  | pitch _ | drum _ => true
  | rest | wait => false

/-- A change to how later notes are played. -/
inductive PatternEffect where
  | instrument (name : String)
  | fastArpeggio
  | slowArpeggio
  | bend (rate : Nat)
  | vibrato (depth : Nat)
  | channelVolume (level : Nat)
deriving DecidableEq, Repr, Inhabited

/-- An item of a pattern. The rows of a grace note are minus its frames. -/
inductive PatternItem where
  | note (note : PatternNote) (rows : Int) (slur : SlurMark) (chord : Option ChordCode)
  | effect (effect : PatternEffect)
deriving DecidableEq, Repr, Inhabited

/-- A pattern. -/
structure Pattern where
  name : String
  place : Location
  track : Option Track
  instrument : Option String
  /-- Whether playback goes on into the pattern after this one. -/
  fallthrough : Bool
  items : List PatternItem
  /-- The rows of all notes so far. -/
  rows : Nat
  pitch : PitchState
  meter : Meter
deriving DecidableEq, Repr, Inhabited

namespace Pattern

instance : Entity Pattern := ⟨Pattern.name, Pattern.place⟩

/-- The octave mode in which a pattern on the given track starts. -/
def startMode : Option Track → OctaveMode
  | some .drum => .drum
  | some _ => .absolute
  | none => .unset

/-- A pattern without notes. Octaves and the default duration start afresh. -/
def blank (name : String) (place : Location) (track : Option Track)
    (instrument : Option String) (pitch : PitchState) (meter : Meter) : Pattern :=
  { name := name
    place := place
    track := track
    instrument := instrument
    fallthrough := false
    items := []
    rows := 0
    pitch := pitch.restart (startMode track)
    meter := meter.forgetLength }

/-- Whether the pattern plays drums. -/
def isDrum (pattern : Pattern) : Bool := pattern.track == some .drum

/-- Add an effect. -/
def pushEffect (pattern : Pattern) (effect : PatternEffect) : Pattern :=
  { pattern with items := pattern.items ++ [.effect effect] }

/-- Add a note. -/
def pushNote (pattern : Pattern) (note : PatternNote) (rows : Int) (slur : SlurMark)
    (chord : Option ChordCode) : Pattern :=
  { pattern with
    items := pattern.items ++ [.note note rows slur chord]
    rows := pattern.rows + rows.toNat }

end Pattern

end Chiptune
