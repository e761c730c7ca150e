import Chiptune.Field
import Chiptune.Pitch
import Chiptune.Registry
import Chiptune.Rhythm.Meter
import Chiptune.Rhythm.NoteLength

/-!
# Songs

A song is a list of conductor events: it starts and stops patterns, plays single
notes, and waits in between. It counts its rows and the bytes of its events.
-/

namespace Chiptune

/-- A command of the conductor. -/
inductive ConductorEvent where
  | setTempo (rowsPerMinute : Nat)
  | setBeat (length : NoteLength)
  | waitRows (rows : Nat)
  | play (pattern : String) (track : Option Track) (instrument : Option String)
      (transpose : Int) (place : Location)
  | noteOn (track : Track) (pitch : Int) (instrument : String) (place : Location)
  | stop (track : Track)
  | attackOn (track : Track)
  | segno
  | fine
  | dalSegno
deriving DecidableEq, Repr, Inhabited

/-- The bytes of an event. -/
def ConductorEvent.size : ConductorEvent → Nat
  | setTempo _ | waitRows _ => 2
  | noteOn .. => 3
  | play .. | stop _ => 4
  | setBeat _ | attackOn _ | segno | fine | dalSegno => 1

/-- A named row of a song. -/
structure RehearsalMark where
  name : String
  rows : Nat
deriving DecidableEq, Repr, Inhabited

/-- A song. -/
structure Song where
  name : String
  place : Location
  pitch : PitchState
  meter : Meter
  /-- The tempo in beats per minute. -/
  tempo : Float
  /-- The tempo in rows per minute that the engine was last set to. -/
  engineTempo : Option Nat
  /-- The rows of a beat that the engine was last set to. -/
  engineBeat : Option Nat
  /-- The rows before the loop point. -/
  segno : Field Nat
  events : List ConductorEvent
  byteSize : Nat
  rows : Nat
  marks : List RehearsalMark
  /-- The tracks that do not sound, as a mask. -/
  mute : Field Nat
  title : Field String
  author : Field String
deriving Inhabited

namespace Song

instance : Entity Song := ⟨Song.name, Song.place⟩

/-- A song without events, at the start of its first measure. -/
def blank (name : String) (place : Location) (pitch : PitchState) (meter : Meter) : Song :=
  { name := name
    place := place
    pitch := pitch
    meter := { meter with position := ⟨1, 0⟩ }
    tempo := 100.0
    engineTempo := none
    engineBeat := none
    segno := .unset
    events := []
    byteSize := 2
    rows := 0
    marks := []
    mute := .unset
    title := .unset
    author := .unset }

/-- Add an event. -/
def push (song : Song) (event : ConductorEvent) : Song :=
  { song with events := song.events ++ [event], byteSize := song.byteSize + event.size }

/-- Add events. -/
def pushAll (song : Song) (events : List ConductorEvent) : Song :=
  { song with
    events := song.events ++ events
    byteSize := events.foldl (fun size event => size + event.size) song.byteSize }

/-- The row of a mark. -/
def markRows? (song : Song) (name : String) : Option Nat :=
  (song.marks.find? fun mark => mark.name == name).map (·.rows)

end Song

end Chiptune
