import Chiptune.Pattern.Reading
import Chiptune.Report
import Chiptune.Scope
import Chiptune.Score
import Chiptune.Song.Conducting

/-!
# The reader

The reader works through the statements of a source. It holds the score so far,
the song and object that are open, the settings at top level, the book of chord
names and the inclusions it is in.
-/

namespace Chiptune

/-- The state of reading. -/
structure Reader where
  score : Score
  scope : Scope
  /-- The pitch settings at top level. -/
  pitch : PitchState
  /-- The meter at top level. -/
  meter : Meter
  chords : ChordBook
  diagnostics : Diagnostics
  /-- The inclusions being read, outermost first. -/
  inclusions : List Location
  /-- The directories that included files are looked up in, innermost first. -/
  directories : List String
  /-- How deep inclusions may nest. -/
  depthLimit : Nat
  /-- The statement being read. -/
  here : Location
deriving Inhabited

namespace Reader

/-- The limit on nested inclusions unless another is given. -/
def usualDepth : Nat := 8

/-- The state before any source. -/
def initial (depthLimit : Nat) : Reader :=
  { score := .empty
    scope := .topLevel
    pitch := .initial
    meter := .initial
    chords := .blank
    diagnostics := .empty
    inclusions := []
    directories := []
    depthLimit := depthLimit
    here := ⟨"<input>", 0⟩ }

/-- The open song. -/
def openSong? (reader : Reader) : Option Song :=
  reader.scope.song.bind reader.score.songs.at?

/-- The name of the open song. -/
def songName? (reader : Reader) : Option String := reader.openSong?.map (·.name)

/-- A name as it is qualified where the reader is. -/
def qualified (reader : Reader) (name : String) : String :=
  Name.qualify reader.songName? name

/-- The pitch settings of the open song, or those at top level. -/
def parentPitch (reader : Reader) : PitchState :=
  match reader.openSong? with
  | some song => song.pitch
  | none => reader.pitch

/-- The meter of the open song, or the one at top level. -/
def parentMeter (reader : Reader) : Meter :=
  match reader.openSong? with
  | some song => song.meter
  | none => reader.meter

/-- Replace the open song. -/
def putSong (reader : Reader) (index : Nat) (song : Song) : Reader :=
  { reader with score := { reader.score with songs := reader.score.songs.put index song } }

/-- Replace a pattern. -/
def putPattern (reader : Reader) (index : Nat) (pattern : Pattern) : Reader :=
  { reader with
    score := { reader.score with patterns := reader.score.patterns.put index pattern } }

/-- Replace an instrument. -/
def putInstrument (reader : Reader) (index : Nat) (instrument : Instrument) : Reader :=
  { reader with
    score := { reader.score with
      instruments := reader.score.instruments.put index instrument } }

/-- Replace a sound effect. -/
def putEffect (reader : Reader) (index : Nat) (effect : SoundEffect) : Reader :=
  { reader with score := { reader.score with sfx := reader.score.sfx.put index effect } }

/-- A step on the open song; `keyword` is named if there is none. -/
def onSong {α : Type} (keyword : String) (step : Step Song α) : Step Reader α := do
  let reader ← get
  match reader.scope.song with
  | none => throw (.outsideSong keyword)
  | some index =>
    match reader.score.songs.at? index with
    | none => throw (.openMissing "song")
    | some song => Step.on (fun _ => song) (fun song reader => reader.putSong index song) step

/-- Change the open song unless the change fails. -/
def changeSong (keyword : String) (change : Song → Except Fault Song) : Step Reader Unit :=
  onSong keyword (Step.advance fun song => (change song).map fun song => ((), song))

/-- Change an instrument unless the change fails. -/
def changeInstrument (index : Nat) (change : Instrument → Except Fault Instrument) :
    Step Reader Unit :=
  Step.advance fun reader =>
    match reader.score.instruments.at? index with
    | none => .error (.openMissing "instrument")
    | some instrument =>
      (change instrument).map fun instrument => ((), reader.putInstrument index instrument)

/-- Change a sound effect unless the change fails. -/
def changeEffect (index : Nat) (change : SoundEffect → Except Fault SoundEffect) :
    Step Reader Unit :=
  Step.advance fun reader =>
    match reader.score.sfx.at? index with
    | none => .error (.openMissing "sfx")
    | some effect => (change effect).map fun effect => ((), reader.putEffect index effect)

/-- A step on a pattern. -/
def onPattern {α : Type} (index : Nat) (step : Step Pattern α) : Step Reader α := do
  let reader ← get
  match reader.score.patterns.at? index with
  | none => throw (.openMissing "pattern")
  | some pattern =>
    Step.on (fun _ => pattern) (fun pattern reader => reader.putPattern index pattern) step

/-- The open pattern with its number. -/
def openPattern? (reader : Reader) : Option (Nat × Pattern) :=
  match reader.scope.object with
  | some (.pattern index) => (reader.score.patterns.at? index).map fun pattern => (index, pattern)
  | _ => none

/-- The open song with its number. -/
def numberedSong? (reader : Reader) : Option (Nat × Song) :=
  reader.scope.song.bind fun index =>
    (reader.score.songs.at? index).map fun song => (index, song)

/-- The pitch settings that statements change: those of the open pattern, else of the
open song, else at top level. -/
def pitchSettings (reader : Reader) : PitchState :=
  match reader.openPattern?, reader.numberedSong? with
  | some (_, pattern), _ => pattern.pitch
  | none, some (_, song) => song.pitch
  | none, none => reader.pitch

/-- Replace the pitch settings that statements change. -/
def putPitch (reader : Reader) (pitch : PitchState) : Reader :=
  match reader.openPattern?, reader.numberedSong? with
  | some (index, pattern), _ => reader.putPattern index { pattern with pitch := pitch }
  | none, some (index, song) => reader.putSong index { song with pitch := pitch }
  | none, none => { reader with pitch := pitch }

/-- The meter that statements change: that of the open pattern, else of the open song,
else at top level. -/
def meterSettings (reader : Reader) : Meter :=
  match reader.openPattern?, reader.numberedSong? with
  | some (_, pattern), _ => pattern.meter
  | none, some (_, song) => song.meter
  | none, none => reader.meter

/-- Replace the meter that statements change. -/
def putMeter (reader : Reader) (meter : Meter) : Reader :=
  match reader.openPattern?, reader.numberedSong? with
  | some (index, pattern), _ => reader.putPattern index { pattern with meter := meter }
  | none, some (index, song) => reader.putSong index { song with meter := meter }
  | none, none => { reader with meter := meter }

/-- Change the pitch settings unless the change fails. -/
def changePitch (change : PitchState → Except Fault PitchState) : Step Reader Unit :=
  Step.advance fun reader =>
    (change reader.pitchSettings).map fun pitch => ((), reader.putPitch pitch)

/-- Change the meter unless the change fails. -/
def changeMeter (change : Meter → Except Fault Meter) : Step Reader Unit :=
  Step.advance fun reader =>
    (change reader.meterSettings).map fun meter => ((), reader.putMeter meter)

/-- Add warnings at the statement being read. -/
def warn (messages : List String) : Step Reader Unit :=
  modify fun reader =>
    { reader with diagnostics := reader.diagnostics.warnAll reader.here messages }

/-- Open an object. -/
def openObject (object : OpenObject) (reader : Reader) : Reader :=
  { reader with scope := reader.scope.openObject object }

end Reader

end Chiptune
