import Chiptune.Register
import Chiptune.Report
import Chiptune.Score
import Chiptune.Song.Conducting

/-!
# Rendering songs

A song becomes a list of conductor commands. The names of patterns and instruments
are resolved here, and a pattern without a track or an instrument of its own gets
a default with a warning.
-/

namespace Chiptune.Song

/-- A step that adds warnings and may fail at a place. -/
abbrev Rendering (α : Type) := EStateM Fault Diagnostics α

/-- The label of the instrument that `name` stands for inside `scope`. -/
def instrumentLabel (score : Score) (name scope : String) : Except Fault String :=
  match score.instruments.resolve? name scope with
  | some instrument => .ok (Instrument.labelOf instrument.name)
  | none => .error (.unknownInstrument name)

/-- The track of a played pattern: as asked for, as the pattern says, or the first. -/
def playedTrack (asked : Option Track) (pattern : Pattern) (name : String) (place : Location) :
    Rendering Track :=
  match asked.or pattern.track with
  | some track => return track
  | none => do
    modify fun diagnostics => diagnostics.warn place s!"no track for pattern {name}; using pulse1"
    return .pulse1

/-- The instrument operand of a played pattern: as asked for, as the pattern says, or
number zero. -/
def playedInstrument (song : Song) (score : Score) (asked : Option String) (pattern : Pattern)
    (name : String) (place : Location) : Rendering String :=
  match asked, pattern.instrument with
  | some instrument, _ => Step.decide (instrumentLabel score instrument song.name)
  | none, some instrument => Step.decide (instrumentLabel score instrument pattern.name)
  | none, none => do
    modify fun diagnostics =>
      diagnostics.warn place s!"no instrument for pattern {name}; using instrument 0"
    return "0"

/-- The command that plays a pitched pattern. -/
def pitchedCommand (song : Song) (score : Score) (pattern : Pattern) (name : String)
    (track : Track) (instrument : Option String) (transpose : Int) (place : Location) :
    Rendering String := do
  if pattern.isDrum then throw (.drumsOnPitchedTrack name track)
  match pattern.baseTranspose with
  | none => throw (.onlyRests name)
  | some base =>
    let start := Register.int32 (transpose + base)
    if start < 0 then throw (.belowLowestNote name)
    let instrument ← song.playedInstrument score instrument pattern name place
    return s!"playPat{track.suffix} {Pattern.labelOf pattern.name}, " ++
      s!"{Text.intText start}, {instrument}"

/-- The command that plays a pattern. -/
def playCommand (song : Song) (score : Score) (name : String) (track : Option Track)
    (instrument : Option String) (transpose : Int) (place : Location) : Rendering String := do
  match score.patterns.resolve? name song.name with
  | none => throw (.unknownPattern name)
  | some pattern =>
    let track ← playedTrack track pattern name place
    if track = .drum then
      if pattern.isDrum then return s!"playPatNoise {Pattern.labelOf pattern.name}"
      throw (.pitchedOnDrumTrack name)
    song.pitchedCommand score pattern name track instrument transpose place

/-- The command of an event. -/
def command (song : Song) (score : Score) : ConductorEvent → Rendering String
  | .setTempo rowsPerMinute => return s!"setTempo {Text.natText rowsPerMinute}"
  | .setBeat length => return s!"setBeatDuration {length.operand}"
  | .waitRows rows => return s!"waitRows {Text.natText rows}"
  | .play pattern track instrument transpose place =>
    song.playCommand score pattern track instrument transpose place
  | .noteOn track pitch instrument _ => do
    let label ← Step.decide (instrumentLabel score instrument song.name)
    return s!"noteOn{track.suffix} {Text.intText pitch}, {label}"
  | .stop track => return s!"stopPat{track.suffix}"
  | .attackOn track => return s!"attackOn{track.suffix}"
  | .segno => return "segno"
  | .fine => return "fine"
  | .dalSegno => return "dalSegno"

/-- The place of an event, if it has one. -/
def eventPlace? : ConductorEvent → Option Location
  | .play _ _ _ _ place => some place
  | .noteOn _ _ _ place => some place
  | _ => none

/-- A fault at an event. -/
def located (event : ConductorEvent) (fault : Fault) : Report :=
  match eventPlace? event with
  | some place => (Report.ofFault fault).locate place []
  | none => .ofFault fault

/-- The commands of events, in order. -/
def commands (song : Song) (score : Score) (events : List ConductorEvent) :
    EStateM Report Diagnostics (List String) :=
  events.mapM fun event => (song.command score event).adaptExcept (located event)

theorem commands_cons (song : Song) (score : Score) (event : ConductorEvent)
    (events : List ConductorEvent) :
    song.commands score (event :: events) = do
      let line ← (song.command score event).adaptExcept (located event)
      let lines ← song.commands score events
      return line :: lines :=
  List.mapM_cons

/-- The label of the song with the given name. -/
def labelOf (name : String) : String := "PS_" ++ Name.label name

/-- The directory entry of a song. -/
def entry (song : Song) (score : Score) : EStateM Report Diagnostics Entry := do
  let lines ← song.commands score song.events
  let label := labelOf song.name
  let dataLabel := "PSDAT_" ++ Name.label song.name
  return {
    label := label
    definition := "songdef " ++ label ++ ", " ++ dataLabel
    data := some ⟨dataLabel, .statements, lines, none⟩
    byteSize := song.byteSize }

end Chiptune.Song
