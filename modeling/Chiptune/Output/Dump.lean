import Chiptune.Output.Json
import Chiptune.Score

/-!
# Dumps

The parsed entities of a score as a JSON value.
-/

namespace Chiptune.Output.Dump

/-- A place in the source. -/
def location (place : Location) : Json :=
  .object [("file", .string place.file), ("line", .nat place.line)]

/-- A property that is set at most once. -/
def field {α : Type} (encode : α → Json) (field : Field α) : Json :=
  .object [("value", .option encode field.value?)]

/-- A list whose end repeats. -/
def looped {α : Type} (encode : α → Json) (looped : Looped α) : Json :=
  .object [("steps", .array (looped.steps.map encode)), ("loop_len", .nat looped.loopLength)]

/-- An envelope. -/
def envelope (envelope : Envelope) : Json :=
  .object
    [("volume", field (fun volumes => .array (volumes.map .nat)) envelope.volume),
      ("timbre", field (looped .nat) envelope.timbre),
      ("pitch", field (looped .int) envelope.pitch)]

/-- The name of a channel. -/
def channel : Channel → Json
  | .pulse => .string "Pulse"
  | .triangle => .string "Triangle"
  | .noise => .string "Noise"

/-- The name of a track. -/
def track : Track → Json
  | .pulse1 => .string "Pulse1"
  | .pulse2 => .string "Pulse2"
  | .triangle => .string "Triangle"
  | .drum => .string "Drum"
  | .attack => .string "Attack"

/-- A sound effect. -/
def effect (effect : SoundEffect) : Json :=
  .object
    [("name", .string effect.name), ("loc", location effect.place),
      ("channel", channel effect.channel), ("envelope", envelope effect.envelope),
      ("rate", field .nat effect.rate)]

/-- An instrument. -/
def instrument (instrument : Instrument) : Json :=
  .object
    [("name", .string instrument.name), ("loc", location instrument.place),
      ("envelope", envelope instrument.envelope), ("decay", field .nat instrument.decay),
      ("detached", .bool instrument.detached)]

/-- A drum. -/
def drum (drum : Drum) : Json :=
  .object
    [("name", .string drum.name), ("loc", location drum.place),
      ("sfx", .array (drum.effects.map .string))]

/-- What a note plays. -/
def note : PatternNote → Json
  | .pitch semitones => .object [("Pitch", .int semitones)]
  | .rest => .string "Rest"
  | .wait => .string "Wait"
  | .drum name => .object [("Drum", .string name)]

/-- A slur mark. -/
def slur : SlurMark → Json
  | .none => .string "None"
  | .start => .string "Open"
  | .finish => .string "Close"
  | .tie => .string "Tie"

/-- An effect of a pattern. -/
def patternEffect : PatternEffect → Json
  | .instrument name => .object [("Instrument", .string name)]
  | .fastArpeggio => .string "FastArp"
  | .slowArpeggio => .string "SlowArp"
  | .bend rate => .object [("Bend", .nat rate)]
  | .vibrato depth => .object [("Vibrato", .nat depth)]
  | .channelVolume level => .object [("ChannelVolume", .nat level)]

/-- An item of a pattern. -/
def item : PatternItem → Json
  | .note played rows mark chord =>
    .object [("Note", .object
      [("note", note played), ("rows", .int rows), ("slur", slur mark),
        ("arp", .option (fun code => .string code.text) chord)])]
  | .effect effect => .object [("Effect", patternEffect effect)]

/-- A pattern. -/
def pattern (pattern : Pattern) : Json :=
  .object
    [("name", .string pattern.name), ("loc", location pattern.place),
      ("track", .option track pattern.track),
      ("instrument", .option .string pattern.instrument),
      ("fallthrough", .bool pattern.fallthrough),
      ("items", .array (pattern.items.map item)), ("rows", .nat pattern.rows)]

/-- A conductor event. -/
def event : ConductorEvent → Json
  | .setTempo rowsPerMinute => .object [("SetTempo", .nat rowsPerMinute)]
  | .setBeat length => .object [("SetBeatDuration", .string length.operand)]
  | .waitRows rows => .object [("WaitRows", .nat rows)]
  | .play pattern playedOn instrument transpose place =>
    .object [("Play", .object
      [("pattern", .string pattern), ("track", .option track playedOn),
        ("instrument", .option .string instrument), ("transpose", .int transpose),
        ("loc", location place)])]
  | .noteOn playedOn pitch instrument place =>
    .object [("NoteOn", .object
      [("track", track playedOn), ("pitch", .int pitch), ("instrument", .string instrument),
        ("loc", location place)])]
  | .stop stopped => .object [("Stop", track stopped)]
  | .attackOn attacked => .object [("AttackOn", track attacked)]
  | .segno => .string "Segno"
  | .fine => .string "Fine"
  | .dalSegno => .string "DalSegno"

/-- A rehearsal mark. -/
def mark (mark : RehearsalMark) : Json :=
  .object [("name", .string mark.name), ("rows", .nat mark.rows)]

/-- A song. -/
def song (song : Song) : Json :=
  .object
    [("name", .string song.name), ("loc", location song.place), ("tempo", .float song.tempo),
      ("segno", field .nat song.segno), ("events", .array (song.events.map event)),
      ("byte_size", .nat song.byteSize), ("rows", .nat song.rows),
      ("marks", .array (song.marks.map mark)), ("mute", field .nat song.mute),
      ("title", field .string song.title), ("author", field .string song.author)]

/-- What is said about the album. -/
def album (album : AlbumNotes) : Json :=
  .object
    [("title", field .string album.title), ("author", field .string album.author),
      ("copyright", field .string album.copyright)]

/-- A resume point. -/
def resumePoint (point : ResumePoint) : Json :=
  .object [("song", .string point.song), ("rows", .nat point.rows)]

/-- A score. -/
def score (score : Score) : Json :=
  .object
    [("sfx", .array (score.sfx.entries.map effect)),
      ("instruments", .array (score.instruments.entries.map instrument)),
      ("drums", .array (score.drums.entries.map drum)),
      ("patterns", .array (score.patterns.entries.map pattern)),
      ("songs", .array (score.songs.entries.map song)), ("metadata", album score.album),
      ("resume", field resumePoint score.resume)]

end Chiptune.Output.Dump
