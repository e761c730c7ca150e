import Chiptune.Decimal.Reading
import Chiptune.Reader.Argument
import Chiptune.Reader.Basic

/-!
# Statements about songs

Statements that open and end songs, and the commands of the open song.
-/

namespace Chiptune.Reader

/-- Define a song and open it. The song before must have ended. -/
def defineSong (arguments : List String) : Step Reader Unit :=
  Step.advance fun reader => do
    let name ← Argument.single "song" arguments "NAME"
    match reader.openSong? with
    | some song => throw (.songStillOpen song.name song.place reader.here)
    | none =>
      let (pitch, chords) := reader.pitch.child reader.chords
      let song := Song.blank name reader.here pitch reader.meter
      let (index, songs) ← reader.score.songs.insert "song" song
      let scope ← reader.scope.openSong index
      return ((),
        { reader with
          score := { reader.score with songs := songs }, scope := scope, chords := chords })

/-- End the open song in the way the words of the statement say. -/
def endSong (keyword : String) (words : List String) : Step Reader Unit := do
  let ending ← Step.decide (Ending.ofWords words)
  changeSong keyword fun song => song.finish ending
  Step.advance fun reader =>
    reader.scope.closeSong.map fun scope => ((), { reader with scope := scope })

/-- Set the loop point of the song. -/
def setSegno (arguments : List String) : Step Reader Unit := do
  Step.decide (Argument.count "segno" arguments 0 0 "")
  let reader ← get
  changeSong "segno" fun song => song.setSegno reader.here

/-- Set a rehearsal mark. -/
def addMark (arguments : List String) : Step Reader Unit := do
  let name ← Step.decide (Argument.single "mark" arguments "NAME")
  let warnings ← onSong "mark" (Step.advance fun song => song.addMark name)
  warn warnings

/-- Turn on the attack track. -/
def attackOn (arguments : List String) : Step Reader Unit :=
  match arguments with
  | ["on", word] => do
    let track ← Step.decide (Argument.track word)
    changeSong "attack" fun song => song.attackOn track
  | _ => throw (.usage "attack on TRACK")

/-- Wait until a position. -/
def waitUntil (word : String) : Step Reader Unit := do
  let (measure, beat, row) ← Step.decide (Position.readWord word)
  onSong "at" (Song.waitUntil measure beat row)

/-- Declare the present position. -/
def pickup (arguments : List String) : Step Reader Unit := do
  let word ← Step.decide (Argument.single "pickup" arguments "MEASURE[:BEAT[:ROW]]")
  let (measure, beat, row) ← Step.decide (Position.readWord word)
  changeSong "pickup" fun song => song.pickup measure beat row

/-- The row of a mark, or the present row without one. -/
def resumeRows (song : Song) : Option String → Except Fault Nat
  | none => .ok song.rows
  | some mark =>
    match song.markRows? mark with
    | some rows => .ok rows
    | none => .error (.unknownMark mark song.name)

/-- Start playback at a mark or here. -/
def setResume (arguments : List String) : Step Reader Unit := do
  Step.decide (Argument.count "resume" arguments 0 1 "[MARK]")
  let point ← onSong "resume" do
    let song ← get
    let rows ← Step.decide (resumeRows song arguments.head?)
    return ResumePoint.mk song.name rows
  Step.advance fun reader =>
    (reader.score.resume.set point reader.here "resume point" "this score").map fun resume =>
      ((), { reader with score := { reader.score with resume := resume } })

/-- The mask of tracks. -/
def muteMask (arguments : List String) : Except Fault Nat :=
  (arguments.mapM Argument.track).map fun tracks =>
    tracks.foldl (fun mask track => mask ||| track.muteBit) 0

/-- Mute tracks, or with `solo` all the others. -/
def setMute (solo : Bool) (arguments : List String) : Step Reader Unit := do
  let keyword := if solo then "solo" else "mute"
  if arguments.isEmpty then throw (.usage (keyword ++ " TRACK..."))
  let bits ← Step.decide (muteMask arguments)
  let mask := if solo then 31 - bits else bits
  let reader ← get
  changeSong keyword fun song =>
    (song.mute.set mask reader.here "mute or solo" song.name).map fun mute =>
      { song with mute := mute }

/-- Set the tempo. -/
def setTempo (arguments : List String) : Step Reader Unit := do
  let word ← Step.decide (Argument.single "tempo" arguments "BEATS_PER_MINUTE")
  match Decimal.float? word with
  | none => throw (.argumentNotNumber "tempo" word)
  | some tempo => changeSong "tempo" fun song => song.setTempo tempo

/-- Stop tracks. -/
def stop (arguments : List String) : Step Reader Unit := do
  if arguments.isEmpty then throw (.usage "stop TRACK...")
  let tracks ← Step.decide (arguments.mapM Argument.track)
  changeSong "stop" fun song => .ok (song.stop tracks)

/-- The pitch of a single note on a track, if the name is one. -/
def singleNote? (song : Song) (track : Track) (name : String) : Option Int :=
  let mode := if track = .drum then OctaveMode.noise else .absolute
  match { song.pitch with mode := mode }.readAbsolute name with
  | .ok (pitch, _) => some pitch
  | .error _ => none

/-- Play a pattern, or a single note if the name is a pitch and a track and an
instrument are given without transposing. -/
def playOn (name : String) (options : Argument.Options) (place : Location) (song : Song) :
    Except Fault Song :=
  let note :=
    match options.track, options.instrument with
    | some track, some instrument =>
      if options.transpose = 0 then
        (singleNote? song track name).map fun pitch => (track, pitch, instrument)
      else none
    | _, _ => none
  match note with
  | some (.attack, _, _) => .error .noteOnAttackTrack
  | some (track, pitch, instrument) => .ok (song.push (.noteOn track pitch instrument place))
  | none =>
    .ok (song.push (.play name options.track options.instrument options.transpose place))

/-- Play a pattern or a note. -/
def play (arguments : List String) : Step Reader Unit := do
  let (name, options) ← Step.decide
    (Argument.named true "play NAME [on TRACK] [with INSTRUMENT] [up N] [down N]" arguments)
  if options.transpose < -2147483648 ∨ 2147483647 < options.transpose then
    throw (.transposeOutOfRange options.transpose)
  let reader ← get
  changeSong "play" (playOn name options reader.here)

end Chiptune.Reader
