import Chiptune.Reader.Argument
import Chiptune.Reader.Basic

/-!
# Statements about settings

Statements about note names, octave signs, durations, time and scale, chord names
and the album.
-/

namespace Chiptune.Reader

/-- Choose the note language. -/
def setLanguage (arguments : List String) : Step Reader Unit := do
  let word ← Step.decide (Argument.single "notenames" arguments "english|deutsch")
  changePitch fun pitch => pitch.setLanguage word

/-- Choose the meaning of the signs before a letter. -/
def setSigns (arguments : List String) : Step Reader Unit := do
  let word ← Step.decide (Argument.single "mmloctaves" arguments "normal|swapped")
  changePitch fun pitch => pitch.setSigns word

/-- Choose whether durations stick. -/
def setDurations (arguments : List String) : Step Reader Unit := do
  let word ← Step.decide (Argument.single "durations" arguments "temporary|stick")
  changeMeter fun meter => meter.setSticky word

/-- Set the rows of a whole note. -/
def setScale (arguments : List String) : Step Reader Unit := do
  let word ← Step.decide (Argument.single "scale" arguments "ROWS_PER_WHOLE_NOTE")
  let scale ← Step.decide (Argument.scale word)
  changeMeter fun meter => meter.setScale scale

/-- The scale behind a time signature. -/
def timeScale (arguments : List String) : Except Fault (Option Nat) :=
  match arguments with
  | [] => .ok none
  | ["scale", word] => (Argument.scale word).map some
  | _ => .error (.usage "time N/D [scale D]")

/-- Set the time signature, and the scale if one is given. -/
def setTime (arguments : List String) : Step Reader Unit := do
  Step.decide (Argument.count "time" arguments 1 3 "N/D [scale D]")
  match arguments with
  | [] => throw (.usage "time N/D [scale D]")
  | word :: rest =>
    let (beats, unit) ← Step.decide (Meter.readTime word)
    let scale ← Step.decide (timeScale rest)
    changeMeter fun meter => meter.setTime beats unit
    match scale with
    | some scale => changeMeter fun meter => meter.setScale scale
    | none => return

/-- Whether a statement defines a name: it begins with `@` and holds an equals sign. -/
def isDefinition (words : List String) : Bool :=
  words.head?.any (fun word => word.toList.head? == some '@') &&
    words.any fun word => word.toList.contains '='

/-- Define a chord name. -/
def define (words : List String) : Step Reader Unit :=
  Step.advance fun reader =>
    match Text.cut? '=' (Text.unwords words) with
    | none => .error (.usage "@ENNAME = CHORD")
    | some (left, right) =>
      let name := String.ofList ((Text.trimChars left.toList).dropWhile (· == '@'))
      let definition := Text.trim right
      match Text.after? "EN" name with
      | none => .error (.onlyChordsDefined name definition)
      | some chord =>
        (reader.chords.define reader.pitchSettings.lineage chord definition).map fun chords =>
          ((), { reader with chords := chords })

/-- The facts that a song or the album may state about itself. -/
inductive Credit where
  | title
  | author
  | copyright
deriving DecidableEq, Repr, Inhabited

/-- The keyword of a credit. -/
def Credit.keyword : Credit → String
  | title => "title"
  | author => "author"
  | copyright => "copyright"

/-- State a credit of a song. -/
def creditSong (credit : Credit) (text : String) (place : Location) (song : Song) :
    Except Fault Song :=
  match credit with
  | .title =>
    (song.title.set text place "title" song.name).map fun title => { song with title := title }
  | .author =>
    (song.author.set text place "author" song.name).map fun author =>
      { song with author := author }
  | .copyright => .error .copyrightInSong

/-- State a credit of the album. -/
def creditAlbum (credit : Credit) (text : String) (place : Location) (album : AlbumNotes) :
    Except Fault AlbumNotes :=
  match credit with
  | .title =>
    (album.title.set text place "title" "the album").map fun title =>
      { album with title := title }
  | .author =>
    (album.author.set text place "author" "the album").map fun author =>
      { album with author := author }
  | .copyright =>
    (album.copyright.set text place "copyright" "the album").map fun copyright =>
      { album with copyright := copyright }

/-- State a credit of the open song, or of the album at top level. -/
def setCredit (credit : Credit) (arguments : List String) : Step Reader Unit := do
  if arguments.isEmpty then throw (.usage (credit.keyword ++ " TEXT"))
  let text := Text.unwords arguments
  let reader ← get
  if reader.scope.song.isSome then
    changeSong credit.keyword (creditSong credit text reader.here)
  else
    Step.advance fun reader =>
      (creditAlbum credit text reader.here reader.score.album).map fun album =>
        ((), { reader with score := { reader.score with album := album } })

end Chiptune.Reader
