import Chiptune.Output.Listing

/-!
# Constants

The constants file is for a game that includes the music: the numbers of sound
effects and songs, mute masks, rehearsal marks, the resume point, and the texts
about the album.
-/

namespace Chiptune.Output

/-- A text between quotes; quotes inside become apostrophes. -/
def quoted (text : String) : String :=
  "\"" ++ String.ofList (text.toList.map fun c => if c = '"' then '\'' else c) ++ "\""

/-- Lines for list members with their numbers. -/
def numbered {α : Type} (line : Nat → α → List String) (items : List α) : List String :=
  items.zipIdx.flatMap fun (item, index) => line index item

/-- The numbers of sound effects. -/
def effectLines (score : Score) : List String :=
  if score.sfx.entries.isEmpty then []
  else
    "; Sound effects" ::
      numbered (fun index effect => [s!"SFX_{Name.label effect.name} = {Text.natText index}"])
        score.sfx.entries

/-- The number of a song, its mute mask and its marks. -/
def songLines (index : Nat) (song : Song) : List String :=
  let name := Name.label song.name
  let mute :=
    match song.mute.value? with
    | some mask => [s!"PSMUTE_{name} = ${Text.upperHex 2 mask}"]
    | none => []
  [s!"SONG_{name} = {Text.natText index}"] ++ mute ++
    (song.marks.take Song.exportedMarks).map fun mark =>
      s!"PSMARK_{name}_{Name.label mark.name} = {Text.natText mark.rows}"

/-- The lines of all songs. -/
def allSongLines (score : Score) : List String :=
  if score.songs.entries.isEmpty then []
  else "; Songs" :: numbered songLines score.songs.entries

/-- The resume point. -/
def resumeLines (score : Score) : List String :=
  match score.resume.value? with
  | none => []
  | some point =>
    match score.songs.entries.zipIdx.find? fun (song, _) => song.name == point.song with
    | none => []
    | some (song, index) =>
      ["; Debugging start point",
        s!"PENTLY_RESUME_SONG = {Text.natText index}",
        s!"PENTLY_RESUME_ROWS = {Text.natText point.rows}",
        "PENTLY_RESUME_MUTE = $" ++ Text.upperHex 2 ((song.mute.value?).getD 0)]

/-- A text about the album, if it is given. -/
def albumLine (label : String) (text : Option String) : List String :=
  match text with
  | some text => [s!".define {label} {quoted text}"]
  | none => []

/-- The titles and authors of songs. A song without an author has that of the album. -/
def creditLines (score : Score) : List String :=
  if score.songs.entries.isEmpty then []
  else
    let titles := score.songs.entries.map fun song =>
      quoted ((song.title.value?).getD song.name)
    let authors := score.songs.entries.map fun song =>
      quoted ((song.author.value?.or score.album.author.value?).getD "")
    [".define PENTLY_SONG_TITLES " ++ String.intercalate ", " titles,
      ".define PENTLY_SONG_AUTHORS " ++ String.intercalate ", " authors]

/-- The constants file. -/
def constants (assembly : Assembly) : String :=
  let score := assembly.score
  String.intercalate "\n" <|
    [header, ".ifndef PENTLY_MUSIC_INC", "PENTLY_MUSIC_INC = 1",
      s!"NUM_SONGS = {Text.natText score.songs.size}",
      s!"NUM_SOUNDS = {Text.natText score.sfx.size}"] ++
    effectLines score ++ allSongLines score ++ resumeLines score ++
    albumLine "PENTLY_TITLE" score.album.title.value? ++
    albumLine "PENTLY_AUTHOR" score.album.author.value? ++
    albumLine "PENTLY_COPYRIGHT" score.album.copyright.value? ++
    creditLines score ++ [".endif", ""]

end Chiptune.Output
