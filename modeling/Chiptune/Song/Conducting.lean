import Chiptune.Decimal.Binary
import Chiptune.Register
import Chiptune.Song.Basic
import Chiptune.Step
import Chiptune.Text.Blank
import Chiptune.Text.Lowercase

/-!
# Conducting

The operations that build a song. Tempo and beat are sent to the engine before a
wait, and only when they differ from what it was last set to.
-/

namespace Chiptune

/-- How a song ends. -/
inductive Ending where
  | fine
  | dalSegno
  | daCapo
deriving DecidableEq, Repr, Inhabited

/-- The ending that words name, in any case. -/
def Ending.ofWords (words : List String) : Except Fault Ending :=
  let text := Text.lowercase (Text.unwords words)
  if text = "fine" then .ok fine
  else if text = "dal segno" || text = "dalsegno" then .ok dalSegno
  else if text = "da capo" || text = "dacapo" then .ok daCapo
  else .error (.unknownEnding text)

namespace Song

/-- The greatest tempo, in rows per minute as in beats per minute. -/
def fastestTempo : Nat := 1500

/-- The rows of the longest single wait. -/
def longestWait : Nat := 256

/-- The number of marks that are exported. -/
def exportedMarks : Nat := 32

/-- Set the tempo in beats per minute; the engine learns of it at the next wait. -/
def setTempo (song : Song) (tempo : Float) : Except Fault Song :=
  if 1.0 ≤ tempo ∧ tempo ≤ Float.ofNat fastestTempo then .ok { song with tempo := tempo }
  else .error (.tempoOutOfRange tempo)

/-- The tempo in rows per minute at the given rows of a beat, rounded to the nearest, a
half to the even. -/
def rowTempo (tempo : Float) (beatRows : Nat) : Nat :=
  let product := Decimal.Binary.ofFloat (tempo * Float.ofNat beatRows)
  (product.nearestInt?.getD 0).toNat

/-- Tell the engine the tempo if it is new. -/
def sendTempo (rowsPerMinute : Nat) (song : Song) : Song :=
  if song.engineTempo = some rowsPerMinute then song
  else { song.push (.setTempo rowsPerMinute) with engineTempo := some rowsPerMinute }

/-- Tell the engine the beat if it is new. -/
def sendBeat (beatRows : Nat) (song : Song) : Except Fault Song :=
  if song.engineBeat = some beatRows then .ok song
  else
    match NoteLength.ofRows? beatRows with
    | some length => .ok { song.push (.setBeat length) with engineBeat := some beatRows }
    | none => .error (.beatWithoutCode beatRows)

/-- The waits that make up a number of rows: the longest ones, then what is left. -/
def waits (rows : Nat) : List Nat :=
  let full := (rows - 1) / longestWait
  List.replicate full longestWait ++ [rows - full * longestWait]

/-- Add the waits that make up a number of rows. -/
def pushWaits (rows : Nat) (song : Song) : Song :=
  { song.pushAll ((waits rows).map .waitRows) with rows := Register.nat32 (song.rows + rows) }

/-- Wait a number of rows. A tempo that was sent stays sent when the beat cannot be. -/
def waitRows (rows : Nat) : Step Song Unit := do
  if rows = 0 then return
  let beatRows ← Step.decide (← get).meter.beatRows
  let rowsPerMinute := rowTempo (← get).tempo beatRows
  if fastestTempo < rowsPerMinute then throw (.rowTempoTooFast rowsPerMinute)
  modify (sendTempo rowsPerMinute)
  Step.advance fun song => (song.sendBeat beatRows).map fun song => ((), song)
  modify (pushWaits rows)

/-- Wait until a position. The position is taken up before the wait. -/
def waitUntil (measure : Int) (beat row : Nat) : Step Song Unit := do
  let target ← Step.decide ((← get).meter.locate measure beat row)
  let rows ← Step.advance fun song : Song =>
    (song.meter.moveTo target).map fun (rows, meter) => (rows, { song with meter := meter })
  waitRows rows

/-- Declare the present position. -/
def pickup (song : Song) (measure : Int) (beat row : Nat) : Except Fault Song :=
  (song.meter.locate measure beat row).map fun position =>
    { song with meter := { song.meter with position := position } }

/-- Set the loop point here. -/
def setSegno (song : Song) (place : Location) : Except Fault Song :=
  (song.segno.set song.rows place "segno" song.name).map fun segno =>
    { song with segno := segno }.push .segno

/-- End the song. A loop goes back to the loop point, or to the start if there is
none, and says which. -/
def finish (song : Song) (ending : Ending) : Except Fault Song :=
  match ending, song.segno.isSet with
  | .fine, _ => .ok (song.push .fine)
  | .dalSegno, false => .error (.dalSegnoWithoutSegno song.name)
  | .daCapo, true => .error (.daCapoAfterSegno song.name)
  | .dalSegno, true | .daCapo, false => .ok (song.push .dalSegno)

/-- Turn on the attack track over a pitched channel. -/
def attackOn (song : Song) (track : Track) : Except Fault Song :=
  match track with
  | .pulse1 | .pulse2 | .triangle => .ok (song.push (.attackOn track))
  | .drum | .attack => .error (.attackTrack track)

/-- Stop tracks. -/
def stop (song : Song) (tracks : List Track) : Song := song.pushAll (tracks.map .stop)

/-- Whether a text is ASCII. -/
def isAscii (text : String) : Bool := text.toList.all fun c => c.toNat < 128

/-- The warnings about a new mark. -/
def markWarnings (song : Song) (name : String) : List String :=
  (if isAscii name then [] else [s!"mark name {name} contains non-ASCII characters"]) ++
    if song.marks.length = exportedMarks then
      [s!"song {song.name} has more than {Text.natText exportedMarks} marks; " ++
        "later marks are not exported"]
    else []

/-- Set a mark at the present row; the value is the warnings about it. -/
def addMark (song : Song) (name : String) : Except Fault (List String × Song) :=
  if song.marks.any fun mark => mark.name == name then
    .error (.markAlreadyDefined name song.name)
  else
    .ok (song.markWarnings name, { song with marks := song.marks ++ [⟨name, song.rows⟩] })

end Song

end Chiptune
