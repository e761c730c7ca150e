import Chiptune.Chord.Book
import Chiptune.Note.Word

/-!
# Pitches

A pitch is a number of semitones above the lowest A of the engine. The letter of
a note, its accidental and its octave marks give the pitch; in the relative modes
the octave follows the note before. A chord may be set for all notes that follow,
or for one note and the waits that extend it.
-/

namespace Chiptune

/-- How the octave marks of a note are read. -/
inductive OctaveMode where
  /-- No note yet: the first note of a pattern decides. -/
  | unset
  /-- Words name drums. -/
  | drum
  /-- Pitches are numbers of the noise channel. -/
  | noise
  /-- Marks count from octave zero. -/
  | absolute
  /-- Marks count from the octave of the note before. -/
  | octaveRelative
  /-- Marks count from the octave in which the note is nearest to the note before. -/
  | relative
deriving DecidableEq, Repr, Inhabited

namespace OctaveMode

/-- The mode that a word selects. -/
def ofWord? (word : String) : Option OctaveMode :=
  if word = "absolute" then some absolute
  else if word = "orelative" then some octaveRelative
  else if word = "relative" then some relative
  else none

/-- Whether octaves are counted from the note before. -/
def followsOctave (mode : OctaveMode) : Bool := mode == octaveRelative || mode == relative

end OctaveMode

/-- Which of the two signs before a letter raises the octave. -/
inductive OctaveSigns where
  /-- The sign `>` raises. -/
  | normal
  /-- The sign `<` raises. -/
  | swapped
deriving DecidableEq, Repr, Inhabited

/-- What a note word plays. -/
inductive NotePitch where
  | semitone (pitch : Int)
  | rest
  | wait
  /-- The word only sets the default duration. -/
  | length
deriving DecidableEq, Repr, Inhabited

/-- What pitches depend on. -/
structure PitchState where
  language : NoteLanguage
  mode : OctaveMode
  signs : OctaveSigns
  /-- The step of the scale of the note before. -/
  degree : Int
  /-- The octave of the note before. -/
  octave : Int
  /-- The chord for all notes that follow. -/
  arpeggio : Option Arpeggio
  /-- The chord of the note before alone. -/
  passing : Option Arpeggio
  /-- The pitch and chord code of the note before. -/
  last : Option (Int × Option ChordCode)
  /-- The layers of chord names that are seen. -/
  lineage : Lineage
deriving DecidableEq, Repr, Inhabited

namespace PitchState

/-- The pitch of `c` in octave zero. -/
def base : Int := 15

/-- The state before any statement. -/
def initial : PitchState :=
  { language := .english
    mode := .unset
    signs := .normal
    degree := 3
    octave := 0
    arpeggio := none
    passing := none
    last := none
    lineage := ChordBook.root }

/-- A copy of the state with a layer of chord names of its own. -/
def child (state : PitchState) (book : ChordBook) : PitchState × ChordBook :=
  let (lineage, book) := book.nest state.lineage
  ({ state with lineage := lineage }, book)

/-- Choose the note language by its name in any case. -/
def setLanguage (state : PitchState) (word : String) : Except Fault PitchState :=
  let name := String.ofList (word.toList.map Char.toLower)
  if name = "english" then .ok { state with language := .english }
  else if name = "deutsch" then .ok { state with language := .deutsch }
  else .error (.unknownLanguage word)

/-- Choose the meaning of the signs before a letter. -/
def setSigns (state : PitchState) (word : String) : Except Fault PitchState :=
  if word = "normal" then .ok { state with signs := .normal }
  else if word = "swapped" then .ok { state with signs := .swapped }
  else .error (.unknownOctaveSigns word)

/-- Forget the notes before, as at the start of a pattern. -/
def restart (state : PitchState) (mode : OctaveMode) : PitchState :=
  { state with
    mode := mode
    degree := 3
    octave := 0
    arpeggio := none
    passing := none
    last := none }

/-- Set the chord for all notes that follow. -/
def setArpeggio (state : PitchState) (book : ChordBook) (text : String) :
    Except Fault PitchState :=
  (book.interpret state.lineage text).map fun arpeggio => { state with arpeggio := arpeggio }

/-- The octaves that the marks of a word go up. -/
def octaveShift (signs : OctaveSigns) (word : NoteWord) : Except Fault Int :=
  if word.leading ≠ 0 ∧ word.tail.marks ≠ 0 then .error .mixedOctaveMarks
  else
    let leading :=
      match signs with
      | .normal => word.leading
      | .swapped => -word.leading
    .ok (leading + word.tail.marks)

/-- The octave of a tone whose marks go up `shift` octaves. -/
def octaveOf (state : PitchState) (tone : Tone) (shift : Int) : Int :=
  let start := if state.mode.followsOctave then state.octave else 0
  let step := tone.degree - state.degree
  let nearest :=
    if state.mode = .relative then
      if 3 < step then -1 else if step < -3 then 1 else 0
    else 0
  start + shift + nearest

/-- The pitch of a tone, and the state that remembers its octave. -/
def locate (state : PitchState) (tone : Tone) (word : NoteWord) :
    Except Fault (Int × PitchState) :=
  match octaveShift state.signs word with
  | .error fault => .error fault
  | .ok shift =>
    let octave := state.octaveOf tone shift
    let pitch :=
      tone.semitone state.language + word.accidental.semitones + 12 * octave + base
    .ok (pitch, { state with degree := tone.degree, octave := octave })

/-- The chord written in a word. -/
def writtenChord (state : PitchState) (book : ChordBook) (word : NoteWord) :
    Except Fault (Option Arpeggio) :=
  match word.tail.chord with
  | some text => book.interpret state.lineage text
  | none => .ok none

/-- Play a tone. A chord for one note returns to the base note alone when no chord
is set for all. -/
def playTone (state : PitchState) (tone : Tone) (word : NoteWord) (chord : Option Arpeggio) :
    Except Fault ((NotePitch × Option ChordCode) × PitchState) :=
  match state.locate tone word with
  | .error fault => .error fault
  | .ok (pitch, state) =>
    let arpeggio :=
      if chord.isSome && state.arpeggio.isNone then some Arpeggio.silent else state.arpeggio
    let inForce := chord.or arpeggio
    let pitch := pitch - Int.ofNat ((inForce.map Arpeggio.drop).getD 0)
    let code := inForce.map (·.code)
    .ok ((.semitone pitch, code),
      { state with arpeggio := arpeggio, passing := chord, last := some (pitch, code) })

/-- Play the note before once more, with another chord if one is written. -/
def repeatLast (state : PitchState) (chord : Option Arpeggio) :
    Except Fault ((NotePitch × Option ChordCode) × PitchState) :=
  match state.last with
  | none => .error .nothingToRepeat
  | some (pitch, code) => .ok ((.semitone pitch, (chord.map (·.code)).or code), state)

/-- The chord of a rest, a wait or a length. -/
def heldCode (state : PitchState) (chord : Option Arpeggio) : Option ChordCode :=
  ((chord.or state.passing).or state.arpeggio).map (·.code)

/-- What a note word plays and the code of its chord, with the state after it. A word
that fails leaves the state as it was. -/
def read (state : PitchState) (book : ChordBook) (word : NoteWord) :
    Except Fault ((NotePitch × Option ChordCode) × PitchState) :=
  match state.writtenChord book word with
  | .error fault => .error fault
  | .ok chord =>
    match word.letter with
    | .tone tone => state.playTone tone word chord
    | letter =>
      if word.hasPitchMarks then .error (.pitchMarksOn letter.char)
      else
        match letter with
        | .repeatChord => state.repeatLast chord
        | .rest =>
          let state := { state with passing := chord }
          .ok ((.rest, state.heldCode chord), state)
        | .wait => .ok ((.wait, state.heldCode chord), state)
        | _ => .ok ((.length, state.heldCode chord), state)

/-- The number of a noise pitch, counted down from the highest. -/
def noisePitch (word : String) : Except Fault Int :=
  match Text.int32? word with
  | none => .error (.noiseNotNumber word)
  | some value =>
    if 0 ≤ value ∧ value ≤ 15 then .ok (15 - value) else .error (.noiseOutOfRange value)

/-- The pitch of a word that stands alone: octaves are absolute, and in noise mode
the word is a number. -/
def readAbsolute (state : PitchState) (word : String) : Except Fault (Int × PitchState) :=
  if state.mode = .noise then (noisePitch word).map fun pitch => (pitch, state)
  else
    match NoteWord.scanPitch? word with
    | none => .error (.notPitch word)
    | some note =>
      match note.letter with
      | .tone tone =>
        match { state with mode := OctaveMode.absolute }.locate tone note with
        | .error fault => .error fault
        | .ok (pitch, next) => .ok (pitch, { next with mode := state.mode })
      | _ => .error (.notPitch word)

end PitchState

end Chiptune
