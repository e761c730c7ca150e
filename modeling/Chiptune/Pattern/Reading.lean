import Chiptune.Pattern.Basic

/-!
# Reading patterns

A word of a pattern is a bar check, an octave mode, a volume, an effect, or a
note. The first note decides whether an undecided pattern plays pitches or drums.
-/

namespace Chiptune

/-- The forms of a word in a pattern. -/
inductive PatternWord where
  | bar
  | mode (mode : OctaveMode)
  | volume (level : Nat)
  | arpeggio (argument : String)
  | bend (argument : String)
  | vibrato (argument : String)
  | instrument (name : String)
  | note
deriving DecidableEq, Repr, Inhabited

namespace PatternWord

/-- The volume level of a dynamics word. -/
def volumeLevel? (word : String) : Option Nat :=
  if word = "pp" then some 1
  else if word = "mp" then some 2
  else if word = "mf" then some 3
  else if word = "ff" then some 4
  else none

/-- The form of a word. Whatever has no other form is a note. -/
def classify (word : String) : PatternWord :=
  if word = "|" then bar
  else if let some selected := OctaveMode.ofWord? word then mode selected
  else if let some level := volumeLevel? word then volume level
  else if let some argument := Text.after? "EN" word then arpeggio argument
  else if let some argument := Text.after? "EP" word then bend argument
  else if let some argument := Text.after? "MP" word then vibrato argument
  else if let some name := Text.after? "@" word then instrument name
  else note

end PatternWord

namespace Pattern

/-- The rate of a pitch bend: off, or two hexadecimal digits below 30. -/
def bendRate? (argument : String) : Option Nat :=
  match argument.toList with
  | ['O', 'F'] => some 0
  | [c, d] =>
    if '0' ≤ c ∧ c ≤ '2' then
      (Text.hexValue? d).map fun low => (c.toNat - '0'.toNat) * 16 + low
    else none
  | _ => none

/-- The depth of a vibrato: off, or one hexadecimal digit, held at 4. -/
def vibratoDepth? (argument : String) : Option Nat :=
  match argument.toList with
  | ['O', 'F'] => some 0
  | [c] => (Text.hexValue? c).map fun depth => min depth 4
  | _ => none

/-- Take the rows of a note from the meter. -/
def takeRows (duration : Option Duration) : Step Pattern Int :=
  Step.on meter (fun meter pattern => { pattern with meter := meter })
    (Meter.noteRows duration)

/-- Set the default duration. -/
def takeLength (duration : Option Duration) : Step Pattern Unit :=
  Step.advance fun pattern =>
    (pattern.meter.setLength duration).map fun meter => ((), { pattern with meter := meter })

/-- Read what a note word plays. -/
def takePitch (book : ChordBook) (word : NoteWord) :
    Step Pattern (NotePitch × Option ChordCode) :=
  Step.advance fun pattern =>
    (pattern.pitch.read book word).map fun (played, pitch) =>
      (played, { pattern with pitch := pitch })

/-- Add a note of the given written duration. -/
def addNote (note : PatternNote) (duration : Option Duration) (slur : SlurMark)
    (chord : Option ChordCode) : Step Pattern Unit := do
  let rows ← takeRows duration
  modify fun pattern => pattern.pushNote note rows slur chord

/-- Add a pitch word. -/
def addPitched (book : ChordBook) (word : NoteWord) : Step Pattern Unit := do
  let duration ← Step.decide (Meter.writtenDuration word.tail.number word.tail.augment)
  let (played, chord) ← takePitch book word
  match played with
  | .length => takeLength duration
  | .semitone pitch => addNote (.pitch pitch) duration word.tail.slur chord
  | .rest => addNote .rest duration word.tail.slur chord
  | .wait => addNote .wait duration word.tail.slur chord

/-- Add a drum word. -/
def addDrum (word : DrumWord) : Step Pattern Unit := do
  let duration ← Step.decide (Meter.writtenDuration word.number word.augment)
  match word.stroke with
  | .length => takeLength duration
  | .rest => addNote .rest duration .none none
  | .wait => addNote .wait duration .none none
  | .hit name => addNote (.drum name) duration .none none

/-- Choose the octave mode. -/
def setMode (mode : OctaveMode) (pattern : Pattern) : Pattern :=
  { pattern with pitch := { pattern.pitch with mode := mode } }

/-- Whether a note word may stand before the pattern is decided: a rest, a wait or a
length. -/
def isUndecided (word : NoteWord) : Bool :=
  word.letter == .length || word.letter == .rest || word.letter == .wait

/-- Add the first note, which decides between pitches and drums. -/
def addFirst (book : ChordBook) (word : String) : Step Pattern Unit :=
  match NoteWord.scan? word, DrumWord.scan? word with
  | some note, drum =>
    if isUndecided note then addPitched book note
    else if drum.isSome then throw (.ambiguousNote word)
    else do
      modify (setMode .absolute)
      addPitched book note
  | none, some drum => do
    modify fun pattern => { setMode .drum pattern with track := some .drum }
    addDrum drum
  | none, none => throw (.unknownFirstNote word)

/-- Add a note word. -/
def addNoteWord (book : ChordBook) (word : String) : Step Pattern Unit := do
  match (← get).pitch.mode with
  | .unset => addFirst book word
  | .drum =>
    match DrumWord.scan? word with
    | some drum => addDrum drum
    | none => throw (.unknownDrumNote word)
  | _ =>
    match NoteWord.scan? word with
    | some note => addPitched book note
    | none => throw (.unknownPitchedNote word)

/-- Warn unless the rows so far fill whole measures. A measure whose rows have wrapped
around to none cannot be filled. -/
def barCheck (pattern : Pattern) : Except Fault (List String) := do
  let length ← pattern.meter.measureRows
  if length = 0 then throw .emptyMeasure
  let offset := pattern.rows % length
  if offset = 0 then return []
  return [s!"bar check failed: {Text.natText offset} rows into a {Text.natText length}-row measure"]

/-- Add an arpeggio effect: a speed, or a chord for all notes that follow. -/
def addArpeggio (book : ChordBook) (word argument : String) : Step Pattern (List String) := do
  if argument = "P1" then
    modify (·.pushEffect .fastArpeggio)
    return []
  else if argument = "P2" then
    modify (·.pushEffect .slowArpeggio)
    return []
  else if NoteWord.isChordText argument then
    Step.advance fun pattern =>
      (pattern.pitch.setArpeggio book argument).map fun pitch =>
        ([], { pattern with pitch := pitch })
  else return [s!"{word} is not a valid arpeggio effect"]

/-- Add an effect that was read, or warn that it was not. -/
def addEffect (effect : Option PatternEffect) (warning : String) :
    Step Pattern (List String) := do
  match effect with
  | some effect =>
    modify (·.pushEffect effect)
    return []
  | none => return [warning]

/-- Select an octave mode by its word, which a drum pattern has no use for. -/
def selectMode (word : String) (mode : OctaveMode) : Step Pattern (List String) := do
  if (← get).pitch.mode = .drum then throw (.modeInDrumPattern word)
  modify (setMode mode)
  return []

/-- Select an instrument by its name. -/
def selectInstrument (name : String) : Step Pattern (List String) := do
  if name.isEmpty then throw .instrumentNameMissing
  modify (·.pushEffect (.instrument name))
  return []

/-- Read one word of a pattern; the value is the warnings it gives. -/
def addWord (book : ChordBook) (word : String) : Step Pattern (List String) :=
  match PatternWord.classify word with
  | .bar => do
    let pattern ← get
    Step.decide (barCheck pattern)
  | .mode mode => selectMode word mode
  | .volume level => addEffect (some (.channelVolume level)) ""
  | .arpeggio argument => addArpeggio book word argument
  | .bend argument =>
    addEffect ((bendRate? argument).map .bend) s!"{word} is not a valid portamento effect"
  | .vibrato argument =>
    addEffect ((vibratoDepth? argument).map .vibrato) s!"{word} is not a valid vibrato effect"
  | .instrument name => selectInstrument name
  | .note => do
    addNoteWord book word
    return []

/-- Read the words of a line; the value is the warnings they give. -/
def addWords (book : ChordBook) : List String → Step Pattern (List String)
  | [] => return []
  | word :: words => do
    let warnings ← addWord book word
    let later ← addWords book words
    return warnings ++ later

end Pattern

end Chiptune
