import Chiptune.Output.Entry
import Chiptune.Pattern.Code
import Chiptune.Pattern.Run
import Chiptune.Voice.Drum
import Chiptune.Voice.Instrument

/-!
# Encoding patterns

A pattern is encoded item by item. The transposition changes at the start of each
run, legato changes before an attack when the slur before it differs, a long note
is one attack and ties, and at the end transposition and legato are put back.
-/

namespace Chiptune

/-- The entities that the notes and effects of a pattern name. -/
structure Orchestra where
  instruments : Registry Instrument
  drums : Registry Drum
deriving Inhabited

/-- What the engine is known to be set to while a pattern is encoded. -/
structure Encoder where
  /-- The transposition in force. -/
  transpose : Int
  /-- The runs that have not begun. -/
  runs : List TransposeRun
  legato : Bool
  /-- Whether the note before leads into the next. -/
  slurred : Bool
deriving DecidableEq, Repr, Inhabited

namespace Encoder

/-- The state at the start of a pattern with the given runs. -/
def start (runs : List TransposeRun) : Encoder :=
  ⟨(runs.head?.map (·.low)).getD 0, runs.tail, false, false⟩

/-- Begin the next run if it starts by item `index`. -/
def beginRun (encoder : Encoder) (index : Nat) : List PatternCode × Encoder :=
  match encoder.runs with
  | run :: later =>
    if run.start ≤ index then
      ([.transpose (run.low - encoder.transpose)],
        { encoder with transpose := run.low, runs := later })
    else ([], encoder)
  | [] => ([], encoder)

/-- Switch legato before an attack if the note before asks for it. -/
def beginNote (encoder : Encoder) (note : PatternNote) (slurred : Bool) :
    List PatternCode × Encoder :=
  if note.isAttack && encoder.slurred != encoder.legato then
    ([if encoder.slurred then .legatoOn else .legatoOff],
      { encoder with legato := encoder.slurred, slurred := slurred })
  else ([], { encoder with slurred := slurred })

end Encoder

namespace Orchestra

/-- The sound of a pitch over a transposition. -/
def pitchSound (transpose pitch : Int) : Except Fault Sound :=
  let offset := pitch - transpose
  if h : 0 ≤ offset ∧ offset < 25 then .ok (.pitch ⟨offset.toNat, by omega⟩)
  else .error (.outsideRun pitch transpose)

/-- The sound of a note of `pattern`. -/
def sound (orchestra : Orchestra) (pattern : String) (transpose : Int) :
    PatternNote → Except Fault Sound
  | .pitch pitch => pitchSound transpose pitch
  | .rest => .ok .rest
  | .wait => .ok .tie
  | .drum name =>
    match orchestra.drums.resolve? name pattern with
    | some drum => .ok (.drum (Drum.labelOf drum.name))
    | none => .error (.patternUnknownDrum pattern name)

/-- The code of an effect of `pattern`. -/
def effectCode (orchestra : Orchestra) (pattern : String) :
    PatternEffect → Except Fault PatternCode
  | .instrument name =>
    match orchestra.instruments.resolve? name pattern with
    | some instrument => .ok (.instrument (Instrument.labelOf instrument.name))
    | none => .error (.patternUnknownInstrument pattern name)
  | .fastArpeggio => .ok .fastArpeggio
  | .slowArpeggio => .ok .slowArpeggio
  | .bend rate => .ok (.bend rate)
  | .vibrato depth => .ok (.vibrato depth)
  | .channelVolume level => .ok (.channelVolume level)

/-- The codes of a sound of the given rows: a grace note, or an attack and ties. -/
def lasting (sound : Sound) (rows : Int) : List PatternCode :=
  if rows < 0 then [.grace rows.natAbs, .note sound none]
  else
    match NoteLength.decompose rows.toNat with
    | [] => []
    | first :: later => .note sound (some first) :: later.map fun length => .note .tie (some length)

/-- The codes of one item, and what the engine is set to after it. -/
def encodeItem (orchestra : Orchestra) (pattern : String) (encoder : Encoder) :
    TiedItem → Except Fault (List PatternCode × Encoder)
  | .effect effect => do
    let code ← orchestra.effectCode pattern effect
    return ([code], encoder)
  | .arpeggio code => return ([.arpeggio code], encoder)
  | .note note rows slurred => do
    let sound ← orchestra.sound pattern encoder.transpose note
    let (legato, encoder) := encoder.beginNote note slurred
    return (legato ++ lasting sound rows, encoder)

/-- The codes of the items from number `index` on, and what the engine is set to after
them. -/
def encodeFrom (orchestra : Orchestra) (pattern : String) :
    Nat → Encoder → List TiedItem → Except Fault (List PatternCode × Encoder)
  | _, encoder, [] => return ([], encoder)
  | index, encoder, item :: items => do
    let (change, encoder) := encoder.beginRun index
    let (codes, encoder) ← orchestra.encodeItem pattern encoder item
    let (later, encoder) ← orchestra.encodeFrom pattern (index + 1) encoder items
    return (change ++ codes ++ later, encoder)

end Orchestra

namespace Pattern

/-- The codes that put transposition and legato back and end the pattern. -/
def closing (pattern : Pattern) (base : Int) (encoder : Encoder) : List PatternCode :=
  let transpose :=
    if encoder.transpose = base then [] else [.transpose (base - encoder.transpose)]
  let ending :=
    if pattern.fallthrough then []
    else (if encoder.legato then [.legatoOff] else []) ++ [.patternEnd]
  transpose ++ ending

/-- The codes of a pattern. -/
def encode (pattern : Pattern) (orchestra : Orchestra) : Except Fault (List PatternCode) := do
  let items := pattern.tied
  let start := Encoder.start (TransposeRun.split items)
  let (codes, encoder) ← orchestra.encodeFrom pattern.name 0 start items
  return codes ++ pattern.closing start.transpose encoder

/-- The label of the pattern with the given name. -/
def labelOf (name : String) : String := "PP_" ++ Name.label name

/-- The directory entry of a pattern. -/
def entry (pattern : Pattern) (orchestra : Orchestra) : Except Fault Entry := do
  let codes ← pattern.encode orchestra
  let label := labelOf pattern.name
  let dataLabel := "PPDAT_" ++ Name.label pattern.name
  return {
    label := label
    definition := "patdef " ++ label ++ ", " ++ dataLabel
    data := some ⟨dataLabel, .bytes, codes.map PatternCode.text, none⟩
    byteSize := totalSize (codes.map PatternCode.size) + 2 }

end Pattern

end Chiptune
