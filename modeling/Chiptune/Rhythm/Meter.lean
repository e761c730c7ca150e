import Chiptune.Fault
import Chiptune.Register
import Chiptune.Step
import Chiptune.Text.Cut

/-!
# Meter

The meter of a song or pattern: the time signature, the rows of a whole note, the
duration of notes that are written without one, and the position in measures and
rows.
-/

namespace Chiptune

/-- A measure and a row in it. -/
structure Position where
  measure : Int
  row : Nat
deriving DecidableEq, Repr, Inhabited

/-- What rows depend on. -/
structure Meter where
  /-- Whether a written duration holds for the notes after it. -/
  sticky : Bool
  /-- The rows of a whole note. -/
  scale : Nat
  /-- The beats of a measure. -/
  beats : Nat
  /-- The denominator of a beat's note value. -/
  beatUnit : Nat
  /-- The duration of notes without one. -/
  length : Option Duration
  position : Position
deriving DecidableEq, Repr, Inhabited

namespace Meter

/-- Four quarters in sixteen rows, at the start. -/
def initial : Meter :=
  { sticky := false, scale := 16, beats := 4, beatUnit := 4, length := none,
    position := ⟨1, 0⟩ }

/-- The powers of two from 2 to 64. -/
def isPowerWithinBounds (n : Nat) : Bool :=
  n == 2 || n == 4 || n == 8 || n == 16 || n == 32 || n == 64

/-- Forget the default duration. -/
def forgetLength (meter : Meter) : Meter := { meter with length := none }

/-- Choose whether written durations hold for the notes after them. -/
def setSticky (meter : Meter) (word : String) : Except Fault Meter :=
  if word = "temporary" then .ok { meter with sticky := false }
  else if word = "stick" then .ok { meter with sticky := true }
  else .error (.unknownDurationRule word)

/-- Set the time signature. -/
def setTime (meter : Meter) (beats beatUnit : Nat) : Except Fault Meter :=
  if beats < 2 then .error (.tooFewBeats beats)
  else if !isPowerWithinBounds beatUnit then .error (.badBeatUnit beatUnit)
  else .ok { meter with beats := beats, beatUnit := beatUnit }

/-- Set the rows of a whole note. -/
def setScale (meter : Meter) (scale : Nat) : Except Fault Meter :=
  if isPowerWithinBounds scale then .ok { meter with scale := scale }
  else .error (.badScale scale)

/-- The rows of one beat unit, which must be whole. -/
def unitRows (meter : Meter) : Except Fault Nat :=
  if meter.scale % meter.beatUnit = 0 then .ok (meter.scale / meter.beatUnit)
  else .error (.scaleTooCoarse meter.scale meter.beatUnit)

/-- The rows of a measure. -/
def measureRows (meter : Meter) : Except Fault Nat :=
  meter.unitRows.map fun rows => Register.nat32 (rows * meter.beats)

/-- Whether beats are dotted: six, nine, twelve and so on to the measure. -/
def isCompound (meter : Meter) : Bool := 6 ≤ meter.beats && meter.beats % 3 == 0

/-- The rows of a beat. -/
def beatRows (meter : Meter) : Except Fault Nat :=
  meter.unitRows.map fun rows => if meter.isCompound then rows * 3 else rows

/-- The duration that a number and a suffix denote. -/
def writtenDuration (number : Option Nat) (augment : Augment) :
    Except Fault (Option Duration) :=
  match number with
  | none => if augment = .plain then .ok none else .error (.augmentWithoutNumber augment)
  | some n =>
    if n < 1 ∨ 64 < n then .error (.durationOutOfRange n)
    else if augment ≠ .grace ∧ !(n == 1 || isPowerWithinBounds n) then
      .error (.durationNotPowerOfTwo n)
    else .ok (some ⟨n, augment⟩)

/-- Set the duration of notes without one. -/
def setLength (meter : Meter) : Option Duration → Except Fault Meter
  | none => .error .lengthWithoutDuration
  | some duration =>
    if duration.augment = .grace then .error .graceLength
    else .ok { meter with length := some duration }

/-- One beat as a duration. -/
def beatDuration (meter : Meter) : Except Fault Duration :=
  meter.beatRows.map fun rows =>
    if rows % 3 = 0 then ⟨meter.scale * 3 / (rows * 2), .dotted⟩
    else ⟨meter.scale / rows, .plain⟩

/-- The rows of a duration, which must be whole. -/
def rowsOf (meter : Meter) (duration : Duration) : Except Fault Nat :=
  let rows := meter.scale * duration.augment.quarters
  let parts := duration.denominator * 4
  if rows % parts = 0 then .ok (rows / parts)
  else .error (.unalignedDuration duration meter.scale)

/-- The duration in force for a note without one: the default, which is a beat when
none was set. -/
def defaultDuration : Step Meter Duration := do
  let meter ← get
  match meter.length with
  | some duration => return duration
  | none =>
    let duration ← Step.decide meter.beatDuration
    set { meter with length := some duration }
    return duration

/-- The duration in force for a note; a written one is kept if durations stick. -/
def durationInForce : Option Duration → Step Meter Duration
  | some duration => do
    let meter ← get
    if meter.sticky then set { meter with length := some duration }
    return duration
  | none => defaultDuration

/-- The rows of a note with the given written duration; a grace note gives minus its
frames. What the duration sets stays set when its rows are not whole. -/
def noteRows (written : Option Duration) : Step Meter Int :=
  match written with
  | some ⟨frames, .grace⟩ => return -Int.ofNat frames
  | written => do
    let duration ← durationInForce written
    let meter ← get
    let rows ← Step.decide (meter.rowsOf duration)
    return Int.ofNat rows

/-- The position of a beat and a row in a measure. -/
def locate (meter : Meter) (measure : Int) (beat row : Nat) : Except Fault Position := do
  if beat < 1 then throw .beatBelowOne
  let beatRows ← meter.beatRows
  let offset := beatRows * (beat - 1) + row
  if Text.maxNat32 < offset then throw (.tooFarIntoMeasure beat row)
  let length ← meter.measureRows
  if length ≤ offset then throw (.rowBeyondMeasure offset length)
  return ⟨measure, offset⟩

/-- The rows from here to a position, and the meter there. -/
def moveTo (meter : Meter) (target : Position) : Except Fault (Nat × Meter) := do
  let length ← meter.measureRows
  let here := meter.position
  let rows := Register.int64 ((target.measure - here.measure) * Int.ofNat length
    + Int.ofNat target.row - Int.ofNat here.row)
  if rows < 0 then throw (.backwards here.measure here.row target.measure target.row)
  if Int.ofNat Text.maxNat32 < rows then throw (.waitTooLong rows target.measure)
  return (rows.toNat, { meter with position := target })

end Meter

/-- Read a position `M`, `M:B` or `M:B:R`. -/
def Position.readWord (word : String) : Except Fault (Int × Nat × Nat) :=
  let (measureText, rest) :=
    match Text.cut? ':' word with
    | some (measure, rest) => (measure, some rest)
    | none => (word, none)
  let (beatText, rowText) :=
    match rest with
    | none => (none, none)
    | some rest =>
      match Text.cut? ':' rest with
      | some (beat, row) => (some beat, some row)
      | none => (some rest, none)
  let beat? := match beatText with | some text => Text.nat32? text | none => some 1
  let row? := match rowText with | some text => Text.nat32? text | none => some 0
  match Text.int32? measureText, beat?, row? with
  | some measure, some beat, some row => .ok (measure, beat, row)
  | _, _, _ => .error (.notPosition word)

/-- Read a time signature: a fraction, or a sign for common, cut or perfect time. -/
def Meter.readTime (word : String) : Except Fault (Nat × Nat) :=
  if word = "c" || word = "C" then .ok (4, 4)
  else if word = "¢" then .ok (2, 2)
  else if word = "o" || word = "O" then .ok (3, 4)
  else
    match Text.cut? '/' word with
    | none => .error (.timeNotFraction word)
    | some (beats, unit) =>
      match Text.nat32? beats with
      | none => .error (.beatsNotNumber beats)
      | some beats =>
        match Text.nat32? unit with
        | none => .error (.beatUnitNotNumber unit)
        | some unit => .ok (beats, unit)

end Chiptune
