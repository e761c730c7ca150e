import Chiptune.Output.Entry
import Chiptune.Registry
import Chiptune.Voice.Envelope

/-!
# Instruments

An instrument plays the frames of its envelope but the last as an attack, and
sustains the last one while it decays.
-/

namespace Chiptune

/-- An instrument. -/
structure Instrument where
  name : String
  place : Location
  envelope : Envelope
  decay : Field Nat
  detached : Bool
deriving Inhabited

namespace Instrument

instance : Entity Instrument := ⟨Instrument.name, Instrument.place⟩

/-- An instrument without properties. -/
def blank (name : String) (place : Location) : Instrument :=
  ⟨name, place, .blank, .unset, false⟩

/-- The greatest timbre: the fourth pulse duty. -/
def mostTimbre : Nat := 3

/-- The timbre of frames that give none. -/
def plainTimbre : Nat := 2

/-- Give the volumes. -/
def setVolume (instrument : Instrument) (words : List String) (place : Location) :
    Except Fault Instrument :=
  (instrument.envelope.setVolume words place instrument.name).map fun envelope =>
    { instrument with envelope := envelope }

/-- Give the timbres. -/
def setTimbre (instrument : Instrument) (words : List String) (place : Location) :
    Except Fault Instrument :=
  (instrument.envelope.setTimbre mostTimbre words place instrument.name).map fun envelope =>
    { instrument with envelope := envelope }

/-- Give the pitches, in semitones from the played note. -/
def setPitch (instrument : Instrument) (words : List String) (place : Location) :
    Except Fault Instrument :=
  (instrument.envelope.setPitch Envelope.readRelativePitch words place instrument.name).map
    fun envelope => { instrument with envelope := envelope }

/-- Give the decay in sixteenths of a volume step to the frame. -/
def setDecay (instrument : Instrument) (rate : Int) (place : Location) :
    Except Fault Instrument :=
  if 0 ≤ rate ∧ rate ≤ 127 then
    (instrument.decay.set rate.toNat place "decay" instrument.name).map fun decay =>
      { instrument with decay := decay }
  else .error (.decayOutOfRange rate)

/-- Cut notes a row early. -/
def setDetached (instrument : Instrument) : Instrument := { instrument with detached := true }

/-- The frames of the envelope. -/
def frames (instrument : Instrument) : List EnvelopeStep :=
  instrument.envelope.frames plainTimbre

/-- The bytes of an attack frame: timbre and volume, flagged when no pitch follows. -/
def frameBytes (step : EnvelopeStep) : List Nat :=
  let head := step.timbre <<< 6 ||| step.volume
  if step.pitch = 0 then [head ||| 16] else [head, (step.pitch % 256).toNat]

/-- The attack frames: all but the last. -/
def attack (instrument : Instrument) : List EnvelopeStep := instrument.frames.dropLast

/-- The bytes of the attack. -/
def attackBytes (instrument : Instrument) : List Nat := instrument.attack.flatMap frameBytes

/-- The frame that is sustained. -/
def sustain (instrument : Instrument) : EnvelopeStep :=
  instrument.frames.getLast?.getD ⟨plainTimbre, 8, 0⟩

/-- The label of the instrument with the given name. -/
def labelOf (name : String) : String := "PI_" ++ Name.label name

/-- The directory entry of the instrument. -/
def entry (instrument : Instrument) : Entry :=
  let bytes := instrument.attackBytes
  let frames := instrument.attack.length
  let label := labelOf instrument.name
  let dataLabel := "PIDAT_" ++ Name.label instrument.name
  let operands :=
    [label, Text.natText instrument.sustain.timbre, Text.natText instrument.sustain.volume,
      Text.natText ((instrument.decay.value?).getD 0),
      if instrument.detached then "1" else "0",
      if 0 < frames then dataLabel else "0",
      Text.natText frames]
  { label := label
    definition := "instdef " ++ String.intercalate ", " operands
    data :=
      if 0 < frames then
        some ⟨dataLabel, .bytes, bytes.map fun byte => "$" ++ Text.upperHex 2 byte, some bytes⟩
      else none
    byteSize := bytes.length + 5 }

end Instrument

end Chiptune
