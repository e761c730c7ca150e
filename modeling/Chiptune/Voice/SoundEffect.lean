import Chiptune.Output.Entry
import Chiptune.Pitch
import Chiptune.Registry
import Chiptune.Voice.Envelope

/-!
# Sound effects

A sound effect plays its envelope on one channel, each frame for a number of
engine frames. A frame becomes a word of two bytes.
-/

namespace Chiptune

/-- A kind of channel. -/
inductive Channel where
  | pulse
  | triangle
  | noise
deriving DecidableEq, Repr, Inhabited

namespace Channel

/-- The channel with the given name. -/
def ofName (name : String) : Except Fault Channel :=
  if name = "pulse" then .ok pulse
  else if name = "triangle" then .ok triangle
  else if name = "noise" then .ok noise
  else .error (.unknownChannel name)

/-- The number of the channel. -/
def number : Channel → Nat
  | pulse => 0
  | triangle => 2
  | noise => 3

/-- The greatest timbre of the channel. -/
def mostTimbre : Channel → Nat
  | noise => 1
  | _ => 3

/-- The timbre of frames that give none. -/
def plainTimbre : Channel → Nat
  | noise => 0
  | _ => 2

/-- The timbre at its place in a frame's word. -/
def timbreBits : Channel → Nat → Nat
  | pulse, timbre => timbre <<< 14
  | triangle, _ => 32768
  | noise, timbre => if timbre = 0 then 0 else 128

end Channel

/-- A sound effect. -/
structure SoundEffect where
  name : String
  place : Location
  channel : Channel
  envelope : Envelope
  rate : Field Nat
  pitch : PitchState
deriving Inhabited

namespace SoundEffect

instance : Entity SoundEffect := ⟨SoundEffect.name, SoundEffect.place⟩

/-- A sound effect without properties, reading pitches in the given context. -/
def blank (name : String) (place : Location) (channel : Channel) (pitch : PitchState) :
    SoundEffect :=
  let mode := if channel = .noise then OctaveMode.noise else .absolute
  ⟨name, place, channel, .blank, .unset, pitch.restart mode⟩

/-- Give the volumes. -/
def setVolume (effect : SoundEffect) (words : List String) (place : Location) :
    Except Fault SoundEffect :=
  (effect.envelope.setVolume words place effect.name).map fun envelope =>
    { effect with envelope := envelope }

/-- Give the timbres. -/
def setTimbre (effect : SoundEffect) (words : List String) (place : Location) :
    Except Fault SoundEffect :=
  (effect.envelope.setTimbre effect.channel.mostTimbre words place effect.name).map
    fun envelope => { effect with envelope := envelope }

/-- The greatest note number. -/
def mostNote : Int := 87

/-- The pitch of a frame: a note number, an absolute pitch or a noise number. -/
def readPitch (pitch : PitchState) (word : String) : Except Fault Int :=
  match Text.int32? word with
  | some number =>
    if pitch.mode = .noise then (pitch.readAbsolute word).map (·.1)
    else if 0 ≤ number ∧ number ≤ mostNote then .ok number
    else .error (.noteNumberOutOfRange number)
  | none => (pitch.readAbsolute word).map (·.1)

/-- Give the pitches. -/
def setPitch (effect : SoundEffect) (words : List String) (place : Location) :
    Except Fault SoundEffect :=
  (effect.envelope.setPitch (readPitch effect.pitch) words place effect.name).map
    fun envelope => { effect with envelope := envelope }

/-- Give the engine frames of an envelope frame. -/
def setRate (effect : SoundEffect) (rate : Int) (place : Location) :
    Except Fault SoundEffect :=
  if 1 ≤ rate ∧ rate ≤ 16 then
    (effect.rate.set rate.toNat place "rate" effect.name).map fun rate =>
      { effect with rate := rate }
  else .error (.rateOutOfRange rate)

/-- The frames of the envelope. -/
def frames (effect : SoundEffect) : List EnvelopeStep :=
  effect.envelope.frames effect.channel.plainTimbre

/-- The frames without the silent ones at the end; the first frame is kept. -/
def audible : List EnvelopeStep → List EnvelopeStep
  | [] => []
  | step :: steps => step :: (steps.reverse.dropWhile fun s => s.volume == 0).reverse

/-- The word of a frame. -/
def frameWord (channel : Channel) (step : EnvelopeStep) : Nat :=
  channel.timbreBits step.timbre ||| step.volume <<< 8 ||| (step.pitch % 256).toNat

/-- The words of the sound effect. -/
def stepWords (effect : SoundEffect) : List Nat :=
  (audible effect.frames).map (frameWord effect.channel)

/-- The two bytes of a word, high byte first. -/
def wordBytes (word : Nat) : List Nat := [word / 256, word % 256]

/-- The label of the sound effect with the given name. -/
def labelOf (name : String) : String := "PE_" ++ Name.label name

/-- The directory entry of the sound effect. -/
def entry (effect : SoundEffect) : Entry :=
  let words := effect.stepWords
  let label := labelOf effect.name
  let dataLabel := "PEDAT_" ++ Name.label effect.name
  let operands :=
    [label, dataLabel, Text.natText words.length, Text.natText ((effect.rate.value?).getD 1),
      Text.natText effect.channel.number]
  { label := label
    definition := "sfxdef " ++ String.intercalate ", " operands
    data := some ⟨dataLabel, .words, words.map fun word => "$" ++ Text.upperHex 4 word,
      some (words.flatMap wordBytes)⟩
    byteSize := words.length * 2 + 4 }

end SoundEffect

end Chiptune
