import Chiptune.Reader.Argument
import Chiptune.Reader.Basic

/-!
# Statements about voices and patterns

Statements that define sound effects, instruments, drums and patterns, and those
that give the properties of the one that is open.
-/

namespace Chiptune.Reader

/-- The fault of a statement that stands outside what it configures. -/
def outside (keyword allowed : String) : Step Reader Unit := do
  let reader ← get
  throw (.outsideObject keyword allowed reader.scope.describe)

/-- Define a sound effect and open it. -/
def defineEffect (arguments : List String) : Step Reader Unit :=
  Step.advance fun reader =>
    match arguments with
    | [name, "on", channel] => do
      let channel ← Channel.ofName channel
      let effect := SoundEffect.blank (reader.qualified name) reader.here channel
        reader.parentPitch
      let (index, sfx) ← reader.score.sfx.insert "sfx" effect
      let next := { reader with score := { reader.score with sfx := sfx } }
      return ((), next.openObject (.sfx index))
    | _ => .error (.usage "sfx NAME on pulse|triangle|noise")

/-- Define an instrument and open it. -/
def defineInstrument (arguments : List String) : Step Reader Unit :=
  Step.advance fun reader => do
    let name ← Argument.single "instrument" arguments "NAME"
    let instrument := Instrument.blank (reader.qualified name) reader.here
    let (index, instruments) ← reader.score.instruments.insert "instrument" instrument
    let next := { reader with score := { reader.score with instruments := instruments } }
    return ((), next.openObject (.instrument index))

/-- Define a drum. -/
def defineDrum (arguments : List String) : Step Reader Unit :=
  Step.advance fun reader => do
    Argument.count "drum" arguments 2 3 "NAME SFX [SFX]"
    match arguments with
    | [] => throw (.usage "drum NAME SFX [SFX]")
    | name :: effects =>
      let drum ← Drum.define (reader.qualified name) name effects reader.here
      let (_, drums) ← reader.score.drums.insert "drum" drum
      return ((), { reader with score := { reader.score with drums := drums } })

/-- Define a pattern and open it. -/
def definePattern (arguments : List String) : Step Reader Unit :=
  Step.advance fun reader => do
    let (name, options) ←
      Argument.named false "pattern NAME [on TRACK] [with INSTRUMENT]" arguments
    let (pitch, chords) := reader.parentPitch.child reader.chords
    let pattern := Pattern.blank (reader.qualified name) reader.here options.track
      options.instrument pitch reader.parentMeter
    let (index, patterns) ← reader.score.patterns.insert "pattern" pattern
    let next :=
      { reader with score := { reader.score with patterns := patterns }, chords := chords }
    return ((), next.openObject (.pattern index))

/-- Let playback of the pattern go on into the next one. -/
def setFallthrough (object : Option OpenObject) (arguments : List String) :
    Step Reader Unit := do
  Step.decide (Argument.count "fallthrough" arguments 0 0 "")
  match object with
  | some (.pattern index) =>
    onPattern index (modify fun pattern => { pattern with fallthrough := true })
  | _ => throw .fallthroughOutsidePattern

/-- Give the rate of the open sound effect. -/
def setRate (object : Option OpenObject) (arguments : List String) : Step Reader Unit := do
  let word ← Step.decide (Argument.single "rate" arguments "FRAMES")
  let rate ← Step.decide (Argument.number "rate" word)
  let reader ← get
  match object with
  | some (.sfx index) => changeEffect index fun effect => effect.setRate rate reader.here
  | _ => outside "rate" "a sfx"

/-- Give the decay of the open instrument. -/
def setDecay (object : Option OpenObject) (arguments : List String) : Step Reader Unit := do
  let word ← Step.decide (Argument.single "decay" arguments "RATE")
  let rate ← Step.decide (Argument.number "decay" word)
  let reader ← get
  match object with
  | some (.instrument index) =>
    changeInstrument index fun instrument => instrument.setDecay rate reader.here
  | _ => outside "decay" "an instrument"

/-- Let the notes of the open instrument be cut early. -/
def setDetached (object : Option OpenObject) (arguments : List String) : Step Reader Unit := do
  Step.decide (Argument.count "detached" arguments 0 0 "")
  match object with
  | some (.instrument index) =>
    changeInstrument index fun instrument => .ok instrument.setDetached
  | _ => outside "detached" "an instrument"

/-- Give a list of the envelope of the open instrument or sound effect. -/
def setEnvelope (keyword : String) (object : Option OpenObject)
    (changeE : SoundEffect → Location → Except Fault SoundEffect)
    (changeI : Instrument → Location → Except Fault Instrument) : Step Reader Unit := do
  let reader ← get
  match object with
  | some (.sfx index) => changeEffect index fun effect => changeE effect reader.here
  | some (.instrument index) =>
    changeInstrument index fun instrument => changeI instrument reader.here
  | _ => outside keyword "an instrument or sfx"

/-- Give the volumes of the open instrument or sound effect. -/
def setVolume (object : Option OpenObject) (arguments : List String) : Step Reader Unit :=
  setEnvelope "volume" object (fun effect place => effect.setVolume arguments place)
    (fun instrument place => instrument.setVolume arguments place)

/-- Give the timbres of the open instrument or sound effect. -/
def setTimbre (object : Option OpenObject) (arguments : List String) : Step Reader Unit :=
  setEnvelope "timbre" object (fun effect place => effect.setTimbre arguments place)
    (fun instrument place => instrument.setTimbre arguments place)

/-- Give the pitches of the open instrument or sound effect. -/
def setPitches (object : Option OpenObject) (arguments : List String) : Step Reader Unit :=
  setEnvelope "pitch" object (fun effect place => effect.setPitch arguments place)
    (fun instrument place => instrument.setPitch arguments place)

end Chiptune.Reader
