import Chiptune.Proofs.Frame
import Chiptune.Proofs.Lockstep

/-!
# Voices in a frame

Fields, envelopes, instruments and sound effects are set inside a frame as outside.
-/

namespace Chiptune.Frame

variable (frame : Frame) {lax : Prop}

/-- A field in the frame. -/
def field {α : Type} (field : Field α) : Field α :=
  ⟨field.given.map fun (value, place) => (value, frame.place place)⟩

theorem set_field
    {α : Type} (field : Field α) (value : α) (place : Location) (what owner : String) :
    Agree lax (· = frame.field ·) ((frame.field field).set value (frame.place place) what owner)
      (field.set value place what owner) := by
  rcases field with ⟨_ | ⟨given, previous⟩⟩
  · exact .ok rfl
  · exact .fault rfl

/-- An envelope in the frame. -/
def envelope (envelope : Envelope) : Envelope :=
  ⟨frame.field envelope.volume, frame.field envelope.timbre, frame.field envelope.pitch⟩

/-- An instrument in the frame. -/
def instrument (instrument : Instrument) : Instrument :=
  { instrument with
    place := frame.place instrument.place
    envelope := frame.envelope instrument.envelope
    decay := frame.field instrument.decay }

/-- A sound effect in the frame. -/
def effect (effect : SoundEffect) : SoundEffect :=
  { effect with
    place := frame.place effect.place
    envelope := frame.envelope effect.envelope
    rate := frame.field effect.rate
    pitch := frame.pitch effect.pitch }

/-- A drum in the frame. -/
def drum (drum : Drum) : Drum := { drum with place := frame.place drum.place }

section Voices

variable (envelope : Envelope) (instrument : Instrument) (effect : SoundEffect)
  (words : List String) (place : Location) (owner : String)

theorem setVolume_envelope :
    Agree lax (· = frame.envelope ·)
      ((frame.envelope envelope).setVolume words (frame.place place) owner)
      (envelope.setVolume words place owner) := by
  simp only [Envelope.setVolume]
  cases Looped.read "volume" Envelope.readVolume words with
  | error fault => exact .fault rfl
  | ok looped =>
      apply (frame.set_field envelope.volume looped.steps place "volume" owner).bind
      rintro _ volume rfl
      exact .ok rfl

theorem setTimbre_envelope (most : Nat) :
    Agree lax (· = frame.envelope ·)
      ((frame.envelope envelope).setTimbre most words (frame.place place) owner)
      (envelope.setTimbre most words place owner) := by
  simp only [Envelope.setTimbre]
  cases Looped.read "timbre" (Envelope.readTimbre most) words with
  | error fault => exact .fault rfl
  | ok looped =>
      apply (frame.set_field envelope.timbre looped place "timbre" owner).bind
      rintro _ timbre rfl
      exact .ok rfl

theorem setPitch_envelope (read : String → Except Fault Int) :
    Agree lax (· = frame.envelope ·)
      ((frame.envelope envelope).setPitch read words (frame.place place) owner)
      (envelope.setPitch read words place owner) := by
  simp only [Envelope.setPitch]
  cases Looped.read "pitch" read words with
  | error fault => exact .fault rfl
  | ok looped =>
      apply (frame.set_field envelope.pitch looped place "pitch" owner).bind
      rintro _ pitch rfl
      exact .ok rfl

theorem setVolume_instrument :
    Agree lax (· = frame.instrument ·)
      ((frame.instrument instrument).setVolume words (frame.place place))
      (instrument.setVolume words place) := by
  apply (frame.setVolume_envelope instrument.envelope words place instrument.name).map
  rintro _ envelope rfl
  rfl

theorem setTimbre_instrument :
    Agree lax (· = frame.instrument ·)
      ((frame.instrument instrument).setTimbre words (frame.place place))
      (instrument.setTimbre words place) := by
  apply (frame.setTimbre_envelope instrument.envelope words place instrument.name _).map
  rintro _ envelope rfl
  rfl

theorem setPitch_instrument :
    Agree lax (· = frame.instrument ·)
      ((frame.instrument instrument).setPitch words (frame.place place))
      (instrument.setPitch words place) := by
  apply (frame.setPitch_envelope instrument.envelope words place instrument.name _).map
  rintro _ envelope rfl
  rfl

theorem setDecay_instrument (rate : Int) :
    Agree lax (· = frame.instrument ·)
      ((frame.instrument instrument).setDecay rate (frame.place place))
      (instrument.setDecay rate place) := by
  unfold Instrument.setDecay
  split
  · apply (frame.set_field instrument.decay rate.toNat place "decay" instrument.name).map
    rintro _ decay rfl
    rfl
  · exact .fault rfl

theorem setVolume_effect :
    Agree lax (· = frame.effect ·)
      ((frame.effect effect).setVolume words (frame.place place))
      (effect.setVolume words place) := by
  apply (frame.setVolume_envelope effect.envelope words place effect.name).map
  rintro _ envelope rfl
  rfl

theorem setTimbre_effect :
    Agree lax (· = frame.effect ·)
      ((frame.effect effect).setTimbre words (frame.place place))
      (effect.setTimbre words place) := by
  apply (frame.setTimbre_envelope effect.envelope words place effect.name _).map
  rintro _ envelope rfl
  rfl

theorem readPitch_pitch (pitch : PitchState) :
    SoundEffect.readPitch (frame.pitch pitch) = SoundEffect.readPitch pitch := by
  funext word
  have habsolute : ((frame.pitch pitch).readAbsolute word).map (·.1) =
      (pitch.readAbsolute word).map (·.1) := by
    rw [frame.readAbsolute_pitch]
    cases pitch.readAbsolute word <;> rfl
  simp only [SoundEffect.readPitch, habsolute]
  rfl

theorem setPitch_effect :
    Agree lax (· = frame.effect ·)
      ((frame.effect effect).setPitch words (frame.place place))
      (effect.setPitch words place) := by
  have hread : SoundEffect.readPitch (frame.effect effect).pitch =
      SoundEffect.readPitch effect.pitch := frame.readPitch_pitch effect.pitch
  unfold SoundEffect.setPitch
  rw [hread]
  apply (frame.setPitch_envelope effect.envelope words place effect.name _).map
  rintro _ envelope rfl
  rfl

theorem setRate_effect (rate : Int) :
    Agree lax (· = frame.effect ·)
      ((frame.effect effect).setRate rate (frame.place place))
      (effect.setRate rate place) := by
  unfold SoundEffect.setRate
  split
  · apply (frame.set_field effect.rate rate.toNat place "rate" effect.name).map
    rintro _ rate rfl
    rfl
  · exact .fault rfl

end Voices

end Chiptune.Frame
