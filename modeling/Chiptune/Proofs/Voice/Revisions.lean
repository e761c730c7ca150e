import Chiptune.Proofs.Step
import Chiptune.Voice.Instrument
import Chiptune.Voice.SoundEffect

/-!
# Properties of voices

A voice is a sound effect or an instrument. It is revised by one property at a time, which is
checked when it is given, and it keeps its name.
-/

namespace Chiptune

open Step

/-- A property of a sound effect is given and accepted. -/
inductive SoundEffect.Revision (effect later : SoundEffect) : Prop where
  | volume {words : List String} {place : Location}
      (hset : effect.setVolume words place = .ok later)
  | timbre {words : List String} {place : Location}
      (hset : effect.setTimbre words place = .ok later)
  | pitch {words : List String} {place : Location}
      (hset : effect.setPitch words place = .ok later)
  | rate {rate : Int} {place : Location} (hset : effect.setRate rate place = .ok later)

/-- A property of an instrument is given and accepted. -/
inductive Instrument.Revision (instrument later : Instrument) : Prop where
  | volume {words : List String} {place : Location}
      (hset : instrument.setVolume words place = .ok later)
  | timbre {words : List String} {place : Location}
      (hset : instrument.setTimbre words place = .ok later)
  | pitch {words : List String} {place : Location}
      (hset : instrument.setPitch words place = .ok later)
  | decay {rate : Int} {place : Location} (hset : instrument.setDecay rate place = .ok later)
  | detached (hset : instrument.setDetached = later)

theorem SoundEffect.Revision.name {effect later : SoundEffect} (h : effect.Revision later) :
    later.name = effect.name := by
  cases h with
  | volume hset | timbre hset | pitch hset =>
      obtain ⟨_, -, rfl⟩ := map_eq_ok hset
      rfl
  | rate hset =>
      unfold setRate at hset
      split at hset
      · obtain ⟨_, -, rfl⟩ := map_eq_ok hset
        rfl
      · cases hset

theorem Instrument.Revision.name {instrument later : Instrument} (h : instrument.Revision later) :
    later.name = instrument.name := by
  cases h with
  | volume hset | timbre hset | pitch hset =>
      obtain ⟨_, -, rfl⟩ := map_eq_ok hset
      rfl
  | decay hset =>
      unfold setDecay at hset
      split at hset
      · obtain ⟨_, -, rfl⟩ := map_eq_ok hset
        rfl
      · cases hset
  | detached hset => exact hset ▸ rfl

end Chiptune
