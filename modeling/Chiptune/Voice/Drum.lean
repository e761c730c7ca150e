import Chiptune.Note.DrumWord
import Chiptune.Voice.SoundEffect

/-!
# Drums

A drum starts one or two sound effects at once.
-/

namespace Chiptune

/-- A drum, with the names of its sound effects as they are written. -/
structure Drum where
  name : String
  place : Location
  effects : List String
deriving DecidableEq, Repr, Inhabited

namespace Drum

instance : Entity Drum := ⟨Drum.name, Drum.place⟩

/-- Define a drum; `written` is its name before it is qualified. -/
def define (name written : String) (effects : List String) (place : Location) :
    Except Fault Drum :=
  if !DrumWord.isName written then .error (.badDrumName written)
  else if effects.length = 1 ∨ effects.length = 2 then .ok ⟨name, place, effects⟩
  else .error (.drumEffectCount written effects.length)

/-- The label of the drum with the given name. -/
def labelOf (name : String) : String := "DR_" ++ Name.label name

/-- The label of a sound effect of the drum. -/
def effectLabel (drum : Drum) (effects : Registry SoundEffect) (name : String) :
    Except Fault String :=
  match effects.resolve? name drum.name with
  | some effect => .ok (SoundEffect.labelOf effect.name)
  | none => .error (.drumUnknownEffect drum.name name)

/-- The directory entry of the drum. -/
def entry (drum : Drum) (effects : Registry SoundEffect) : Except Fault Entry := do
  let labels ← drum.effects.mapM (drum.effectLabel effects)
  let label := labelOf drum.name
  return ⟨label, "drumdef " ++ String.intercalate ", " (label :: labels), none, 2⟩

end Drum

end Chiptune
