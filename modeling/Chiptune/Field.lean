import Chiptune.Fault

/-!
# Fields that are set once

A property of an entity may be given once. The place where it was given is kept
for the message about a second time.
-/

namespace Chiptune

/-- A property that is set at most once. -/
structure Field (α : Type) where
  given : Option (α × Location)
deriving DecidableEq, Repr

namespace Field

variable {α : Type}

/-- A property that is not set. -/
def unset : Field α := ⟨none⟩

instance : Inhabited (Field α) := ⟨unset⟩

/-- The value of the property. -/
def value? (field : Field α) : Option α := field.given.map (·.1)

/-- Whether the property is set. -/
def isSet (field : Field α) : Bool := field.given.isSome

/-- Set the property `what` of `owner`; a second time is a fault. -/
def set (field : Field α) (value : α) (place : Location) (what owner : String) :
    Except Fault (Field α) :=
  match field.given with
  | some (_, previous) => .error (.alreadySet what owner previous place)
  | none => .ok ⟨some (value, place)⟩

end Field

end Chiptune
