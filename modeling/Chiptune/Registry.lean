import Chiptune.Fault
import Chiptune.Name

/-!
# Registries

A registry holds the entities of one kind in the order of their definition. Names
are unique in it, and are resolved from inside a scope outward. An entity is replaced
only by one of the same name, so the names and their numbers stay as they are and need
no index beside the list.
-/

namespace Chiptune

/-- An entity with a qualified name and the place of its definition. -/
class Entity (α : Type) where
  name : α → String
  place : α → Location

/-- The entities of one kind, in order of definition. -/
structure Registry (α : Type) where
  entries : List α
deriving DecidableEq, Repr

namespace Registry

variable {α : Type}

/-- No entities. -/
def empty : Registry α := ⟨[]⟩

instance : Inhabited (Registry α) := ⟨empty⟩

/-- The number of entities. -/
def size (registry : Registry α) : Nat := registry.entries.length

/-- The entity with number `index`. -/
def at? (registry : Registry α) (index : Nat) : Option α := registry.entries[index]?

/-- Replace the entity with number `index`. -/
def put (registry : Registry α) (index : Nat) (entity : α) : Registry α :=
  ⟨registry.entries.set index entity⟩

variable [Entity α]

/-- The entity with the given qualified name. -/
def get? (registry : Registry α) (name : String) : Option α :=
  registry.entries.find? fun entity => Entity.name entity == name

/-- Whether an entity has the given qualified name. -/
def contains (registry : Registry α) (name : String) : Bool := (registry.get? name).isSome

/-- Add an entity and give its number; a taken name is a fault. The text `kind` names
the entity in the message. -/
def insert (registry : Registry α) (kind : String) (entity : α) :
    Except Fault (Nat × Registry α) :=
  match registry.get? (Entity.name entity) with
  | some previous =>
    .error (.alreadyDefined kind (Entity.name entity) (Entity.place previous)
      (Entity.place entity))
  | none => .ok (registry.size, ⟨registry.entries ++ [entity]⟩)

/-- The entity that `name` stands for inside `scope`. -/
def resolve? (registry : Registry α) (name scope : String) : Option α :=
  (Name.candidates name scope).findSome? registry.get?

end Registry

end Chiptune
