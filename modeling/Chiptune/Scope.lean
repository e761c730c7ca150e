import Chiptune.Fault

/-!
# Scopes

Statements apply to the song that is open and to the object that is open: a sound
effect, an instrument or a pattern. Each is known by its number in its registry.
-/

namespace Chiptune

/-- The object that is being defined. -/
inductive OpenObject where
  | sfx (index : Nat)
  | instrument (index : Nat)
  | pattern (index : Nat)
deriving DecidableEq, Repr, Inhabited

/-- The word for the kind of the object. -/
def OpenObject.kind : OpenObject → String
  | sfx _ => "sfx"
  | instrument _ => "instrument"
  | pattern _ => "pattern"

/-- The song and the object that are open. -/
structure Scope where
  song : Option Nat
  object : Option OpenObject
deriving DecidableEq, Repr, Inhabited

namespace Scope

/-- Outside every song and object. -/
def topLevel : Scope := ⟨none, none⟩

/-- Open an object in place of the one that was open. -/
def openObject (scope : Scope) (object : OpenObject) : Scope :=
  { scope with object := some object }

/-- Close the object, if one is open. -/
def closeObject (scope : Scope) : Scope := { scope with object := none }

/-- Open a song, which closes the object. Songs do not nest. -/
def openSong (scope : Scope) (index : Nat) : Except Fault Scope :=
  match scope.song with
  | some _ => .error .songAlreadyOpen
  | none => .ok ⟨some index, none⟩

/-- Close the song and the object in it. -/
def closeSong (scope : Scope) : Except Fault Scope :=
  match scope.song with
  | some _ => .ok topLevel
  | none => .error .noSongOpen

/-- What a statement is inside of, in messages. -/
def describe (scope : Scope) : String :=
  match scope.object, scope.song with
  | some object, _ => object.kind
  | none, some _ => "song"
  | none, none => "top level"

end Scope

end Chiptune
