import Chiptune.Text.Numeral

/-!
# Places in the source

A place is a line of a file. Messages cite a place from another one and leave out
the file when both lie in the same.
-/

namespace Chiptune

/-- A line of a source file, counted from one. -/
structure Location where
  file : String
  line : Nat
deriving DecidableEq, Repr, Inhabited

namespace Location

/-- The place as `file:line`. -/
def text (place : Location) : String :=
  place.file ++ ":" ++ Text.natText place.line

/-- The place as a message written at `reader` names it. -/
def citedFrom (place reader : Location) : String :=
  if place.file = reader.file then "line " ++ Text.natText place.line
  else "line " ++ Text.natText place.line ++ " of " ++ place.file

end Location

end Chiptune
