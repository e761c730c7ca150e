/-!
# Wrapped lines

Atoms are written with commas between them on as few lines as fit, each behind the
same opening. A line holds at most 79 bytes unless one atom alone is longer.
-/

namespace Chiptune.Output

/-- The bytes of the longest line. -/
def lineBytes : Nat := 79

/-- Fill lines with atoms. The line being filled is given last atom first, with the
bytes its atoms and commas take. -/
def fill (room : Nat) : List String → Nat → List String → List (List String)
  | line, _, [] => if line.isEmpty then [] else [line.reverse]
  | line, used, atom :: atoms =>
    if !line.isEmpty && room < atom.utf8ByteSize + used then
      line.reverse :: fill room [atom] (atom.utf8ByteSize + 1) atoms
    else fill room (atom :: line) (used + atom.utf8ByteSize + 1) atoms

/-- The lines that hold the atoms, each behind `opening`. -/
def wrap (opening : String) (atoms : List String) : List String :=
  (fill (lineBytes - opening.utf8ByteSize) [] 0 atoms).map fun line =>
    opening ++ String.intercalate "," line

end Chiptune.Output
