/-!
# Note lengths

The engine knows eight note lengths, each a fixed number of rows. A row count is
split into them from the longest down.
-/

namespace Chiptune

/-- A note length of the engine. -/
inductive NoteLength where
  | whole
  | dottedHalf
  | half
  | dottedQuarter
  | quarter
  | dottedEighth
  | eighth
  | row
deriving DecidableEq, Repr, Inhabited

namespace NoteLength

/-- Every note length, longest first. -/
def all : List NoteLength :=
  [whole, dottedHalf, half, dottedQuarter, quarter, dottedEighth, eighth, row]

/-- The rows of a note length. -/
def rows : NoteLength → Nat
  | whole => 16
  | dottedHalf => 12
  | half => 8
  | dottedQuarter => 6
  | quarter => 4
  | dottedEighth => 3
  | eighth => 2
  | row => 1

/-- The operand that names the length; one row is named by zero. -/
def operand : NoteLength → String
  | whole => "D_1"
  | dottedHalf => "D_D2"
  | half => "D_2"
  | dottedQuarter => "D_D4"
  | quarter => "D_4"
  | dottedEighth => "D_D8"
  | eighth => "D_8"
  | row => "0"

/-- What stands behind a note in a pattern; one row is left unsaid. -/
def suffix (length : NoteLength) : String :=
  if length = row then "" else "|" ++ length.operand

/-- The note length of exactly `n` rows. -/
def ofRows? (n : Nat) : Option NoteLength := all.find? fun length => length.rows = n

/-- The longest note length within `n` rows. -/
def longestWithin (n : Nat) : NoteLength :=
  (all.find? fun length => length.rows ≤ n).getD row

theorem rows_pos (length : NoteLength) : 0 < length.rows := by
  cases length <;> decide

/-- A row count as note lengths, longest first. -/
def decompose (n : Nat) : List NoteLength :=
  if n = 0 then []
  else
    let length := longestWithin n
    length :: decompose (n - length.rows)
termination_by n
decreasing_by
  have hpos := rows_pos (longestWithin n)
  omega

end NoteLength

end Chiptune
