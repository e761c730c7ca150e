import Chiptune.Source.Location
import Chiptune.Text.Blank
import Chiptune.Text.Cut

/-!
# Statements

A statement is a source line that has words before its comment. A comment begins
at `//` anywhere, or at a `#` that starts the line or follows an ASCII blank; a
`#` elsewhere is a sharp sign.
-/

namespace Chiptune

/-- The words of one line, with the line's place. -/
structure Statement where
  place : Location
  words : List String
deriving DecidableEq, Repr, Inhabited

namespace Statement

/-- The blanks after which a `#` starts a comment. -/
def isAsciiBlank (c : Char) : Bool :=
  c == ' ' || c == '\t' || c == '\n' || c == '\x0c' || c == '\r'

/-- The part of a line before its comment; `fresh` says whether a `#` here would
start one. -/
def uncommentedFrom (fresh : Bool) : List Char → List Char
  | [] => []
  | '#' :: cs => if fresh then [] else '#' :: uncommentedFrom false cs
  | '/' :: '/' :: _ => []
  | c :: cs => c :: uncommentedFrom (isAsciiBlank c) cs

/-- The part of a line before its comment. -/
def uncommented (line : List Char) : List Char := uncommentedFrom true line

/-- The words of a line. -/
def lineWords (line : List Char) : List String :=
  (Text.runs (uncommented line)).map String.ofList

/-- The statements of numbered lines; lines without words are skipped. -/
def ofLines (file : String) : Nat → List (List Char) → List Statement
  | _, [] => []
  | number, line :: rest =>
    let later := ofLines file (number + 1) rest
    match lineWords line with
    | [] => later
    | ws => ⟨⟨file, number⟩, ws⟩ :: later

/-- The statements of a source text, in order, each at its line. -/
def ofSource (file source : String) : List Statement :=
  ofLines file 1 (source.toList.splitOn '\n')

end Statement

end Chiptune
