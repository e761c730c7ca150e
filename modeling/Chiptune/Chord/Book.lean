import Chiptune.Chord.Code
import Chiptune.Text.Cut

/-!
# The book of chord names

Chord names are kept in layers. Every song and every pattern has a layer
of its own and sees the layers around it, so that a name added to an outer layer
is seen inside at once and a name added inside is never seen outside.
-/

namespace Chiptune

/-- The chords that every layer knows. -/
def builtinChords : List (String × ChordCode) :=
  [("OF", .ofNats 0 0), ("M", .ofNats 4 7), ("m", .ofNats 3 7), ("maj7", .ofNats 4 11),
    ("m7", .ofNats 3 10), ("dom7", .ofNats 4 10), ("dim", .ofNats 3 6),
    ("dim7", .ofNats 3 9), ("aug", .ofNats 4 8)]

/-- The names defined in one layer. -/
abbrev ChordLayer := List (String × ChordCode)

/-- All layers, each known by its number. -/
structure ChordBook where
  layers : List ChordLayer
deriving DecidableEq, Repr, Inhabited

/-- The layers that a context sees, its own first. -/
abbrev Lineage := List Nat

namespace ChordBook

/-- A book with the outermost layer only, which is empty. -/
def blank : ChordBook := ⟨[[]]⟩

/-- The lineage of the outermost layer. -/
def root : Lineage := [0]

/-- The names of one layer. -/
def layer (book : ChordBook) (index : Nat) : ChordLayer := book.layers.getD index []

/-- The chord that a name stands for: the nearest layer that defines it decides. -/
def lookup? (book : ChordBook) (lineage : Lineage) (name : String) : Option ChordCode :=
  match lineage.findSome? fun index => (book.layer index).lookup name with
  | some code => some code
  | none => builtinChords.lookup name

/-- Whether the context's own layer defines the name. -/
def definesOwn (book : ChordBook) (lineage : Lineage) (name : String) : Bool :=
  match lineage with
  | own :: _ => ((book.layer own).lookup name).isSome
  | [] => false

/-- Put a name into the context's own layer. -/
def record (book : ChordBook) (lineage : Lineage) (name : String) (code : ChordCode) :
    ChordBook :=
  match lineage with
  | own :: _ => ⟨book.layers.set own ((name, code) :: book.layer own)⟩
  | [] => book

/-- A new empty layer inside a lineage. -/
def nest (book : ChordBook) (lineage : Lineage) : Lineage × ChordBook :=
  (book.layers.length :: lineage, ⟨book.layers ++ [[]]⟩)

/-- The code written as one or two hexadecimal digits. -/
def literal? (name : String) : Option ChordCode :=
  match name.toList with
  | [c] => (Text.hexValue? c).map fun digit => .ofNats 0 digit
  | [c, d] =>
    match Text.hexValue? c, Text.hexValue? d with
    | some first, some second => some (.ofNats first second)
    | _, _ => none
  | _ => none

/-- The inversion behind a slash. -/
def inversion? (written : String) : Option Nat :=
  (Text.nat32? written).filter fun n => n == 1 || n == 2

/-- The name and the inversion of a chord's text. -/
def splitInversion (text : String) : Except Fault (String × Nat) :=
  match Text.cut? '/' text with
  | none => .ok (text, 0)
  | some (name, written) =>
    match inversion? written with
    | some times => .ok (name, times)
    | none => .error (.badInversion written)

/-- The code of a chord by name or by digits. -/
def code (book : ChordBook) (lineage : Lineage) (name : String) : Except Fault ChordCode :=
  match literal? name with
  | some code => .ok code
  | none =>
    match book.lookup? lineage name with
    | some code => .ok code
    | none => .error (.unknownChord name)

/-- The chord that a text such as `M`, `-47` or `m/1` denotes; an empty text denotes
none. -/
def interpret (book : ChordBook) (lineage : Lineage) (text : String) :
    Except Fault (Option Arpeggio) := do
  if text.isEmpty then return none
  let (downward, text) :=
    match Text.after? "-" text with
    | some rest => (true, rest)
    | none => (false, text)
  let (name, times) ← splitInversion text
  let base ← book.code lineage name
  let inverted ← base.invert times
  return some ⟨inverted, downward⟩

/-- Define a chord name in the context's own layer. -/
def define (book : ChordBook) (lineage : Lineage) (name definition : String) :
    Except Fault ChordBook := do
  if (Text.after? "-" definition).isSome then throw (.downwardChordDefinition name)
  if !(name.toList.head?.any Text.isLetter) then throw (.chordNameStart name)
  if name = "P1" || name = "P2" then throw (.reservedChordName name)
  if book.definesOwn lineage name then throw (.chordAlreadyDefined name)
  match ← book.interpret lineage definition with
  | some arpeggio => return book.record lineage name arpeggio.code
  | none => throw (.emptyChordDefinition name)

end ChordBook

end Chiptune
