import Chiptune.Note.Word

/-!
# Drum words

A drum word is the name of a drum, or one of the letters for a rest, a wait and a
length, with a duration number and a suffix behind it. A name begins and ends
with a letter or an underscore, so that a number can follow it.
-/

namespace Chiptune

/-- What a drum word names. -/
inductive DrumStroke where
  | rest
  | wait
  | length
  | hit (name : String)
deriving DecidableEq, Repr, Inhabited

/-- The parts of a drum word. -/
structure DrumWord where
  stroke : DrumStroke
  number : Option Nat
  augment : Augment
deriving DecidableEq, Repr, Inhabited

namespace DrumWord

/-- Characters at the ends of a drum's name. -/
def isNameEdge (c : Char) : Bool := Text.isLetter c || c == '_'

/-- Characters inside a drum's name. -/
def isNameChar (c : Char) : Bool := Text.isAlphanumeric c || c == '_'

/-- Whether the characters name a drum: at least two, letters, digits and
underscores, with no digit at either end. -/
def isNameChars (cs : List Char) : Bool :=
  2 ≤ cs.length && cs.head?.any isNameEdge && cs.getLast?.any isNameEdge && cs.all isNameChar

/-- Whether the text can name a drum. -/
def isName (name : String) : Bool := isNameChars name.toList

/-- What the characters before the duration name. -/
def stroke? (cs : List Char) : Option DrumStroke :=
  if cs = ['r'] then some .rest
  else if cs = ['w'] then some .wait
  else if cs = ['l'] then some .length
  else if isNameChars cs then some (.hit (String.ofList cs))
  else none

/-- Scan the word with its first `size` characters as the name. -/
def scanWith? (cs : List Char) (size : Nat) : Option DrumWord :=
  match stroke? (cs.take size) with
  | none => none
  | some stroke =>
    let (number, rest) := NoteWord.takeNumber (cs.drop size)
    let (augment, rest) := NoteWord.takeAugment rest
    if rest.isEmpty then some ⟨stroke, number, augment⟩ else none

/-- Scan a drum word; the longest name that leaves a duration wins. -/
def scanChars? (cs : List Char) : Option DrumWord :=
  (List.range (cs.takeWhile isNameChar).length).reverse.findSome? fun n =>
    scanWith? cs (n + 1)

/-- Scan a drum word. -/
def scan? (word : String) : Option DrumWord := scanChars? word.toList

end DrumWord

namespace DrumStroke

/-- The characters of the stroke before its duration. -/
def text : DrumStroke → String
  | rest => "r"
  | wait => "w"
  | length => "l"
  | hit name => name

end DrumStroke

end Chiptune
