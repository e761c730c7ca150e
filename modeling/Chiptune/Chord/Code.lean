import Chiptune.Fault
import Chiptune.Text.Numeral

/-!
# Chord codes

A chord is played as a fast arpeggio of a base note and two notes above it. Its
code holds the two distances in semitones, each a hexadecimal digit; a zero adds
no note.
-/

namespace Chiptune

/-- The distances of a chord's two upper notes from its base. -/
structure ChordCode where
  first : Fin 16
  second : Fin 16
deriving DecidableEq, Repr, Inhabited

namespace ChordCode

/-- The chord with the given distances modulo sixteen. -/
def ofNats (first second : Nat) : ChordCode := ⟨Fin.ofNat 16 first, Fin.ofNat 16 second⟩

/-- The base note alone. -/
def silent : ChordCode := ofNats 0 0

/-- The characters of the code. -/
def chars (code : ChordCode) : List Char :=
  [Text.upperHexDigit code.first, Text.upperHexDigit code.second]

/-- The code as two upper-case hexadecimal digits. -/
def text (code : ChordCode) : String := String.ofList code.chars

/-- The greater of the two distances. -/
def span (code : ChordCode) : Nat := max code.first code.second

/-- The chord whose base moves up an octave to become its highest note, named from
the new lowest note. Only a chord within an octave can be inverted. -/
def inverted? (code : ChordCode) : Option ChordCode :=
  let low := code.first.val
  let high := code.second.val
  if 12 ≤ low ∨ 12 ≤ high then none
  else if high = 0 then some (ofNats (12 - low) 0)
  else if low = 0 then some (ofNats (12 - high) (12 - high))
  else if low ≤ high then some (ofNats (high - low) (12 - low))
  else some (ofNats (12 - high) (low - high))

/-- The chord inverted `times` times. -/
def invert (code : ChordCode) : Nat → Except Fault ChordCode
  | 0 => .ok code
  | times + 1 =>
    match code.inverted? with
    | some next => next.invert times
    | none => .error (.wideChord code.text)

/-- The chord whose hexadecimal digits stand in a text; other characters are passed
over. -/
def ofDigits? (text : String) : Option ChordCode :=
  match text.toList.filterMap Text.hexValue? with
  | [first, second] => some (ofNats first second)
  | _ => none

/-- Invert a chord that is given as text. Without an inversion the text is kept. -/
def invertText (text : String) : Nat → Except Fault String
  | 0 => .ok text
  | times + 1 =>
    match ofDigits? text with
    | none => .error (.notTwoDigitChord text)
    | some code =>
      match code.inverted? with
      | none => .error (.wideChord text)
      | some next => (next.invert times).map ChordCode.text

end ChordCode

/-- A chord as it is played: upward, or downward from the written note. -/
structure Arpeggio where
  code : ChordCode
  downward : Bool
deriving DecidableEq, Repr, Inhabited

namespace Arpeggio

/-- The base note alone. -/
def silent : Arpeggio := ⟨.silent, false⟩

/-- The semitones by which a downward chord lowers its base. -/
def drop (arpeggio : Arpeggio) : Nat :=
  if arpeggio.downward then arpeggio.code.span else 0

end Arpeggio

end Chiptune
