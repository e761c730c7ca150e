/-!
# Accidentals

The spellings of flats and sharps, and the semitones each of them adds.
-/

namespace Chiptune

/-- A spelling of an accidental; `natural` is the empty one. -/
inductive Accidental where
  | eses | isis | bb | minusMinus | es | ss | is | hashHash | plusPlus
  | b | minus | s | hash | plus | x | natural
deriving DecidableEq, Repr, Inhabited

namespace Accidental

/-- Every spelling, a longer one before its beginnings and the empty one last. -/
def all : List Accidental :=
  [eses, isis, bb, minusMinus, es, ss, is, hashHash, plusPlus,
    b, minus, s, hash, plus, x, natural]

/-- The characters of the spelling. -/
def spelling : Accidental → String
  | eses => "eses"
  | isis => "isis"
  | bb => "bb"
  | minusMinus => "--"
  | es => "es"
  | ss => "ss"
  | is => "is"
  | hashHash => "##"
  | plusPlus => "++"
  | b => "b"
  | minus => "-"
  | s => "s"
  | hash => "#"
  | plus => "+"
  | x => "x"
  | natural => ""

/-- The semitones the accidental adds to its note. -/
def semitones : Accidental → Int
  | natural => 0
  | b | minus | es => -1
  | bb | minusMinus | eses => -2
  | hash | plus | s | is => 1
  | hashHash | plusPlus | ss | x | isis => 2

/-- The accidental with the given spelling. -/
def ofSpelling? (text : String) : Option Accidental :=
  all.find? fun a => a.spelling = text

end Accidental

end Chiptune
