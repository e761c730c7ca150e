/-!
# Written durations

A duration is written as the denominator of a note value and a suffix that
lengthens it. The suffix `g` makes a grace note, whose number counts frames.
-/

namespace Chiptune

/-- The suffix of a duration number. -/
inductive Augment where
  | plain
  | dotted
  | doubleDotted
  | grace
deriving DecidableEq, Repr, Inhabited

namespace Augment

/-- The length in quarters of the written note value; a grace note takes none. -/
def quarters : Augment → Nat
  | plain => 4
  | dotted => 6
  | doubleDotted => 7
  | grace => 0

/-- The suffix as it is written. -/
def suffix : Augment → String
  | plain => ""
  | dotted => "."
  | doubleDotted => ".."
  | grace => "g"

/-- The word that names the suffix in a message, with the blank after it. -/
def adjective : Augment → String
  | dotted => "dotted "
  | doubleDotted => "double dotted "
  | _ => ""

end Augment

/-- A note value `1/denominator` with its suffix, or a number of grace frames. -/
structure Duration where
  denominator : Nat
  augment : Augment
deriving DecidableEq, Repr, Inhabited

end Chiptune
