import Chiptune.Pattern.Tied

/-!
# Transpose runs

A note code covers two octaves above the transposition in force. The pitched notes
of a pattern are split into runs that each fit, and a run begins only where the
one before cannot take the next note.
-/

namespace Chiptune

/-- Notes under one transposition: the item where it takes effect and its lowest
pitch. -/
structure TransposeRun where
  start : Nat
  low : Int
deriving DecidableEq, Repr, Inhabited

namespace TransposeRun

/-- The widest interval within a run, in semitones. -/
def widest : Int := 24

/-- The runs of the items from number `index` on; `current` is the run so far with
its highest pitch. -/
def splitFrom : Nat → Option (TransposeRun × Int) → List TiedItem → List TransposeRun
  | _, none, [] => []
  | _, some (run, _), [] => [run]
  | index, current, item :: items =>
    match item.pitch?, current with
    | none, _ => splitFrom (index + 1) current items
    | some pitch, none => splitFrom (index + 1) (some (⟨0, pitch⟩, pitch)) items
    | some pitch, some (run, high) =>
      let newLow := min run.low pitch
      let newHigh := max high pitch
      if widest < newHigh - newLow then
        run :: splitFrom (index + 1) (some (⟨index, pitch⟩, pitch)) items
      else splitFrom (index + 1) (some (⟨run.start, newLow⟩, newHigh)) items

/-- The runs of all items; the first takes effect at the start. -/
def split (items : List TiedItem) : List TransposeRun := splitFrom 0 none items

end TransposeRun

/-- The lowest pitch of a pattern's first run. -/
def Pattern.baseTranspose (pattern : Pattern) : Option Int :=
  (TransposeRun.split pattern.tied).head?.map (·.low)

end Chiptune
