/-!
# Packing

A data block that occurs as a slice of another block need not be written: it can
be an alias into the other one. Blocks are taken by length, shortest first, and
each looks for its place among the later ones, longest first.
-/

namespace Chiptune.Packing

/-- A slice of another sequence. -/
structure Place where
  /-- The number of the other sequence. -/
  base : Nat
  offset : Nat
deriving DecidableEq, Repr, Inhabited

variable {α : Type} [BEq α]

/-- The first offset at which `needle` occurs. -/
def firstOffset? (needle : List α) : List α → Option Nat
  | [] => if needle.isEmpty then some 0 else none
  | item :: rest =>
    if needle.isPrefixOf (item :: rest) then some 0
    else (firstOffset? needle rest).map (· + 1)

/-- The numbers of the sequences by length, and in their own order at equal length. -/
def byLength (sequences : List (List α)) : List Nat :=
  (List.range sequences.length).mergeSort fun i j =>
    (sequences.getD i []).length ≤ (sequences.getD j []).length

/-- The place of `needle` in the first of the candidates that holds it. -/
def find? (sequences : List (List α)) (needle : List α) (candidates : List Nat) :
    Option Place :=
  candidates.findSome? fun candidate =>
    (firstOffset? needle (sequences.getD candidate [])).map fun offset => ⟨candidate, offset⟩

/-- The place of every sequence among those behind it in the order. An empty sequence
has none. -/
def places (sequences : List (List α)) : List Nat → List (Nat × Option Place)
  | [] => []
  | key :: later =>
    let needle := sequences.getD key []
    let place := if needle.isEmpty then none else find? sequences needle later.reverse
    (key, place) :: places sequences later

/-- For every sequence the slice of another one that it equals, if it has one. -/
def pack (sequences : List (List α)) : List (Option Place) :=
  let found := places sequences (byLength sequences)
  (List.range sequences.length).map fun i => ((found.lookup i).getD none)

end Chiptune.Packing
