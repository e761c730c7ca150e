import Chiptune.Text.Numeral

/-!
# Directory entries

An entity becomes an entry of a directory table: a label, the line that defines
it, its size in bytes and, for most entities, a block of data.
-/

namespace Chiptune

/-- How the atoms of a data block are written. -/
inductive DataFormat where
  /-- Bytes, several to a line. -/
  | bytes
  /-- Words of two bytes, high byte first, several to a line. -/
  | words
  /-- One conductor command to a line. -/
  | statements
deriving DecidableEq, Repr, Inhabited

/-- The directive in front of the atoms. -/
def DataFormat.directive : DataFormat → String
  | bytes => ".byte"
  | words => ".dbyt"
  | statements => ""

/-- The data that the definition of an entity points at. -/
structure DataBlock where
  label : String
  format : DataFormat
  atoms : List String
  /-- The bytes themselves, if the block may be found inside another one. -/
  packable : Option (List Nat)
deriving DecidableEq, Repr, Inhabited

/-- The output of one entity. -/
structure Entry where
  label : String
  definition : String
  data : Option DataBlock
  byteSize : Nat
deriving DecidableEq, Repr, Inhabited

/-- The sum of sizes. -/
def totalSize (sizes : List Nat) : Nat := sizes.foldr (· + ·) 0

end Chiptune
