import Chiptune.Assembly
import Chiptune.Periods

/-!
# Listings

The listing is the main output: the assembled music as assembler text, a period
table, or both.
-/

namespace Chiptune.Output

/-- What surrounds the music in a listing. -/
structure Options where
  segment : String
  /-- The include file of the engine. -/
  engineInclude : String
  /-- The name of the source in the listing. -/
  sourceName : String
  /-- The semitones of the period table; zero for none. -/
  periods : Nat
  region : Region
  /-- The frequency of the tuning tone. -/
  tuning : Float
deriving Inhabited

/-- The options unless others are given. -/
def Options.usual : Options :=
  ⟨"RODATA", "pentlyseq.inc", "standard input", 0, .ntsc, 440.0⟩

/-- The first line of every output. -/
def header : String := "; Generated using Pently music assembler"

/-- The lines of a data block that is written. -/
def blockLines (block : DataBlock) : List String :=
  match block.format with
  | .statements => block.atoms
  | format => wrap (format.directive ++ " ") block.atoms

/-- The lines of a data block: its data, or its place in another block. -/
def dataLines (assembly : Assembly) (block : DataBlock) : List String :=
  match assembly.alias? block.label with
  | some found => [s!"{block.label} = {found.base} + {Text.natText found.offset}"]
  | none => (block.label ++ ":") :: blockLines block

/-- The lines of a table: a heading, the definitions, the data. -/
def tableLines (assembly : Assembly) (table : DirectoryTable) : List String :=
  let count := table.entries.length
  let plural := if count = 1 then "entry" else "entries"
  let heading :=
    s!"{table.directory.label}:  ; {Text.natText count} {plural}, " ++
      s!"{Text.natText table.byteSize} bytes"
  heading :: table.entries.map (·.definition) ++
    (table.entries.filterMap (·.data)).flatMap (dataLines assembly)

/-- The lines on the sizes of a table and its entries. -/
def sizeLines (table : DirectoryTable) : List String :=
  s!"; {table.directory.label}: {Text.natText table.byteSize} bytes" ::
    table.entries.map fun entry => s!";   {entry.label}: {Text.natText entry.byteSize} bytes"

/-- The names that a game imports. -/
def exportedNames (assembly : Assembly) : List String :=
  assembly.tables.flatMap fun table =>
    if table.directory.exportsNames then table.entries.map (·.label) else []

/-- The lines of the music. -/
def musicLines (assembly : Assembly) (options : Options) : List String :=
  [s!"; Music from {options.sourceName}",
    s!".include \"{options.engineInclude}\"",
    s!".segment \"{options.segment}\"",
    s!"NUM_SONGS={Text.natText assembly.score.songs.size}",
    s!"NUM_SOUNDS={Text.natText assembly.score.sfx.size}",
    ".exportzp NUM_SONGS, NUM_SOUNDS"] ++
  assembly.tables.flatMap (tableLines assembly) ++
  ["", "; Make music data available to Pently"] ++
  wrap ".export " (assembly.tables.map fun table => table.directory.label) ++
  ["", "; Sound effect, instrument, and song names for your program to .importzp"] ++
  wrap ".exportzp " (exportedNames assembly) ++
  ["", s!"; Total music data size: {Text.natText assembly.totalBytes} bytes"] ++
  assembly.tables.flatMap sizeLines

/-- The listing of the music, of a period table, or of both. -/
def listing (assembly : Option Assembly) (options : Options) : String :=
  let music :=
    match assembly with
    | some assembly => musicLines assembly options
    | none => []
  let periods :=
    if 0 < options.periods then Periods.lines options.periods options.region options.tuning
    else []
  String.intercalate "\n" (header :: music ++ periods ++ [""])

end Chiptune.Output
