import Chiptune.Packing
import Chiptune.Reader.Statements
import Chiptune.Song.Rendering

/-!
# Assembly

A score is assembled into five directory tables. The data blocks of sound effects
and of instruments are packed within their table.
-/

namespace Chiptune

/-- The directory tables, in the order the engine expects. -/
inductive Directory where
  | sfx
  | instruments
  | drums
  | patterns
  | songs
deriving DecidableEq, Repr, Inhabited

namespace Directory

/-- The label of the table. -/
def label : Directory → String
  | sfx => "pently_sfx_table"
  | instruments => "pently_instruments"
  | drums => "pently_drums"
  | patterns => "pently_patterns"
  | songs => "pently_songs"

/-- Whether a game refers to the entries of the table by name. -/
def exportsNames : Directory → Bool
  | sfx | instruments | songs => true
  | drums | patterns => false

end Directory

/-- A directory table. -/
structure DirectoryTable where
  directory : Directory
  entries : List Entry
deriving DecidableEq, Repr, Inhabited

/-- The bytes of a table with its data. -/
def DirectoryTable.byteSize (table : DirectoryTable) : Nat :=
  totalSize (table.entries.map (·.byteSize))

/-- A data block that lies inside another one. -/
structure Alias where
  base : String
  /-- The offset in bytes. -/
  offset : Nat
deriving DecidableEq, Repr, Inhabited

/-- An assembled score. -/
structure Assembly where
  score : Score
  tables : List DirectoryTable
  /-- The blocks that are not written, by their labels. -/
  aliases : List (String × Alias)
  diagnostics : Diagnostics
deriving Inhabited

namespace Assembly

/-- The bytes of all tables. -/
def totalBytes (assembly : Assembly) : Nat :=
  totalSize (assembly.tables.map (·.byteSize))

/-- The alias of a block, if it is not written. -/
def alias? (assembly : Assembly) (label : String) : Option Alias := assembly.aliases.lookup label

/-- The blocks of entries that may be packed, with their labels. -/
def packableBlocks (entries : List Entry) : List (String × List Nat) :=
  entries.filterMap fun entry =>
    match entry.data with
    | some block => block.packable.map fun bytes => (block.label, bytes)
    | none => none

/-- The aliases among the blocks of one table. -/
def tableAliases (entries : List Entry) : List (String × Alias) :=
  let blocks := packableBlocks entries
  let places := Packing.pack (blocks.map (·.2))
  (blocks.zip places).filterMap fun ((label, _), place) =>
    place.map fun place => (label, ⟨((blocks[place.base]?).map (·.1)).getD "", place.offset⟩)

/-- Give a label an alias in place of the one it had. -/
def setAlias (aliases : List (String × Alias)) (entry : String × Alias) :
    List (String × Alias) :=
  entry :: aliases.filter fun (label, _) => label != entry.1

/-- Attach the place of an entity to a fault. -/
def faultAt {α β : Type} [Entity α] (entity : α) : Except Fault β → Except Report β
  | .ok value => .ok value
  | .error fault => .error ((Report.ofFault fault).locate (Entity.place entity) [])

/-- The entries of drums. -/
def drumEntries (score : Score) : Except Report (List Entry) :=
  score.drums.entries.mapM fun drum => faultAt drum (drum.entry score.sfx)

/-- The entries of patterns. -/
def patternEntries (score : Score) : Except Report (List Entry) :=
  score.patterns.entries.mapM fun pattern => faultAt pattern (pattern.entry score.orchestra)

/-- The entries of songs, with the warnings they give. -/
def songEntries (score : Score) : List Song → EStateM Report Diagnostics (List Entry)
  | [] => return []
  | song :: songs => do
    let entry ← (song.entry score).adaptExcept fun report => report.locate song.place []
    let entries ← songEntries score songs
    return entry :: entries

/-- Assemble a score. The first entity that fails, in the order of the tables, decides. -/
def ofScore (score : Score) (diagnostics : Diagnostics) : Except Report Assembly := do
  let sfx := score.sfx.entries.map (·.entry)
  let instruments := score.instruments.entries.map (·.entry)
  let drums ← drumEntries score
  let patterns ← patternEntries score
  match songEntries score score.songs.entries diagnostics with
  | .error report _ => throw report
  | .ok songs diagnostics =>
    return {
      score := score
      tables :=
        [⟨.sfx, sfx⟩, ⟨.instruments, instruments⟩, ⟨.drums, drums⟩, ⟨.patterns, patterns⟩,
          ⟨.songs, songs⟩]
      aliases := (tableAliases sfx ++ tableAliases instruments).foldl setAlias []
      diagnostics := diagnostics }

/-- Read by `read` and finish, with inclusions nested at most `depthLimit` deep. -/
def scoreOf (depthLimit : Nat) (read : Reader.Reading Unit) :
    Except Report (Score × Diagnostics) :=
  match read (Reader.initial depthLimit) with
  | .error report _ => .error report
  | .ok _ reader => reader.finish

/-- Assemble a source with the files it includes. -/
def ofSource (files : SourceFiles) (depthLimit : Nat) (source : Reader.Source) :
    Except Report Assembly := do
  let (score, diagnostics) ← scoreOf depthLimit (Reader.readSource files source)
  ofScore score diagnostics

/-- Assemble the source file at a path with the files it includes. -/
def ofFile (files : SourceFiles) (depthLimit : Nat) (path : String) :
    Except Report Assembly := do
  let (score, diagnostics) ← scoreOf depthLimit (Reader.readFile files path)
  ofScore score diagnostics

end Assembly

end Chiptune
