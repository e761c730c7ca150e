import Chiptune.Keyword
import Chiptune.Reader.Conducting
import Chiptune.Reader.Settings
import Chiptune.Reader.Voices
import Chiptune.Source.FileTree
import Chiptune.Source.Statement

/-!
# Reading sources

Each statement is carried out by its keyword. A statement without one is pattern
text if a pattern is open. Files are included where their statement stands, down
to a limited depth.
-/

namespace Chiptune.Reader

/-- A step of reading a source, which fails with a report. -/
abbrev Reading (α : Type) := EStateM Report Reader α

/-- A step whose fault has no place yet. -/
def unlocated {α : Type} (step : Step Reader α) : Reading α := step.adaptExcept Report.ofFault

/-- Read pattern text into the open pattern. Anywhere else the first word is an unknown
keyword, which is only warned about. -/
def patternText (words : List String) : Step Reader Unit := do
  let reader ← get
  match reader.scope.object with
  | some (.pattern index) =>
    let warnings ← onPattern index (Pattern.addWords reader.chords words)
    warn warnings
  | _ =>
    let word := words.headD ""
    let message := s!"unknown keyword {word} inside {reader.scope.describe}"
    modify fun reader =>
      { reader with diagnostics := reader.diagnostics.unknownKeyword reader.here message }

/-- Carry out a statement other than a wait and an inclusion. The object is the one that
was open before the statement. -/
def perform (keyword : Keyword) (word : String) (arguments : List String)
    (object : Option OpenObject) : Step Reader Unit :=
  match keyword with
  | .noteNames => setLanguage arguments
  | .durations => setDurations arguments
  | .octaveMarks => setSigns arguments
  | .sfx => defineEffect arguments
  | .instrument => defineInstrument arguments
  | .rate => setRate object arguments
  | .volume => setVolume object arguments
  | .decay => setDecay object arguments
  | .timbre => setTimbre object arguments
  | .pitch => setPitches object arguments
  | .detached => setDetached object arguments
  | .drum => defineDrum arguments
  | .song => defineSong arguments
  | .ending => endSong word (word :: arguments)
  | .segno => setSegno arguments
  | .mark => addMark arguments
  | .time => setTime arguments
  | .scale => setScale arguments
  | .attack => attackOn arguments
  | .pattern => definePattern arguments
  | .fallthrough => setFallthrough object arguments
  | .pickup => pickup arguments
  | .resume => setResume arguments
  | .mute => setMute false arguments
  | .solo => setMute true arguments
  | .tempo => setTempo arguments
  | .play => play arguments
  | .stop => stop arguments
  | .title => setCredit .title arguments
  | .author => setCredit .author arguments
  | .copyright => setCredit .copyright arguments
  | .position => throw (.usage "at MEASURE[:BEAT[:ROW]] [COMMAND]")
  | .inclusion => throw (.usage "include FILE")

/-- Close the open object if the statement ends it. -/
def closeFor (keyword : Keyword) (reader : Reader) : Reader :=
  if keyword.closesObject then { reader with scope := reader.scope.closeObject } else reader

/-- Carry out a statement; files are included by `onInclude`. Behind a wait another
statement may follow on the same line. -/
def dispatch (onInclude : String → Reading Unit) : List String → Reading Unit
  | [] => return
  | word :: arguments => do
    if isDefinition (word :: arguments) then unlocated (define (word :: arguments))
    else
      match Keyword.ofWord? word with
      | none => unlocated (patternText (word :: arguments))
      | some keyword =>
        let object := (← get).scope.object
        modify (closeFor keyword)
        match keyword, arguments with
        | .position, target :: command => do
          unlocated (waitUntil target)
          dispatch onInclude command
        | .inclusion, file :: more => onInclude (Text.unwords (file :: more))
        | keyword, arguments => unlocated (perform keyword word arguments object)

/-- Carry out statements in order. A report without a place gets that of its statement. -/
def statements (onInclude : String → Reading Unit) : List Statement → Reading Unit
  | [] => return
  | statement :: rest => do
    modify fun reader => { reader with here := statement.place }
    let inclusions := (← get).inclusions
    (dispatch onInclude statement.words).adaptExcept fun report =>
      report.locate statement.place inclusions
    statements onInclude rest

/-- A text, the name it is cited by, and the directory that its inclusions are
looked up in, if it has one of its own. -/
structure Source where
  text : String
  file : String
  directory : Option String
deriving DecidableEq, Repr, Inhabited

/-- Enter the directory of a source. -/
def enter (source : Source) (reader : Reader) : Reader :=
  match source.directory with
  | some directory => { reader with directories := directory :: reader.directories }
  | none => reader

/-- Leave the directory of a source. -/
def leave (source : Source) (reader : Reader) : Reader :=
  match source.directory with
  | some _ => { reader with directories := reader.directories.tail }
  | none => reader

/-- Carry out a step and a change after it, whether the step fails or not. -/
def afterwards {α : Type} (step : Reading α) (change : Reader → Reader) : Reading α := fun reader =>
  match step reader with
  | .ok value next => .ok value (change next)
  | .error report next => .error report (change next)

/-- Read a source by its statements. -/
def readStatements (onInclude : String → Reading Unit) (source : Source) : Reading Unit := do
  modify (enter source)
  afterwards (statements onInclude (Statement.ofSource source.file source.text)) (leave source)

/-- The path of an included file as seen from the including one. -/
def includedPath (reader : Reader) (file : String) : String :=
  match reader.directories with
  | directory :: _ => Path.join directory file
  | [] => file

/-- The file at a path as a source. -/
def fileSource (files : SourceFiles) (path : String) : Except Fault Source :=
  match files path with
  | .ok text => .ok ⟨text, path, Path.parent? path⟩
  | .error failure => .error (.unreadable path failure)

/-- Include a file that is read by `read`. Afterwards the reader is back at the statement
that included it. -/
def includeFile (files : SourceFiles) (read : Source → Reading Unit) (file : String) :
    Reading Unit := do
  let reader ← get
  let source ← unlocated (Step.decide (fileSource files (reader.includedPath file)))
  modify fun reader => { reader with inclusions := reader.inclusions ++ [reader.here] }
  afterwards (read source) fun next =>
    { next with inclusions := next.inclusions.dropLast, here := reader.here }

/-- The fault of an inclusion that is nested too deep. -/
def tooDeep (_file : String) : Reading Unit := do
  let reader ← get
  throw (.ofFault (.includesTooDeep reader.depthLimit))

/-- Read a source whose inclusions may nest `depth` deep. -/
def readNested (files : SourceFiles) : Nat → Source → Reading Unit
  | 0, source => readStatements tooDeep source
  | depth + 1, source => readStatements (includeFile files (readNested files depth)) source

/-- Read a source with the files it includes. -/
def readSource (files : SourceFiles) (source : Source) : Reading Unit := do
  let reader ← get
  readNested files (reader.depthLimit - reader.inclusions.length) source

/-- Read the source file at a path with the files it includes. -/
def readFile (files : SourceFiles) (path : String) : Reading Unit := do
  let source ← unlocated (Step.decide (fileSource files path))
  readSource files source

/-- The score and the warnings of a finished reading. An open song must have ended. -/
def finish (reader : Reader) : Except Report (Score × Diagnostics) :=
  match reader.openSong? with
  | some song => .error ((Report.ofFault (.songNotEnded song.name)).locate song.place [])
  | none => .ok (reader.score, reader.diagnostics)

end Chiptune.Reader
