import Chiptune.Command.Arguments
import Chiptune.Output.Constants
import Chiptune.Output.Dump
import Chiptune.Settings.Basic

/-!
# Running the command

A run reads settings and sources and decides what is to be delivered: notices for
the user, texts for the output and for files, and perhaps a failure in the end.
Delivering stops at the first file that cannot be written.
-/

namespace Chiptune.Command

/-- What a run can see. -/
structure World where
  sources : Settings.Sources
  /-- The text on standard input. -/
  input : Except ReadFailure String

/-- A text to be delivered. -/
inductive Delivery where
  | output (text : String)
  | file (path text : String)
deriving DecidableEq, Repr, Inhabited

/-- What a run decides. -/
structure Plan where
  /-- Lines for the user. -/
  notices : List String
  deliveries : List Delivery
  /-- Why the run fails after all else. -/
  failure : Option String
deriving DecidableEq, Repr, Inhabited

namespace Plan

/-- A run that fails before anything is delivered. -/
def failing (notices : List String) (message : String) : Plan := ⟨notices, [], some message⟩

end Plan

/-- The settings with the arguments put over them. -/
def override (arguments : Arguments) (settings : Settings) : Settings :=
  { settings with
    segment := arguments.segment.getD settings.segment
    periods := arguments.periods.getD settings.periods
    region := arguments.region.getD settings.region
    tuning := arguments.tuning.getD settings.tuning
    strict := settings.strict || arguments.strict }

/-- The name of a source in the listing; a dash stands for standard input. -/
def sourceName (source : String) : String :=
  if source = "-" then "standard input" else source

/-- Assemble the text of standard input. -/
def assembleInput (files : SourceFiles) (settings : Settings) (input : String) :
    Except Report Assembly :=
  Assembly.ofSource files settings.depthLimit ⟨input, "<stdin>", none⟩

/-- Assemble the named source. -/
def assemble (world : World) (settings : Settings) (source : String) :
    Except String Assembly :=
  if source = "-" then
    match world.input with
    | .error failure => .error ("cannot read standard input: " ++ failure.text)
    | .ok input => (assembleInput world.sources.read settings input).mapError Report.text
  else (Assembly.ofFile world.sources.read settings.depthLimit source).mapError Report.text

/-- The lines about warnings. -/
def warningLines (diagnostics : Diagnostics) : List String :=
  diagnostics.warnings.map Warning.text ++
    if 0 < diagnostics.unshown then
      [s!"warning: {Text.natText diagnostics.unshown} more unknown keywords not shown"]
    else []

/-- The listing and the constants of a run whose source is assembled. -/
def deliver (arguments : Arguments) (settings : Settings) (assembly : Option Assembly)
    (name : String) (notices : List String) : Plan :=
  let text := Output.listing assembly (settings.listingOptions name)
  let main :=
    match arguments.output with
    | some path => Delivery.file path text
    | none => .output text
  match arguments.constants, assembly with
  | none, _ => ⟨notices, [main], none⟩
  | some path, some assembly => ⟨notices, [main, .file path (Output.constants assembly)], none⟩
  | some _, none => ⟨notices, [main], some "--write-inc requires an input file"⟩

/-- Report on an assembled source and deliver it, unless warnings count as errors. -/
def publish (arguments : Arguments) (settings : Settings) (assembly : Assembly)
    (name : String) : Plan :=
  let dump :=
    if arguments.dump then [(Output.Dump.score assembly.score).pretty] else []
  let diagnostics := assembly.diagnostics
  let notices := dump ++ warningLines diagnostics
  if settings.strict && !diagnostics.isEmpty then
    .failing notices s!"{Text.natText diagnostics.size} warnings treated as errors (--strict)"
  else deliver arguments settings (some assembly) name notices

/-- Decide on a run with the given settings. -/
def planWith (world : World) (arguments : Arguments) (settings : Settings) : Plan :=
  if arguments.source.isNone && settings.periods == 0 then
    .failing [] "at least one of INFILE and --periods is required"
  else if Periods.most < settings.periods then
    .failing [] "2A03 not precise enough for more than 88 semitones"
  else
    match arguments.source with
    | none => deliver arguments settings none "" []
    | some source =>
      match assemble world settings source with
      | .error message => .failing [] message
      | .ok assembly => publish arguments settings assembly (sourceName source)

/-- Decide on a run. -/
def plan (world : World) (arguments : Arguments) : Plan :=
  match Settings.discover world.sources arguments.settings with
  | .error problem => .failing [] problem.text
  | .ok settings => planWith world arguments (override arguments settings)

/-- The message about a file that cannot be written. -/
def writeFailure (path : String) (failure : ReadFailure) : String :=
  s!"cannot write {path}: {failure.text}"

/-- A failure as the user reads it. -/
def complaint (message : String) : String := "pentlyas: " ++ message

/-- What a run leaves behind. -/
structure Outcome where
  exit : Nat
  output : String
  notices : String
  files : FileTree
deriving DecidableEq, Repr, Inhabited

/-- What delivering leaves behind. -/
structure Delivered where
  /-- What was put out. -/
  output : String
  /-- What was put out for the user. -/
  notices : String
  files : FileTree
  /-- The message of the first file that cannot be written. -/
  failure : Option String
deriving DecidableEq, Repr, Inhabited

namespace Delivered

/-- Put out a text before all others. -/
def after (text : String) (delivered : Delivered) : Delivered :=
  { delivered with output := text ++ delivered.output }

/-- Put out a text for the user before all others. -/
def afterNotice (text : String) (delivered : Delivered) : Delivered :=
  { delivered with notices := text ++ delivered.notices }

end Delivered

/-- Deliver texts in order to a file tree. -/
def carryOut (files : FileTree) : List Delivery → Delivered
  | [] => ⟨"", "", files, none⟩
  | .output text :: rest => (carryOut files rest).after text
  | .file path text :: rest =>
    match files.write path text with
    | .error failure => ⟨"", "", files, some (writeFailure path failure)⟩
    | .ok next =>
      match files.device? path with
      | some .standardOutput => (carryOut next rest).after text
      | some .standardError => (carryOut next rest).afterNotice text
      | _ => carryOut next rest

/-- Lines as a text, each ended. -/
def endedLines (lines : List String) : String :=
  String.join (lines.map (· ++ "\n"))

/-- The outcome of a run on a file tree. -/
def Plan.outcome (plan : Plan) (files : FileTree) : Outcome :=
  let delivered := carryOut files plan.deliveries
  let failure := delivered.failure.or plan.failure
  { exit := if failure.isSome then 1 else 0
    output := delivered.output
    notices :=
      endedLines plan.notices ++ delivered.notices ++ endedLines (failure.map complaint).toList
    files := delivered.files }

/-- What a run on a file tree sees. -/
def World.ofTree (files : FileTree) (home : Option String) (input : String) : World :=
  let read := fun path =>
    if files.device? path = some .standardInput then .ok input else files.read path
  ⟨⟨read, files.contains, home⟩, .ok input⟩

end Chiptune.Command
