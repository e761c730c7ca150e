import Chiptune.Command.Run

/-!
# Snapshots

A snapshot holds the files that were looked at so far. A run is decided on a
snapshot; as long as it asks for a source file that was not looked at, that file is
added and the run is decided again.
-/

namespace Chiptune.Command

/-- What was looked at so far. -/
structure Snapshot where
  files : List (String × Except ReadFailure String)
  home : Option String
  input : Except ReadFailure String

namespace Snapshot

/-- Whether a path was looked at. -/
def holds (snapshot : Snapshot) (path : String) : Bool := (snapshot.files.lookup path).isSome

/-- What reading a path gave. -/
def read (snapshot : Snapshot) (path : String) : Except ReadFailure String :=
  (snapshot.files.lookup path).getD (.error .missing)

/-- Whether something stands at a path. -/
def present (snapshot : Snapshot) (path : String) : Bool :=
  match snapshot.read path with
  | .error .missing | .error .notDirectory => false
  | _ => true

/-- The snapshot as a world. -/
def world (snapshot : Snapshot) : World :=
  ⟨⟨snapshot.read, snapshot.present, snapshot.home⟩, snapshot.input⟩

/-- Add what reading a path gave. -/
def add (snapshot : Snapshot) (path : String) (found : Except ReadFailure String) : Snapshot :=
  { snapshot with files := (path, found) :: snapshot.files }

/-- The files that settings may come from. -/
def settingsPaths (arguments : Arguments) (home : Option String) : List String :=
  match arguments.settings with
  | some path => [path]
  | none => Settings.localPath :: (home.map Settings.userPath).toList

/-- What comes of assembling the source, unless standard input fails. -/
def outcome? (snapshot : Snapshot) (settings : Settings) (source : String) :
    Option (Except Report Assembly) :=
  if source = "-" then
    snapshot.input.toOption.map (assembleInput snapshot.read settings)
  else some (Assembly.ofFile snapshot.read settings.depthLimit source)

/-- The source file that a run asks for and that was not looked at. -/
def wanted? (snapshot : Snapshot) (arguments : Arguments) : Option String :=
  match arguments.source, Settings.discover snapshot.world.sources arguments.settings with
  | some source, .ok settings =>
    match snapshot.outcome? settings source with
    | some (.error ⟨.unreadable path _, _, _⟩) =>
      if snapshot.holds path then none else some path
    | _ => none
  | _, _ => none

end Snapshot

end Chiptune.Command
