import Chiptune.Fault
import Chiptune.Source.Path

/-!
# File trees

The files below a working directory. Directories exist where files lie in them. Of what
lies outside the working directory, only the directories above it, those that every
system has, and some devices are known. Files can be written to the directories above
the working directory, but they are not kept.
-/

namespace Chiptune

/-- What a file holds. -/
inductive FileContent where
  | text (content : String)
  /-- Bytes that are no text. -/
  | binary
deriving DecidableEq, Repr, Inhabited

/-- The files below a working directory, by the segments of their paths. -/
structure FileTree where
  files : List (List String × FileContent)
deriving DecidableEq, Repr, Inhabited

namespace FileTree

/-! ## Places -/

/-- A device that a path can name. -/
inductive Device where
  /-- Reads as nothing and keeps nothing. -/
  | null
  /-- Has no room. -/
  | full
  | standardInput
  | standardOutput
  | standardError
deriving DecidableEq, Repr, Inhabited

/-- The devices by their names. -/
def Device.named : List (String × Device) :=
  [("null", .null), ("full", .full), ("stdin", .standardInput), ("stdout", .standardOutput),
    ("stderr", .standardError)]

/-- A place that a path can lead to. -/
inductive Place where
  /-- Below the working directory. -/
  | inside (names : List String)
  /-- A directory above the working directory. -/
  | above
  /-- Below the root. -/
  | system (names : List String)
  /-- In a directory above the working directory. -/
  | unknown
deriving DecidableEq, Repr, Inhabited

/-- The directory that a place lies in. -/
def Place.parent : Place → Place
  | inside [] => above
  | inside names => inside names.dropLast
  | above => above
  | system names => system names.dropLast
  | unknown => above

/-- The place with a name in a directory. -/
def Place.child (name : String) : Place → Place
  | inside names => inside (names ++ [name])
  | above => unknown
  | system names => system (names ++ [name])
  | unknown => unknown

/-- What stands at a place of a tree. -/
inductive Node where
  | file (content : FileContent)
  | device (device : Device)
  | directory
  | nothing
deriving DecidableEq, Repr, Inhabited

/-- The directories below the root that every system has. -/
def systemDirectories : List String :=
  ["bin", "dev", "etc", "home", "lib", "proc", "sys", "tmp", "usr", "var"]

/-- What stands below the root. -/
def systemNode : List String → Node
  | [] => .directory
  | [name] => if systemDirectories.contains name then .directory else .nothing
  | ["dev", name] => (Device.named.lookup name).elim .nothing .device
  | _ => .nothing

/-- The tree of files given by their paths. -/
def ofPaths (files : List (String × FileContent)) : FileTree :=
  ⟨files.map fun (path, content) =>
    ((Path.segments path).filter fun segment => segment != "" && segment != ".", content)⟩

/-- What stands at a place. -/
def node (tree : FileTree) : Place → Node
  | .inside names =>
    match tree.files.lookup names with
    | some content => .file content
    | none =>
      if names.isEmpty || tree.files.any fun (path, _) => names.isPrefixOf path then .directory
      else .nothing
  | .above => .directory
  | .system names => systemNode names
  | .unknown => .nothing

/-! ## Paths -/

/-- The most bytes of a name. -/
def longestName : Nat := 255

/-- The most bytes of a path. -/
def longestPath : Nat := 4095

/-- Walk along segments from a place. Only a directory can be walked into, and only by a
name that a directory can hold. -/
def walk (tree : FileTree) : Place → List String → Except ReadFailure Place
  | place, [] => .ok place
  | place, segment :: rest =>
    match tree.node place with
    | .nothing => .error .missing
    | .file _ | .device _ => .error .notDirectory
    | .directory =>
      if segment = "" ∨ segment = "." then tree.walk place rest
      else if segment = ".." then tree.walk place.parent rest
      else if longestName < segment.utf8ByteSize then .error .nameTooLong
      else tree.walk (place.child segment) rest

/-- The place that a path starts from, and its segments. -/
def route (path : String) : Except ReadFailure (Place × List String) :=
  if Path.holdsZero path then .error .zeroInName
  else if longestPath < path.utf8ByteSize then .error .nameTooLong
  else if path.isEmpty then .error .missing
  else .ok (if path.startsWith "/" then .system [] else .inside [], Path.segments path)

/-- The place that a path leads to. -/
def place (tree : FileTree) (path : String) : Except ReadFailure Place :=
  match route path with
  | .error failure => .error failure
  | .ok (start, names) => tree.walk start names

/-- The device that a path names. -/
def device? (tree : FileTree) (path : String) : Option Device :=
  match tree.place path with
  | .error _ => none
  | .ok place =>
    match tree.node place with
    | .device device => some device
    | _ => none

/-- Read the text of a file. A device holds none. -/
def read (tree : FileTree) (path : String) : Except ReadFailure String :=
  match tree.place path with
  | .error failure => .error failure
  | .ok place =>
    match tree.node place with
    | .nothing => .error .missing
    | .directory => .error .isDirectory
    | .file .binary => .error .notText
    | .file (.text content) => .ok content
    | .device _ => .ok ""

/-- Whether something stands at a path. -/
def contains (tree : FileTree) (path : String) : Bool :=
  match tree.place path with
  | .error _ => false
  | .ok place => tree.node place != .nothing

/-! ## Writing -/

/-- The place that a file is written to. A path that ends in a slash names a directory,
if what stands before its last name is one. -/
def target (tree : FileTree) (path : String) : Except ReadFailure Place :=
  match route path with
  | .error failure => .error failure
  | .ok (start, names) =>
    let named := (names.reverse.dropWhile (· == "")).reverse
    if named.length = names.length then tree.walk start names
    else
      match tree.walk start (named.dropLast ++ ["."]) with
      | .error failure => .error failure
      | .ok _ => .error .isDirectory

/-- Put a file at a place below the working directory. -/
def put (tree : FileTree) (names : List String) (content : FileContent) : FileTree :=
  ⟨tree.files.filter (fun (path, _) => path != names) ++ [(names, content)]⟩

/-- Write a file. The directory that it lies in must be there. Files outside the working
directory are not kept, and below the root none is made. -/
def write (tree : FileTree) (path content : String) : Except ReadFailure FileTree :=
  match tree.target path with
  | .error failure => .error failure
  | .ok place =>
    match tree.node place, place with
    | .directory, _ => .error .isDirectory
    | .device .full, _ => .error .noSpace
    | .device _, _ => .ok tree
    | _, .inside names => .ok (tree.put names (.text content))
    | .nothing, .system _ => .error .denied
    | _, _ => .ok tree

end FileTree

/-- Reading of source files by path. -/
abbrev SourceFiles := String → Except ReadFailure String

end Chiptune
