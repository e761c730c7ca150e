import Chiptune.Text.Cut
import Chiptune.Text.Numeral

/-!
# Names

The name of an entity defined inside a song is qualified by the song's name. A
name is looked up from a scope outward. Labels of the output are made of the
alphanumeric runs of a name.
-/

namespace Chiptune.Name

/-- The name as seen from outside the song it is defined in. -/
def qualify (song : Option String) (name : String) : String :=
  match song with
  | some song => song ++ "::" ++ name
  | none => name

/-- The scope and the scopes around it, innermost first: the last component is
dropped from each to get the next. At most `fuel` of them. -/
def enclosingUpTo : Nat → String → List String
  | 0, _ => []
  | fuel + 1, scope =>
    scope ::
      match Text.beforeLast? "::" scope with
      | some outer => enclosingUpTo fuel outer
      | none => []

/-- The scope and the scopes around it, innermost first. -/
def enclosing (scope : String) : List String :=
  if scope.isEmpty then [] else enclosingUpTo (scope.length + 1) scope

/-- The qualified names that `name` may stand for inside `scope`, nearest first. A
name that begins with two colons is looked up at top level only. -/
def candidates (name scope : String) : List String :=
  match Text.after? "::" name with
  | some global => [global]
  | none => (enclosing scope).map (fun outer => qualify (some outer) name) ++ [name]

/-- The alphanumeric runs of a name, joined by underscores. -/
def label (name : String) : String :=
  let runs := name.toList.splitOnP fun c => !Text.isAlphanumeric c
  String.intercalate "_" ((runs.filter fun run => !run.isEmpty).map String.ofList)

end Chiptune.Name
