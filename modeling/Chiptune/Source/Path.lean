/-!
# Paths

Paths are texts of segments between slashes. A relative path is joined to a
directory; the directory of a path is the text before its last segment.
-/

namespace Chiptune.Path

/-- A path as seen from a directory. An absolute path stands for itself. -/
def join (directory path : String) : String :=
  if path.startsWith "/" || directory.isEmpty then path
  else if directory.endsWith "/" then directory ++ path
  else directory ++ "/" ++ path

/-- Reversed characters of a path without the slashes and the segments `.` at its end.
The root alone keeps its slash. -/
def dropIdle : List Char → List Char
  | ['/'] => ['/']
  | '/' :: cs => dropIdle cs
  | '.' :: '/' :: cs => dropIdle ('/' :: cs)
  | cs => cs

/-- The directory that a path lies in, as text. The root and the empty path lie in
none. -/
def parent? (path : String) : Option String :=
  match dropIdle path.toList.reverse with
  | [] => none
  | ['/'] => none
  | cs => some (String.ofList (dropIdle (cs.dropWhile (· != '/'))).reverse)

/-- Whether a path holds the character with code point zero, which no file name can. -/
def holdsZero (path : String) : Bool := path.toList.any fun c => c.toNat == 0

/-- The segments of a path. -/
def segments (path : String) : List String :=
  (path.toList.splitOn '/').map String.ofList

end Chiptune.Path
