/-!
# Cutting a text

A text is cut before a prefix, at the first place of a character, at the last
place of a separator, or at every place of a character.
-/

namespace Chiptune.Text

/-- What follows `head` in `cs`, if `cs` begins with it. -/
def afterChars? : List Char → List Char → Option (List Char)
  | [], cs => some cs
  | _ :: _, [] => none
  | h :: hs, c :: cs => if h = c then afterChars? hs cs else none

/-- What follows `head` in `text`, if `text` begins with it. -/
def after? (head text : String) : Option String :=
  (afterChars? head.toList text.toList).map String.ofList

/-- The parts before and after the first `mark`. -/
def cutChars? (mark : Char) : List Char → Option (List Char × List Char)
  | [] => none
  | c :: cs =>
    if c = mark then some ([], cs)
    else (cutChars? mark cs).map fun (before, behind) => (c :: before, behind)

/-- The parts of `text` before and after the first `mark`. -/
def cut? (mark : Char) (text : String) : Option (String × String) :=
  (cutChars? mark text.toList).map fun (before, behind) =>
    (String.ofList before, String.ofList behind)

/-- The part of `cs` before the last place where `separator` begins. -/
def beforeLastChars? (separator : List Char) : List Char → Option (List Char)
  | [] => none
  | c :: cs =>
    match beforeLastChars? separator cs with
    | some before => some (c :: before)
    | none => if separator.isPrefixOf (c :: cs) then some [] else none

/-- The part of `text` before the last `separator`. -/
def beforeLast? (separator text : String) : Option String :=
  (beforeLastChars? separator.toList text.toList).map String.ofList

/-- The parts of a text between commas. -/
def commaParts (text : String) : List String := (text.toList.splitOn ',').map String.ofList

/-- The text cut at every line feed; a text that ends in one ends in an empty line. -/
def lines (text : String) : List String :=
  (text.toList.splitOn '\n').map String.ofList

end Chiptune.Text
