import Chiptune.Markup.Cursor
import Chiptune.Text.Numeral

/-!
# Block texts

Texts of indented lines behind a bar or an angle bracket. The header may give the
indentation, and say whether the line breaks at the end are dropped or kept.
-/

namespace Chiptune.Markup.Block

/-- What becomes of the line breaks at the end. -/
inductive Ending where
  | strip
  | clip
  | keep
deriving DecidableEq, Repr, Inhabited

/-- What the header of a block text says. -/
structure Header where
  ending : Ending
  /-- The indentation against the block around it, or zero if it is not given. -/
  increment : Nat
deriving DecidableEq, Repr, Inhabited

/-- The mark of an ending, and the place behind it. -/
def ending (cursor : Cursor) : Ending × Cursor :=
  if cursor.at? '+' then (.keep, cursor.next)
  else if cursor.at? '-' then (.strip, cursor.next)
  else (.clip, cursor)

/-- The digit of an indentation, which is not zero, and the place behind it. -/
def increment? (cursor : Cursor) : Option (Nat × Cursor) :=
  match cursor.rest with
  | c :: _ =>
    if c == '0' then none
    else if Text.isDigit c then some (c.toNat - '0'.toNat, cursor.next)
    else some (0, cursor)
  | [] => some (0, cursor)

/-- The header that begins here, and the place behind its line. -/
def header? (cursor : Cursor) : Option (Header × Cursor) :=
  let (first, behind) := ending cursor
  match increment? behind with
  | none => none
  | some (increment, behind) =>
    let (last, behind) := if first = .clip && 0 < increment then ending behind else (first, behind)
    let behind := (behind.skipWhile isBlank).skipComment
    if behind.atLineEnd then some (⟨last, increment⟩, behind.next) else none

/-- Pass over empty lines and the indentation of the next line. The value is the
indentation, found from the lines if it is zero, and the line breaks, last first. -/
def passBreaks (margin : Nat) :
    Nat → Nat → Nat → List Char → Cursor → Option (Nat × List Char × Cursor)
  | 0, _, _, _, _ => none
  | fuel + 1, indentation, widest, breaks, cursor =>
    let blanks := (cursor.rest.takeWhile (· == ' ')).length
    let blanks := if indentation = 0 then blanks else min blanks (indentation - cursor.column)
    let cursor := cursor.skip blanks
    let widest := max widest cursor.column
    if (indentation = 0 || cursor.column < indentation) && cursor.at? '\t' then none
    else
      match cursor.rest with
      | c :: _ =>
        if isBreak c then passBreaks margin fuel indentation widest (c :: breaks) cursor.next
        else some (found indentation widest, breaks, cursor)
      | [] => some (found indentation widest, breaks, cursor)
where
  /-- The indentation, if need be from the widest line. -/
  found (indentation widest : Nat) : Nat :=
    if indentation = 0 then max widest (max margin 1) else indentation

/-- The parts of a block text while it is read: its text, the break behind the last
line, and the breaks of the empty lines behind that one, all last character first. -/
structure Lines where
  text : List Char
  lineBreak : List Char
  emptyLines : List Char
  /-- Whether the last line begins with a blank. -/
  blankStart : Bool
deriving DecidableEq, Repr, Inhabited

/-- The text up to a line that begins with `c`. -/
def Lines.joined (literal : Bool) (lines : Lines) (c : Char) : List Char :=
  if !literal && lines.lineBreak == ['\n'] && !lines.blankStart && !isBlank c then
    if lines.emptyLines.isEmpty then ' ' :: lines.text else lines.emptyLines ++ lines.text
  else lines.emptyLines ++ lines.lineBreak ++ lines.text

/-- Read the lines with the given indentation. -/
def readLines (literal : Bool) (margin indentation : Nat) :
    Nat → Lines → Cursor → Option (Lines × Cursor)
  | 0, lines, cursor => some (lines, cursor)
  | fuel + 1, lines, cursor =>
    match cursor.rest with
    | [] => some (lines, cursor)
    | c :: _ =>
      if cursor.column ≠ indentation then some (lines, cursor)
      else
        let line := cursor.rest.takeWhile fun c => !isBreak c
        let behind := cursor.skip line.length
        match passBreaks margin (behind.rest.length + 1) indentation 0 [] behind.next with
        | none => none
        | some (_, emptyLines, cursor) =>
          readLines literal margin indentation fuel
            ⟨line.reverse ++ lines.joined literal c, behind.rest.take 1, emptyLines, isBlank c⟩
            cursor

/-- The text of a block whose header begins here, and the place behind it. -/
def read? (literal : Bool) (margin : Nat) (cursor : Cursor) : Option (List Char × Cursor) :=
  match header? cursor with
  | none => none
  | some (header, cursor) =>
    let indentation := if header.increment = 0 then 0 else margin - 1 + header.increment
    match passBreaks margin (cursor.rest.length + 1) indentation 0 [] cursor with
    | none => none
    | some (indentation, emptyLines, cursor) =>
      match readLines literal margin indentation cursor.rest.length
          ⟨[], [], emptyLines, false⟩ cursor with
      | none => none
      | some (lines, cursor) =>
        let text :=
          match header.ending with
          | .strip => lines.text
          | .clip => lines.lineBreak ++ lines.text
          | .keep => lines.emptyLines ++ lines.lineBreak ++ lines.text
        some (text.reverse, cursor)

end Chiptune.Markup.Block
