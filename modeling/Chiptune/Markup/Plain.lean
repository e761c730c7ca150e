import Chiptune.Markup.Quoted

/-!
# Plain texts

Texts without quotes. A plain text ends before a colon or a comment that stands apart
and, between brackets, before a comma or a bracket; outside brackets it ends where a
line is indented less than its block.
-/

namespace Chiptune.Markup.Plain

/-- Whether a plain text may begin here. -/
def mayStart (inFlow : Bool) (cursor : Cursor) : Bool :=
  match cursor.rest with
  | [] => false
  | c :: rest =>
    if c == '-' then
      match rest with
      | d :: _ => !isBlank d
      | [] => true
    else if c == '?' || c == ':' then !inFlow && !cursor.isSpaced 1
    else !isGap c && !(",[]\x7b\x7d#&*!|>'\"%@`".toList.contains c)

/-- Whether a plain text ends before the next character. -/
def endsAt (inFlow : Bool) (cursor : Cursor) : Bool :=
  cursor.at? ':' && cursor.isSpaced 1 || inFlow && cursor.atAny? ",[]\x7b\x7d"

/-- Whether a colon between brackets touches a mark, which it may not within a plain
text. -/
def colonTouches (inFlow : Bool) (cursor : Cursor) : Bool :=
  inFlow && cursor.at? ':' && cursor.next.atAny? ",?[]\x7b\x7d"

/-- Whether a tab stands where a line of a block with the given margin is indented.
`fresh` tells whether a line break came before. -/
def tabIndents (margin : Nat) : Bool → Nat → List Char → Bool
  | _, _, [] => false
  | fresh, column, c :: rest =>
    if isBreak c then tabIndents margin true 0 rest
    else fresh && c == '\t' && column < margin || tabIndents margin fresh (column + 1) rest

/-- Read on in a plain text. `text` holds what was read, last character first, and `gap`
the blanks and line breaks behind that. The value tells also whether the text was
followed by a line break. -/
def readFrom (inFlow : Bool) (margin : Nat) :
    Nat → List Char → List Char → Cursor → Option (List Char × Bool × Cursor)
  | 0, text, gap, cursor => some (text.reverse, gap.any isBreak, cursor)
  | fuel + 1, text, gap, cursor =>
    match cursor.rest with
    | [] => some (text.reverse, gap.any isBreak, cursor)
    | c :: _ =>
      if isGap c then
        let gap := cursor.rest.takeWhile isGap
        let behind := cursor.skip gap.length
        if tabIndents margin false cursor.column gap then none
        else if !inFlow && behind.column < margin then
          some (text.reverse, gap.any isBreak, behind)
        else readFrom inFlow margin fuel text gap behind
      else if cursor.atMarker || c == '#' && !gap.isEmpty then
        some (text.reverse, gap.any isBreak, cursor)
      else if colonTouches inFlow cursor then none
      else if endsAt inFlow cursor then some (text.reverse, gap.any isBreak, cursor)
      else readFrom inFlow margin fuel (c :: (foldGap gap).reverse ++ text) [] cursor.next

/-- The plain text that begins here in a block with the given margin, whether a line
break follows it, and the place behind it. -/
def read? (inFlow : Bool) (margin : Nat) (cursor : Cursor) :
    Option (List Char × Bool × Cursor) :=
  readFrom inFlow margin (2 * cursor.rest.length) [] [] cursor

end Chiptune.Markup.Plain
