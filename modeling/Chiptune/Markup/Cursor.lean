/-!
# Cursors

A cursor is a place in a text: the characters from there on, the numbers of the line
and of the column, and the number of bytes since the line began. The documents that
settings come from are read through cursors, because their blocks are told apart by
columns.
-/

namespace Chiptune.Markup

/-- Whether a character ends a line. -/
def isBreak (c : Char) : Bool := c == '\n' || c == '\u2028' || c == '\u2029'

/-- Whether a character is a blank within a line. -/
def isBlank (c : Char) : Bool := c == ' ' || c == '\t'

/-- Whether a character parts words. -/
def isGap (c : Char) : Bool := isBlank c || isBreak c

/-- Whether a document may hold a character. -/
def isPrintable (c : Char) : Bool :=
  let n := c.toNat
  n == 9 || n == 10 || n == 13 || (32 ≤ n && n ≤ 126) || n == 0x85 ||
    (0xA0 ≤ n && n ≤ 0xFFFD) || 0x10000 ≤ n

/-- The characters of a text with one kind of line feed. The separators of lines and of
paragraphs stay, because they are kept where a line feed is folded. -/
def unifyBreaks : List Char → List Char
  | '\r' :: '\n' :: rest => '\n' :: unifyBreaks rest
  | c :: rest => (if c == '\r' || c == '\u0085' then '\n' else c) :: unifyBreaks rest
  | [] => []

/-- A place in a text. -/
structure Cursor where
  rest : List Char
  line : Nat
  column : Nat
  /-- The bytes between the beginning of the line and here. -/
  offset : Nat
deriving DecidableEq, Repr, Inhabited

namespace Cursor

/-- The beginning of a text. -/
def ofText (text : String) : Cursor := ⟨unifyBreaks text.toList, 0, 0, 0⟩

/-- The place behind the next character. -/
def next (cursor : Cursor) : Cursor :=
  match cursor.rest with
  | [] => cursor
  | c :: rest =>
    if isBreak c then ⟨rest, cursor.line + 1, 0, 0⟩
    else ⟨rest, cursor.line, cursor.column + 1, cursor.offset + c.utf8Size⟩

/-- The place behind some characters. -/
def skip (cursor : Cursor) : Nat → Cursor
  | 0 => cursor
  | n + 1 => cursor.next.skip n

/-- The place behind all characters of one kind. -/
def skipWhile (cursor : Cursor) (p : Char → Bool) : Cursor :=
  cursor.skip (cursor.rest.takeWhile p).length

/-- Whether a given character comes next. -/
def at? (cursor : Cursor) (c : Char) : Bool := cursor.rest.head? == some c

/-- Whether one of the given characters comes next. -/
def atAny? (cursor : Cursor) (chars : String) : Bool := chars.toList.any cursor.at?

/-- Whether a blank, the end of a line or the end of the text stands behind `count`
characters. -/
def isSpaced (cursor : Cursor) (count : Nat) : Bool :=
  match cursor.rest[count]? with
  | some c => isGap c
  | none => true

/-- Whether the line or the text ends here. -/
def atLineEnd (cursor : Cursor) : Bool :=
  match cursor.rest with
  | c :: _ => isBreak c
  | [] => true

/-- Whether a line begins with the mark of three given characters. -/
def atMark (cursor : Cursor) (c : Char) : Bool :=
  cursor.column == 0 && cursor.rest.take 3 == [c, c, c] && cursor.isSpaced 3

/-- Whether a line begins with the mark that begins or ends a document. -/
def atMarker (cursor : Cursor) : Bool := cursor.atMark '-' || cursor.atMark '.'

/-- The end of a line that holds only a comment from here on. -/
def skipComment (cursor : Cursor) : Cursor :=
  if cursor.at? '#' then cursor.skipWhile fun c => !isBreak c else cursor

end Cursor

end Chiptune.Markup
