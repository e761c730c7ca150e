import Chiptune.Markup.Cursor
import Chiptune.Markup.Token
import Chiptune.Text.Numeral

/-!
# Names, tags and directives

A node may have a name, by which it can be referred to, and a tag. Directives stand
before a document: they give the version of the markup and the meaning of the handles
of tags. In tags a character may be written in octets, and what stands behind a zero is
dropped.
-/

namespace Chiptune.Markup

/-- Whether a character may stand in a name. -/
def isNameChar (c : Char) : Bool := Text.isAlphanumeric c || c == '_' || c == '-'

/-- The name that stands behind a mark here, and the place behind it. -/
def name? (cursor : Cursor) : Option (String × Cursor) :=
  let chars := cursor.next.rest.takeWhile isNameChar
  let behind := cursor.skip (1 + chars.length)
  if chars.isEmpty then none
  else if behind.isSpaced 0 || behind.atAny? "?:,]\x7d%@`" then
    some (String.ofList chars, behind)
  else none

namespace Tag

/-- Whether a character may stand in a tag; `wide` admits commas and brackets. -/
def isTagChar (wide : Bool) (c : Char) : Bool :=
  isNameChar c || ";/?:@&=+$.!~*'()".toList.contains c || wide && ",[]".toList.contains c

/-- The octet written as a percent sign and two hexadecimal digits. -/
def octet? : List Char → Option Nat
  | '%' :: high :: low :: _ =>
    match Text.hexValue? high, Text.hexValue? low with
    | some high, some low => some (16 * high + low)
    | _, _ => none
  | _ => none

/-- The number of octets of a character and the bits of it in its first octet. -/
def leading? (octet : Nat) : Option (Nat × Nat) :=
  if octet < 0x80 then some (1, octet)
  else if 0xC0 ≤ octet && octet < 0xE0 then some (2, octet - 0xC0)
  else if 0xE0 ≤ octet && octet < 0xF0 then some (3, octet - 0xE0)
  else if 0xF0 ≤ octet && octet < 0xF8 then some (4, octet - 0xF0)
  else none

/-- Read the further octets of a character. -/
def further? : Nat → Nat → List Char → Option Nat
  | 0, point, _ => some point
  | count + 1, point, cs =>
    match octet? cs with
    | none => none
    | some octet =>
      if 0x80 ≤ octet && octet < 0xC0 then further? count (64 * point + octet - 0x80) (cs.drop 3)
      else none

/-- The character with the given code point in `count` octets, unless it needs fewer. -/
def character? (point count : Nat) : Option Char :=
  if point.isValidChar && (Char.ofNat point).utf8Size = count then some (Char.ofNat point)
  else none

/-- The character written in octets here, if they make one, and their number. -/
def octets? (cs : List Char) : Option (Option Char × Nat) :=
  match (octet? cs).bind leading? with
  | none => none
  | some (count, bits) =>
    (further? (count - 1) bits (cs.drop 3)).map fun point => (character? point count, count)

/-- The characters of a tag from here on, and the place behind them. -/
def charsFrom (wide : Bool) : Nat → TagText → Cursor → Option (TagText × Cursor)
  | 0, text, cursor => some (text.reverse, cursor)
  | fuel + 1, text, cursor =>
    match cursor.rest with
    | [] => some (text.reverse, cursor)
    | c :: _ =>
      if c == '%' then
        match octets? cursor.rest with
        | none => none
        | some (char, count) => charsFrom wide fuel (char :: text) (cursor.skip (3 * count))
      else if isTagChar wide c then charsFrom wide fuel (some c :: text) cursor.next
      else some (text.reverse, cursor)

/-- The characters of a tag from here on, and the place behind them. -/
def chars? (wide : Bool) (cursor : Cursor) : Option (TagText × Cursor) :=
  charsFrom wide cursor.rest.length [] cursor

/-- The characters of a tag, of which there must be some, be it a zero. -/
def someChars? (wide : Bool) (cursor : Cursor) : Option (TagText × Cursor) :=
  (chars? wide cursor).filter fun (chars, _) => !chars.isEmpty

/-- What looks like a handle behind an exclamation mark here. -/
def handleChars (cursor : Cursor) : List Char × Cursor :=
  let chars := cursor.next.rest.takeWhile isNameChar
  let behind := cursor.skip (1 + chars.length)
  if behind.at? '!' then ('!' :: chars ++ ['!'], behind.next) else ('!' :: chars, behind)

/-- Whether characters that begin with an exclamation mark end with another one. -/
def isClosed (chars : List Char) : Bool := 1 < chars.length && chars.getLast? == some '!'

/-- A tag without angle brackets. -/
def short? (cursor : Cursor) : Option (Tag × Cursor) :=
  let (chars, behind) := handleChars cursor
  if isClosed chars then
    (someChars? false behind).map fun (suffix, behind) =>
      (⟨String.ofList chars, suffix.beforeZero⟩, behind)
  else
    (chars? false behind).map fun (suffix, behind) =>
      let suffix := TagText.ofChars (chars.drop 1) ++ suffix.beforeZero
      (if suffix.isEmpty then ⟨"", [some '!']⟩ else ⟨"!", suffix⟩, behind)

/-- A tag between angle brackets, which stands for itself. -/
def verbatim? (cursor : Cursor) : Option (Tag × Cursor) :=
  match someChars? true (cursor.skip 2) with
  | none => none
  | some (chars, behind) =>
    if behind.at? '>' then some (⟨"", chars.beforeZero⟩, behind.next) else none

/-- The tag that begins here, and the place behind it. -/
def read? (inFlow : Bool) (cursor : Cursor) : Option (Tag × Cursor) :=
  (if cursor.next.at? '<' then verbatim? cursor else short? cursor).filter fun (_, behind) =>
    behind.isSpaced 0 || inFlow && behind.at? ','

end Tag

namespace Directive

/-- A number of at most nine digits, and the place behind it. -/
def number? (cursor : Cursor) : Option (Nat × Cursor) :=
  let digits := cursor.rest.takeWhile Text.isDigit
  if digits.isEmpty || 9 < digits.length then none
  else some (Text.decimalValue digits, cursor.skip digits.length)

/-- The numbers of a version. -/
def version? (cursor : Cursor) : Option (Token × Cursor) :=
  match number? cursor with
  | none => none
  | some (major, behind) =>
    if behind.at? '.' then
      (number? behind.next).map fun (minor, behind) => (.version major minor, behind)
    else none

/-- A handle and what it stands for. -/
def meaning? (cursor : Cursor) : Option (Token × Cursor) :=
  if !cursor.at? '!' then none
  else
    let (name, behind) := Tag.handleChars cursor
    if !(Tag.isClosed name || name == ['!']) || !(behind.rest.head?.any isBlank) then none
    else
      match Tag.someChars? true (behind.skipWhile isBlank) with
      | none => none
      | some (meaning, behind) =>
        if behind.isSpaced 0 then
          some (.handle (String.ofList name) meaning.beforeZero, behind)
        else none

/-- The directive that fills the line from here on, and the place behind the line. -/
def read? (cursor : Cursor) : Option (Token × Cursor) :=
  let name := cursor.next.rest.takeWhile isNameChar
  let behind := cursor.skip (1 + name.length)
  let value := behind.skipWhile isBlank
  let found :=
    if !behind.isSpaced 0 then none
    else if String.ofList name = "YAML" then version? value
    else if String.ofList name = "TAG" then meaning? value
    else none
  match found with
  | none => none
  | some (token, behind) =>
    let behind := (behind.skipWhile isBlank).skipComment
    if behind.atLineEnd then some (token, behind.next) else none

end Directive

end Chiptune.Markup
