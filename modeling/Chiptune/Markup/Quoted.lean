import Chiptune.Markup.Cursor
import Chiptune.Text.Numeral

/-!
# Quoted texts

Texts between quotes. Between single quotes, a quote is written twice; between double
quotes, a backslash begins an escape. A line break among blanks reads as one blank,
and of several line breaks the first is dropped.
-/

namespace Chiptune.Markup

/-- What blanks and line breaks between two words stand for. -/
def foldGap (gap : List Char) : List Char :=
  match gap.filter isBreak with
  | [] => gap
  | ['\n'] => [' ']
  | '\n' :: breaks => breaks
  | breaks => breaks

namespace Quoted

/-- The character that a letter behind a backslash stands for. -/
def escaped? : Char → Option Char
  | '0' => some (Char.ofNat 0)
  | 'a' => some (Char.ofNat 7)
  | 'b' => some (Char.ofNat 8)
  | 't' => some '\t'
  | '\t' => some '\t'
  | 'n' => some '\n'
  | 'v' => some (Char.ofNat 11)
  | 'f' => some (Char.ofNat 12)
  | 'r' => some '\r'
  | 'e' => some (Char.ofNat 27)
  | ' ' => some ' '
  | '"' => some '"'
  | '/' => some '/'
  | '\\' => some '\\'
  | 'N' => some (Char.ofNat 0x85)
  | '_' => some (Char.ofNat 0xA0)
  | 'L' => some (Char.ofNat 0x2028)
  | 'P' => some (Char.ofNat 0x2029)
  | _ => none

/-- The number of hexadecimal digits behind an escape letter. -/
def escapeWidth : Char → Nat
  | 'x' => 2
  | 'u' => 4
  | 'U' => 8
  | _ => 0

/-- The character with the given code point in `width` hexadecimal digits. -/
def codePoint? (width : Nat) (digits : List Char) : Option Char :=
  match digits.mapM Text.hexValue? with
  | none => none
  | some values =>
    let point := values.foldl (fun n digit => 16 * n + digit) 0
    if digits.length = width && point.isValidChar then some (Char.ofNat point) else none

/-- The characters of an escape and the number of characters behind its backslash. An
escaped line break stands for the further breaks among the blanks behind it. -/
def escape? : List Char → Option (List Char × Nat)
  | [] => none
  | c :: rest =>
    if isBreak c then
      let gap := rest.takeWhile isGap
      some (gap.filter isBreak, 1 + gap.length)
    else
      let width := escapeWidth c
      let char? := if width = 0 then escaped? c else codePoint? width (rest.take width)
      char?.map fun char => ([char], 1 + width)

/-- Read on in a text between quotes up to the place behind the closing one. `text`
holds what was read, last character first. -/
def readFrom (quote : Char) : Nat → List Char → Cursor → Option (List Char × Cursor)
  | 0, _, _ => none
  | fuel + 1, text, cursor =>
    if cursor.atMarker then none
    else
      match cursor.rest with
      | [] => none
      | c :: rest =>
        if isGap c then
          let gap := cursor.rest.takeWhile isGap
          readFrom quote fuel ((foldGap gap).reverse ++ text) (cursor.skip gap.length)
        else if c == quote then
          if quote == '\'' && rest.head? == some quote then
            readFrom quote fuel (quote :: text) (cursor.skip 2)
          else some (text.reverse, cursor.next)
        else if quote == '"' && c == '\\' then
          match escape? rest with
          | none => none
          | some (chars, width) =>
            readFrom quote fuel (chars.reverse ++ text) (cursor.skip (1 + width))
        else readFrom quote fuel (c :: text) cursor.next

/-- The text that begins with a quote here, and the place behind it. -/
def read? (quote : Char) (cursor : Cursor) : Option (List Char × Cursor) :=
  readFrom quote cursor.rest.length [] cursor.next

end Quoted

end Chiptune.Markup
