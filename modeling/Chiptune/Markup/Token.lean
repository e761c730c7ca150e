/-!
# Tokens

The tokens of a document: its marks and brackets, the beginnings and ends of its
blocks, and its texts with their names and tags.
-/

namespace Chiptune.Markup

/-- How a text is written. -/
inductive ScalarStyle where
  | plain
  | quoted
  /-- A block whose lines are kept. -/
  | literal
  /-- A block whose lines are joined. -/
  | folded
deriving DecidableEq, Repr, Inhabited

/-- The characters of a tag or of a part of one; `none` stands for octets that make no
character. -/
abbrev TagText := List (Option Char)

namespace TagText

/-- The characters of a text. -/
def ofChars (chars : List Char) : TagText := chars.map some

/-- The text, if all octets make characters. -/
def text? (tag : TagText) : Option String := (tag.mapM id).map String.ofList

/-- The part before the first zero. -/
def beforeZero (tag : TagText) : TagText := tag.takeWhile (· != some (Char.ofNat 0))

end TagText

/-- A tag as written: its handle stands for the first part of the tag. -/
structure Tag where
  handle : String
  suffix : TagText
deriving DecidableEq, Repr, Inhabited

/-- The tokens of a document. -/
inductive Token where
  | version (major minor : Nat)
  /-- What a handle stands for. -/
  | handle (name : String) (meaning : TagText)
  | documentStart
  | documentEnd
  | sequenceBlock
  | mappingBlock
  | blockEnd
  | sequenceOpen
  | sequenceClose
  | mappingOpen
  | mappingClose
  | dash
  | comma
  | key
  | value
  | alias (name : String)
  | anchor (name : String)
  | tag (tag : Tag)
  | scalar (style : ScalarStyle) (text : String)
deriving DecidableEq, Repr, Inhabited

end Chiptune.Markup
