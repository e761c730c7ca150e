import Chiptune.Markup.Block
import Chiptune.Markup.Plain
import Chiptune.Markup.Property

/-!
# Lexers

A lexer cuts a document into tokens. Blocks begin and end with the columns of their
lines. That a text is a key shows only at the colon behind it; so the lexer remembers
where a key may have begun, and puts the token of a key there when the colon comes.
-/

namespace Chiptune.Markup

/-- A place at which a key may have begun. -/
structure Candidate where
  /-- Whether only a key can stand there. -/
  required : Bool
  /-- The number of tokens before it. -/
  before : Nat
  line : Nat
  column : Nat
  offset : Nat
deriving DecidableEq, Repr, Inhabited

/-- A document while it is cut into tokens. -/
structure Lexer where
  cursor : Cursor
  /-- The tokens, last first. -/
  tokens : List Token
  /-- The least columns of what lies in the open blocks, innermost first. -/
  margins : List Nat
  /-- Where a key may have begun between the innermost brackets. -/
  candidate : Option Candidate
  /-- The same between the brackets around those. -/
  outer : List (Option Candidate)
  /-- Whether a key may begin here. -/
  keyAllowed : Bool
deriving Repr, Inhabited

namespace Lexer

/-- The beginning of a text. -/
def start (text : String) : Lexer := ⟨.ofText text, [], [], none, [], true⟩

/-- Whether brackets are open. -/
def inFlow (lexer : Lexer) : Bool := !lexer.outer.isEmpty

/-- The least column of what lies in the innermost block. -/
def margin (lexer : Lexer) : Nat := lexer.margins.headD 0

/-- Add a token. -/
def emit (lexer : Lexer) (token : Token) : Lexer := { lexer with tokens := token :: lexer.tokens }

/-- Add a token and go behind some characters. -/
def emitOver (lexer : Lexer) (token : Token) (count : Nat) : Lexer :=
  { lexer.emit token with cursor := lexer.cursor.skip count }

/-- Put a token behind the first `count` ones. -/
def insert (lexer : Lexer) (count : Nat) (token : Token) : Lexer :=
  let later := lexer.tokens.length - count
  { lexer with tokens := lexer.tokens.take later ++ token :: lexer.tokens.drop later }

/-! ## Blocks -/

/-- Close the blocks whose margins are greater than `limit`. Between brackets there are
none. -/
def closeBlocks (lexer : Lexer) (limit : Nat) : Lexer :=
  if lexer.inFlow then lexer
  else
    let closed := (lexer.margins.takeWhile fun margin => limit < margin).length
    { lexer with
      tokens := List.replicate closed .blockEnd ++ lexer.tokens
      margins := lexer.margins.drop closed }

/-- Open a block at a column behind the first `count` tokens, if it lies deeper than the
one around it. -/
def openBlock (lexer : Lexer) (token : Token) (column count : Nat) : Lexer :=
  if lexer.inFlow || column < lexer.margin then lexer
  else { lexer.insert count token with margins := (column + 1) :: lexer.margins }

/-- Open a block here. -/
def openBlockHere (lexer : Lexer) (token : Token) : Lexer :=
  lexer.openBlock token lexer.cursor.column lexer.tokens.length

/-! ## Where a key may have begun -/

/-- The most bytes from the beginning of a key to its colon. -/
def longestKey : Nat := 1024

/-- Whether a key that began at a candidate would go on too far. -/
def isStale (lexer : Lexer) (candidate : Candidate) : Bool :=
  candidate.line < lexer.cursor.line || candidate.offset + longestKey < lexer.cursor.offset

/-- A candidate unless it is stale. -/
def keep (lexer : Lexer) (candidate : Option Candidate) : Option Candidate :=
  candidate.filter fun candidate => !lexer.isStale candidate

/-- Drop the stale candidates, none of which may be required. -/
def dropStale (lexer : Lexer) : Option Lexer :=
  let candidates := lexer.candidate :: lexer.outer
  if candidates.any fun candidate => candidate.any fun c => c.required && lexer.isStale c then none
  else
    some { lexer with
      candidate := lexer.keep lexer.candidate
      outer := lexer.outer.map lexer.keep }

/-- Give up the candidate, which must not be required. -/
def dropCandidate (lexer : Lexer) : Option Lexer :=
  if lexer.candidate.any Candidate.required then none
  else some { lexer with candidate := none }

/-- Remember that a key may begin here, and that none may begin next. -/
def rememberKey (lexer : Lexer) : Option Lexer :=
  if !lexer.keyAllowed then some lexer
  else
    lexer.dropCandidate.map fun next =>
      { next with
        candidate := some
          { required := !lexer.inFlow && lexer.margin == lexer.cursor.column + 1
            before := lexer.tokens.length
            line := lexer.cursor.line
            column := lexer.cursor.column
            offset := lexer.cursor.offset }
        keyAllowed := false }

/-! ## Tokens -/

/-- Pass over blanks, comments and line breaks. Tabs are passed over only where they
cannot be taken for indentation, and a byte order mark only at the start of a line. -/
def passGaps : Nat → Lexer → Lexer
  | 0, lexer => lexer
  | fuel + 1, lexer =>
    let cursor := lexer.cursor
    let cursor := if cursor.column == 0 && cursor.at? '\ufeff' then cursor.next else cursor
    let tabs := lexer.inFlow || !lexer.keyAllowed
    let cursor := (cursor.skipWhile fun c => c == ' ' || tabs && c == '\t').skipComment
    if cursor.atLineEnd && !cursor.rest.isEmpty then
      passGaps fuel
        { lexer with
          cursor := cursor.next
          keyAllowed := lexer.keyAllowed || !lexer.inFlow }
    else { lexer with cursor := cursor }

/-- A token that closes all blocks, as marks and directives do. -/
def atMargin (lexer : Lexer) (token : Token) (behind : Cursor) : Option Lexer :=
  (lexer.closeBlocks 0).dropCandidate.map fun lexer =>
    { lexer.emit token with cursor := behind, keyAllowed := false }

/-- An opening bracket. -/
def openFlow (lexer : Lexer) (token : Token) : Option Lexer :=
  lexer.rememberKey.map fun lexer =>
    { lexer.emitOver token 1 with
      candidate := none
      outer := lexer.candidate :: lexer.outer
      keyAllowed := true }

/-- A closing bracket. -/
def closeFlow (lexer : Lexer) (token : Token) : Option Lexer :=
  lexer.dropCandidate.map fun lexer =>
    { lexer.emitOver token 1 with
      candidate := lexer.outer.headD none
      outer := lexer.outer.drop 1
      keyAllowed := false }

/-- A comma. -/
def comma (lexer : Lexer) : Option Lexer :=
  lexer.dropCandidate.map fun lexer => { lexer.emitOver .comma 1 with keyAllowed := true }

/-- The dash of an entry. -/
def dash (lexer : Lexer) : Option Lexer :=
  if !lexer.inFlow && !lexer.keyAllowed then none
  else
    (lexer.openBlockHere .sequenceBlock).dropCandidate.map fun lexer =>
      { lexer.emitOver .dash 1 with keyAllowed := true }

/-- The question mark before a key. -/
def key (lexer : Lexer) : Option Lexer :=
  if !lexer.inFlow && !lexer.keyAllowed then none
  else
    (lexer.openBlockHere .mappingBlock).dropCandidate.map fun lexer =>
      { lexer.emitOver .key 1 with keyAllowed := !lexer.inFlow }

/-- The colon before a value: behind a candidate, which is a key then, or behind a
question mark. -/
def value (lexer : Lexer) : Option Lexer :=
  match lexer.candidate with
  | some candidate =>
    let lexer := lexer.insert candidate.before .key
    let lexer := lexer.openBlock .mappingBlock candidate.column candidate.before
    some { lexer.emitOver .value 1 with candidate := none, keyAllowed := false }
  | none =>
    if !lexer.inFlow && !lexer.keyAllowed then none
    else
      let lexer := lexer.openBlockHere .mappingBlock
      some { lexer.emitOver .value 1 with keyAllowed := !lexer.inFlow }

/-- A name behind a mark. -/
def named (lexer : Lexer) (token : String → Token) : Option Lexer :=
  match lexer.rememberKey, name? lexer.cursor with
  | some lexer, some (name, behind) =>
    some { lexer.emit (token name) with cursor := behind, keyAllowed := false }
  | _, _ => none

/-- A tag. -/
def tag (lexer : Lexer) : Option Lexer :=
  match lexer.rememberKey, Tag.read? lexer.inFlow lexer.cursor with
  | some lexer, some (tag, behind) =>
    some { lexer.emit (.tag tag) with cursor := behind, keyAllowed := false }
  | _, _ => none

/-- A block text. -/
def block (lexer : Lexer) (literal : Bool) : Option Lexer :=
  match lexer.dropCandidate, Block.read? literal lexer.margin lexer.cursor.next with
  | some lexer, some (text, behind) =>
    let style : ScalarStyle := if literal then .literal else .folded
    some
      { lexer.emit (.scalar style (String.ofList text)) with cursor := behind, keyAllowed := true }
  | _, _ => none

/-- A text between quotes. -/
def quoted (lexer : Lexer) (quote : Char) : Option Lexer :=
  match lexer.rememberKey, Quoted.read? quote lexer.cursor with
  | some lexer, some (text, behind) =>
    some
      { lexer.emit (.scalar .quoted (String.ofList text)) with
        cursor := behind
        keyAllowed := false }
  | _, _ => none

/-- A plain text. A key may begin behind it if a line break follows it. -/
def plain (lexer : Lexer) : Option Lexer :=
  match lexer.rememberKey, Plain.read? lexer.inFlow lexer.margin lexer.cursor with
  | some lexer, some (text, broken, behind) =>
    some
      { lexer.emit (.scalar .plain (String.ofList text)) with
        cursor := behind
        keyAllowed := broken }
  | _, _ => none

/-- Take the token that begins with `c`. -/
def take (lexer : Lexer) (c : Char) : Option Lexer :=
  let cursor := lexer.cursor
  let apart := lexer.inFlow || cursor.isSpaced 1
  if cursor.column == 0 && c == '%' then
    (Directive.read? cursor).bind fun (token, behind) => lexer.atMargin token behind
  else if cursor.atMark '-' then lexer.atMargin .documentStart (cursor.skip 3)
  else if cursor.atMark '.' then lexer.atMargin .documentEnd (cursor.skip 3)
  else if c == '[' then lexer.openFlow .sequenceOpen
  else if c == '\x7b' then lexer.openFlow .mappingOpen
  else if c == ']' then lexer.closeFlow .sequenceClose
  else if c == '\x7d' then lexer.closeFlow .mappingClose
  else if c == ',' then lexer.comma
  else if c == '-' && cursor.isSpaced 1 then lexer.dash
  else if c == '?' && apart then lexer.key
  else if c == ':' && apart then lexer.value
  else if c == '*' then lexer.named .alias
  else if c == '&' then lexer.named .anchor
  else if c == '!' then lexer.tag
  else if c == '|' && !lexer.inFlow then lexer.block true
  else if c == '>' && !lexer.inFlow then lexer.block false
  else if c == '\'' || c == '"' then lexer.quoted c
  else if Plain.mayStart lexer.inFlow cursor then lexer.plain
  else none

/-- The tokens from here to the end of the text. -/
def run : Nat → Lexer → Option (List Token)
  | 0, _ => none
  | fuel + 1, lexer =>
    match (passGaps (lexer.cursor.rest.length + 1) lexer).dropStale with
    | none => none
    | some lexer =>
      let lexer := lexer.closeBlocks (lexer.cursor.column + 1)
      match lexer.cursor.rest with
      | [] => (lexer.closeBlocks 0).dropCandidate.map fun lexer => lexer.tokens.reverse
      | c :: _ => (lexer.take c).bind (run fuel)

end Lexer

/-- The tokens of a document, if it can be cut into tokens. -/
def tokens? (text : String) : Option (List Token) :=
  if text.toList.all isPrintable then Lexer.run (text.length + 1) (.start text) else none

end Chiptune.Markup
