import Chiptune.Markup.Event
import Chiptune.Markup.Lexer

/-!
# Documents

A document for settings is a mapping of texts to values, or nothing. A value is a text
or a collection; what a collection holds does not matter. An alias stands for the
value with its name.
-/

namespace Chiptune.Markup

/-- A text with its tag. -/
structure Scalar where
  tag : Option TagText
  style : ScalarStyle
  text : String
deriving DecidableEq, Repr, Inhabited

/-- What stands as a key or behind one. -/
inductive Value where
  | scalar (scalar : Scalar)
  /-- A sequence or a mapping. -/
  | collection
deriving DecidableEq, Repr, Inhabited

/-- The value that an event begins; an alias and an end begin none. -/
def Event.value? : Event → Option Value
  | .scalar properties style text => some (.scalar ⟨properties.tag, style, text⟩)
  | .sequenceStart _ => some .collection
  | .mappingStart _ => some .collection
  | _ => none

/-- The name that an event gives to its value. -/
def Event.anchor? : Event → Option String
  | .scalar properties _ _ => properties.anchor
  | .sequenceStart properties => properties.anchor
  | .mappingStart properties => properties.anchor
  | _ => none

/-! ## Names -/

/-- The names of a document. A name has the number of names known when it was given
last, and a number stands for the value that it was given for last. -/
structure Names where
  numbers : List (String × Nat)
  values : List (Nat × Value)
deriving Repr, Inhabited

namespace Names

/-- No names. -/
def empty : Names := ⟨[], []⟩

/-- Give a name. -/
def give (names : Names) (name : String) (value : Value) : Names :=
  let number := names.numbers.length
  ⟨(name, number) :: names.numbers.filter (fun (other, _) => other != name),
    (number, value) :: names.values⟩

/-- The names behind an event. -/
def behind (names : Names) (event : Event) : Names :=
  match event.anchor?, event.value? with
  | some name, some value => names.give name value
  | _, _ => names

end Names

/-- A piece of a document: an event with the number of its alias. -/
structure Piece where
  event : Event
  target : Option Nat
deriving Repr, Inhabited

/-- The pieces of events, and all names. An alias must have been named before it. -/
def pieces? : Names → List Event → Option (List Piece × Names)
  | names, [] => some ([], names)
  | names, event :: events =>
    let target : Option (Option Nat) :=
      match event with
      | .alias name => (names.numbers.lookup name).map some
      | _ => some none
    match target, pieces? (names.behind event) events with
    | some target, some (pieces, last) => some (⟨event, target⟩ :: pieces, last)
    | _, _ => none

/-- The value that a piece begins. -/
def Piece.value? (names : Names) (piece : Piece) : Option Value :=
  match piece.target with
  | some number => names.values.lookup number
  | none => piece.event.value?

/-! ## Entries -/

/-- The pieces behind a value whose first piece is gone; `depth` collections are open. -/
def afterValue : Nat → List Piece → List Piece
  | 0, pieces => pieces
  | _ + 1, [] => []
  | depth + 1, piece :: pieces =>
    match piece.event with
    | .sequenceStart _ => afterValue (depth + 2) pieces
    | .mappingStart _ => afterValue (depth + 2) pieces
    | .sequenceEnd => afterValue depth pieces
    | .mappingEnd => afterValue depth pieces
    | _ => afterValue (depth + 1) pieces

/-- The values at the head of pieces, up to the end of the mapping around them. -/
def valuesFrom (names : Names) : Nat → List Piece → List Value
  | 0, _ => []
  | _ + 1, [] => []
  | fuel + 1, piece :: pieces =>
    match piece.value? names with
    | none => []
    | some value =>
      let opens := piece.target.isNone && value == .collection
      value :: valuesFrom names fuel (afterValue (if opens then 1 else 0) pieces)

/-- Keys and values taken from a list by turns. -/
def paired : List Value → List (Value × Value)
  | key :: value :: rest => (key, value) :: paired rest
  | _ => []

/-- The entries of the mapping that events stand for; the empty text has none. -/
def entriesOf? (events : List Event) : Option (List (Value × Value)) :=
  match pieces? .empty events with
  | none => none
  | some ([], _) => some []
  | some (piece :: pieces, names) =>
    match piece.event with
    | .mappingStart _ => some (paired (valuesFrom names (pieces.length + 1) pieces))
    | .scalar _ style text => if style = .plain && text.isEmpty then some [] else none
    | _ => none

/-- The entries of a document in order, if it is one. -/
def entries? (text : String) : Option (List (Value × Value)) :=
  ((tokens? text).bind events?).bind entriesOf?

end Chiptune.Markup
