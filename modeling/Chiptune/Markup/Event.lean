import Chiptune.Markup.Token

/-!
# Events

A document as a list of events: texts and aliases, and the beginnings and ends of
sequences and mappings. The grammar is kept as a list of goals: each goal takes what
it can from the tokens, and leaves events and further goals.
-/

namespace Chiptune.Markup

/-- The name and the tag of a node. -/
structure Properties where
  anchor : Option String
  tag : Option TagText
deriving DecidableEq, Repr, Inhabited

/-- Neither name nor tag. -/
def Properties.none : Properties := ⟨.none, .none⟩

/-- The events of a document. -/
inductive Event where
  | alias (name : String)
  | scalar (properties : Properties) (style : ScalarStyle) (text : String)
  | sequenceStart (properties : Properties)
  | sequenceEnd
  | mappingStart (properties : Properties)
  | mappingEnd
deriving DecidableEq, Repr, Inhabited

/-- The text that stands for nothing. -/
def Event.empty : Event := .scalar .none .plain ""

/-- What the handles of tags stand for. -/
abbrev Handles := List (String × TagText)

/-- The whole tag, if its handle stands for something. -/
def Tag.whole? (handles : Handles) (tag : Tag) : Option TagText :=
  if tag.handle.isEmpty then some tag.suffix
  else (handles.lookup tag.handle).map (· ++ tag.suffix)

/-- What is to come in a document. -/
inductive Goal where
  /-- A node, in a block if `inBlock`; a sequence may lack a block of its own if
  `bare`. -/
  | node (inBlock bare : Bool)
  | blockEntries
  /-- The entries of a sequence without a block of its own. -/
  | bareEntries
  | blockKeys
  | blockValue
  | flowEntries (first : Bool)
  | pairKey
  | pairValue
  | pairEnd
  | flowKeys (first : Bool)
  | flowValue
  | missingValue
deriving DecidableEq, Repr, Inhabited

namespace Goal

/-- What reaching a goal gives: events, further goals and the tokens that are left. -/
abbrev Result := Option (List Event × List Goal × List Token)

/-- The name and the tag at the head of the tokens. -/
def properties? (handles : Handles) : List Token → Option (Properties × List Token)
  | .anchor name :: .tag tag :: rest =>
    (tag.whole? handles).map fun tag => (⟨some name, some tag⟩, rest)
  | .anchor name :: rest => some (⟨some name, none⟩, rest)
  | .tag tag :: .anchor name :: rest =>
    (tag.whole? handles).map fun tag => (⟨some name, some tag⟩, rest)
  | .tag tag :: rest => (tag.whole? handles).map fun tag => (⟨none, some tag⟩, rest)
  | tokens => some (.none, tokens)

/-- A node behind its name and tag. -/
def content (inBlock bare : Bool) (properties : Properties) (tokens : List Token) : Result :=
  let nothing : Result :=
    if properties = .none then none else some ([.scalar properties .plain ""], [], tokens)
  match tokens with
  | .dash :: _ =>
    if bare then some ([.sequenceStart properties], [bareEntries], tokens) else nothing
  | .scalar style text :: rest => some ([.scalar properties style text], [], rest)
  | .sequenceOpen :: rest => some ([.sequenceStart properties], [flowEntries true], rest)
  | .mappingOpen :: rest => some ([.mappingStart properties], [flowKeys true], rest)
  | .sequenceBlock :: rest =>
    if inBlock then some ([.sequenceStart properties], [blockEntries], rest) else nothing
  | .mappingBlock :: rest =>
    if inBlock then some ([.mappingStart properties], [blockKeys], rest) else nothing
  | _ => nothing

/-- A node, or the empty text if one of the tokens in `ends` comes next. -/
def nodeUnless (ends : List Token) (inBlock bare : Bool) (next : Goal) (tokens : List Token) :
    Result :=
  if tokens.head?.any ends.contains then some ([.empty], [next], tokens)
  else some ([], [node inBlock bare, next], tokens)

/-- The key of an entry between braces, behind its comma. -/
def flowKey : List Token → Result
  | .key :: rest => nodeUnless [.value, .comma, .mappingClose] false false flowValue rest
  | .mappingClose :: rest => some ([.mappingEnd], [], rest)
  | tokens => some ([], [node false false, missingValue], tokens)

/-- An entry between square brackets, behind its comma. -/
def flowEntry : List Token → Result
  | .key :: rest => some ([.mappingStart .none], [pairKey], rest)
  | .sequenceClose :: rest => some ([.sequenceEnd], [], rest)
  | tokens => some ([], [node false false, flowEntries false], tokens)

/-- Reach a goal. -/
def reach (handles : Handles) : Goal → List Token → Result
  | node _ _, .alias name :: rest => some ([.alias name], [], rest)
  | node inBlock bare, tokens =>
    (properties? handles tokens).bind fun (properties, rest) =>
      content inBlock bare properties rest
  | blockEntries, .dash :: rest => nodeUnless [.dash, .blockEnd] true false blockEntries rest
  | blockEntries, .blockEnd :: rest => some ([.sequenceEnd], [], rest)
  | blockEntries, _ => none
  | bareEntries, .dash :: rest =>
    nodeUnless [.dash, .key, .value, .blockEnd] true false bareEntries rest
  | bareEntries, tokens => some ([.sequenceEnd], [], tokens)
  | blockKeys, .key :: rest => nodeUnless [.key, .value, .blockEnd] true true blockValue rest
  | blockKeys, .blockEnd :: rest => some ([.mappingEnd], [], rest)
  | blockKeys, _ => none
  | blockValue, .value :: rest => nodeUnless [.key, .value, .blockEnd] true true blockKeys rest
  | blockValue, tokens => some ([.empty], [blockKeys], tokens)
  | flowEntries _, .sequenceClose :: rest => some ([.sequenceEnd], [], rest)
  | flowEntries true, tokens => flowEntry tokens
  | flowEntries false, .comma :: rest => flowEntry rest
  | flowEntries false, _ => none
  | pairKey, tokens =>
    if tokens.head?.any [Token.value, .comma, .sequenceClose].contains then
      some ([.empty], [pairValue], tokens.drop 1)
    else some ([], [node false false, pairValue], tokens)
  | pairValue, .value :: rest => nodeUnless [.comma, .sequenceClose] false false pairEnd rest
  | pairValue, tokens => some ([.empty], [pairEnd], tokens)
  | pairEnd, tokens => some ([.mappingEnd], [flowEntries false], tokens)
  | flowKeys _, .mappingClose :: rest => some ([.mappingEnd], [], rest)
  | flowKeys true, tokens => flowKey tokens
  | flowKeys false, .comma :: rest => flowKey rest
  | flowKeys false, _ => none
  | flowValue, .value :: rest =>
    nodeUnless [.comma, .mappingClose] false false (flowKeys false) rest
  | flowValue, tokens => some ([.empty], [flowKeys false], tokens)
  | missingValue, tokens => some ([.empty], [flowKeys false], tokens)

/-- Reach goals one after the other. The value is the events and the tokens left. -/
def reachAll (handles : Handles) : Nat → List Goal → List Token → Option (List Event × List Token)
  | _, [], tokens => some ([], tokens)
  | 0, _ :: _, _ => none
  | fuel + 1, goal :: goals, tokens =>
    match reach handles goal tokens with
    | none => none
    | some (events, further, tokens) =>
      (reachAll handles fuel (further ++ goals) tokens).map fun (later, rest) =>
        (events ++ later, rest)

end Goal

/-! ## Documents -/

/-- The handles that need no directive. -/
def usualHandles : Handles :=
  [("!", [some '!']), ("!!", .ofChars "tag:yaml.org,2002:".toList)]

/-- The handles given by the directives before a document. Only one version may be
given, a known one, and no handle twice. -/
def directives? : Bool → Handles → List Token → Option (Handles × List Token)
  | versioned, handles, .version major minor :: rest =>
    if versioned || major ≠ 1 || (minor ≠ 1 && minor ≠ 2) then none
    else directives? true handles rest
  | versioned, handles, .handle name meaning :: rest =>
    if (handles.lookup name).isSome then none
    else directives? versioned (handles ++ [(name, meaning)]) rest
  | _, handles, tokens => some (handles ++ usualHandles, tokens)

/-- Whether a document that begins with a mark has no content. -/
def hasNoContent : List Token → Bool
  | [] => true
  | .documentStart :: _ => true
  | .documentEnd :: _ => true
  | .version .. :: _ => true
  | .handle .. :: _ => true
  | _ => false

/-- The events of one node and the tokens left. -/
def nodeEvents? (handles : Handles) (tokens : List Token) : Option (List Event × List Token) :=
  Goal.reachAll handles (8 * tokens.length + 8) [.node true false] tokens

/-- The events of a document with its directives and its mark. -/
def markedEvents? (tokens : List Token) : Option (List Event × List Token) :=
  match directives? false [] tokens with
  | some (handles, .documentStart :: rest) =>
    if hasNoContent rest then some ([.empty], rest) else nodeEvents? handles rest
  | _ => none

/-- The events of the only document of a text. A text without tokens has none. -/
def events? (tokens : List Token) : Option (List Event) :=
  let isMarked :=
    match tokens with
    | .documentStart :: _ | .version .. :: _ | .handle .. :: _ => true
    | _ => false
  if tokens.isEmpty then some []
  else
    match if isMarked then markedEvents? tokens else nodeEvents? usualHandles tokens with
    | none => none
    | some (events, rest) => if rest.all (· == .documentEnd) then some events else none

end Chiptune.Markup
