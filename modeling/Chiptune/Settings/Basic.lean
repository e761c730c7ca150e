import Chiptune.Decimal.Reading
import Chiptune.Markup.Document
import Chiptune.Output.Listing

/-!
# Settings

The settings of the assembler, read from a document. A setting that the document
does not name keeps its usual value; a setting named twice, or with a value of the
wrong form, makes the document invalid.
-/

namespace Chiptune

/-- The settings of the assembler. -/
structure Settings where
  segment : String
  engineInclude : String
  region : Region
  periods : Nat
  tuning : Float
  /-- Whether warnings count as errors. -/
  strict : Bool
  depthLimit : Nat
deriving Inhabited

namespace Settings

/-- The settings unless others are given. -/
def usual : Settings :=
  { segment := "RODATA"
    engineInclude := "pentlyseq.inc"
    region := .ntsc
    periods := 0
    tuning := 440.0
    strict := false
    depthLimit := Reader.usualDepth }

/-- The options of a listing of the named source. -/
def listingOptions (settings : Settings) (sourceName : String) : Output.Options :=
  ⟨settings.segment, settings.engineInclude, sourceName, settings.periods, settings.region,
    settings.tuning⟩

/-- A number in the given base, all of whose digits are below it. -/
def inBase? (base : Nat) (digits : List Char) : Option Nat :=
  if digits.isEmpty then none
  else
    digits.foldlM (fun n c =>
      match Text.hexValue? c with
      | some digit => if digit < base then some (base * n + digit) else none
      | none => none) 0

/-- A whole number in decimal without leading zeros, or in another base behind its mark.
A plus sign may stand before it. -/
def natural? (text : String) : Option Nat :=
  let cs :=
    match text.toList with
    | '+' :: rest => rest
    | cs => cs
  match cs with
  | '0' :: 'x' :: digits => inBase? 16 digits
  | '0' :: 'o' :: digits => inBase? 8 digits
  | '0' :: 'b' :: digits => inBase? 2 digits
  | '0' :: _ :: _ => none
  | digits => inBase? 10 digits

/-- A finite decimal. -/
def finite? (text : String) : Option Float :=
  (Decimal.float? text).filter Float.isFinite

/-- A decimal, or one of the words for infinity and not-a-number. A plus sign may stand
before it, and no second sign behind that one. -/
def decimal? (text : String) : Option Float :=
  if [".inf", ".Inf", ".INF", "+.inf", "+.Inf", "+.INF"].contains text then some (1.0 / 0.0)
  else if ["-.inf", "-.Inf", "-.INF"].contains text then some (-1.0 / 0.0)
  else if [".nan", ".NaN", ".NAN"].contains text then some (0.0 / 0.0)
  else
    match text.toList with
    | '+' :: '+' :: _ => none
    | '+' :: '-' :: _ => none
    | '+' :: rest => finite? (String.ofList rest)
    | _ => finite? text

/-- A truth value. -/
def truth? (text : String) : Option Bool :=
  if ["true", "True", "TRUE"].contains text then some true
  else if ["false", "False", "FALSE"].contains text then some false
  else none

/-- The tag of a kind of values that the markup knows. -/
def kindTag (kind : String) : Markup.TagText := .ofChars ("tag:yaml.org,2002:" ++ kind).toList

/-- The text of a scalar. -/
def textOf? : Markup.Value → Option String
  | .scalar scalar => some scalar.text
  | .collection => none

/-- The text of a scalar that may be a number or a truth value: a plain one, or a block
with the tag of its kind. -/
def plainOf? (kind : String) : Markup.Value → Option String
  | .scalar ⟨tag, style, text⟩ =>
    if style = .plain || style = .literal && tag = some (kindTag kind) then some text else none
  | .collection => none

/-- The name in a tag behind an exclamation mark, if it can be read. -/
def tagName? : Option Markup.TagText → Option String
  | some [some '!'] => some "!"
  | some (some '!' :: name) => Markup.TagText.text? name
  | _ => none

/-- A region, given by its name or, with no text, by a tag. -/
def regionOf? : Markup.Value → Option Region
  | .collection => none
  | .scalar ⟨tag, style, text⟩ =>
    match tagName? tag with
    | none => Region.ofName? text
    | some name =>
      if style = .plain && ["", "~", "null", "Null", "NULL"].contains text then
        Region.ofName? name
      else none

/-- Give a setting its value. A key that names no setting changes nothing. -/
def assign (settings : Settings) (key : String) (value : Markup.Value) : Option Settings :=
  if key = "segment" then
    (textOf? value).map fun text => { settings with segment := text }
  else if key = "engine_include" then
    (textOf? value).map fun text => { settings with engineInclude := text }
  else if key = "period_region" then
    (regionOf? value).map fun region => { settings with region := region }
  else if key = "periods" then
    (((plainOf? "int" value).bind natural?).filter (· ≤ Text.maxNat32)).map fun n =>
      { settings with periods := n }
  else if key = "tuning" then
    ((plainOf? "float" value).bind decimal?).map fun x => { settings with tuning := x }
  else if key = "strict" then
    ((plainOf? "bool" value).bind truth?).map fun b => { settings with strict := b }
  else if key = "max_include_depth" then
    (((plainOf? "int" value).bind natural?).filter (· ≤ Text.maxNat64)).map fun n =>
      { settings with depthLimit := n }
  else some settings

/-- The keys of settings. -/
def keys : List String :=
  ["segment", "engine_include", "period_region", "periods", "tuning", "strict",
    "max_include_depth"]

/-- Give settings their values in order; `given` are those that have theirs. -/
def assignAll (settings : Settings) (given : List String) :
    List (Markup.Value × Markup.Value) → Option Settings
  | [] => some settings
  | (key, value) :: entries =>
    match textOf? key with
    | none => none
    | some key =>
      if given.contains key then none
      else
        match settings.assign key value with
        | none => none
        | some next =>
          next.assignAll (if keys.contains key then key :: given else given) entries

/-- The settings that a document gives. -/
def read? (text : String) : Option Settings :=
  (Markup.entries? text).bind fun entries => usual.assignAll [] entries

/-- Why settings cannot be had. -/
inductive Problem where
  | unreadable (path : String) (failure : ReadFailure)
  | invalid (path : String)
deriving DecidableEq, Repr, Inhabited

/-- The problem in short. -/
def Problem.headline : Problem → String
  | unreadable path _ => "cannot read config " ++ path
  | invalid path => "invalid config " ++ path

/-- The problem with its cause. -/
def Problem.text (problem : Problem) : String :=
  match problem with
  | unreadable _ failure => problem.headline ++ ": " ++ failure.text
  | invalid _ => problem.headline

/-- The settings file of a working directory. -/
def localPath : String := "pentlyas.yaml"

/-- The settings file of a user, seen from the home directory. -/
def userPath (home : String) : String :=
  Path.join (Path.join home ".pentlyas") "config.yaml"

/-- Where settings are looked for. -/
structure Sources where
  read : String → Except ReadFailure String
  /-- Whether something stands at a path. -/
  present : String → Bool
  home : Option String

/-- The settings in a file that must be good. -/
def load (sources : Sources) (path : String) : Except Problem Settings :=
  match sources.read path with
  | .error failure => .error (.unreadable path failure)
  | .ok text =>
    match read? text with
    | some settings => .ok settings
    | none => .error (.invalid path)

/-- The settings of a user; a file that is not good is passed over. -/
def loadUser (sources : Sources) : Settings :=
  match sources.home with
  | none => usual
  | some home =>
    match load sources (userPath home) with
    | .ok settings => settings
    | .error _ => usual

/-- The settings of the given file, else of the working directory, else of the user. -/
def discover (sources : Sources) (path : Option String) : Except Problem Settings :=
  match path with
  | some path => load sources path
  | none =>
    if sources.present localPath then load sources localPath else .ok (loadUser sources)

end Settings

end Chiptune
