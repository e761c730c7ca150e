import Chiptune.Decimal.Reading
import Chiptune.Periods
import Chiptune.Text.Cut

/-!
# Command-line arguments

An argument is a source, an option with a value, or a flag. A long option takes
its value from the next argument or behind an equals sign; short ones may be
joined, and the last of them may take its value right behind it.
-/

namespace Chiptune.Command

/-- What the arguments ask for. -/
structure Arguments where
  source : Option String
  output : Option String
  periods : Option Nat
  region : Option Region
  tuning : Option Float
  segment : Option String
  constants : Option String
  strict : Bool
  dump : Bool
  settings : Option String
  verbose : Nat
deriving Inhabited

/-- Nothing is asked for. -/
def Arguments.blank : Arguments :=
  ⟨none, none, none, none, none, none, none, false, false, none, 0⟩

/-- The options that take a value. -/
inductive ValueOption where
  | output
  | periods
  | region
  | tuning
  | segment
  | constants
  | settings
deriving DecidableEq, Repr, Inhabited

namespace ValueOption

/-- The option with the given long name. -/
def ofLong? (name : String) : Option ValueOption :=
  [("periods", periods), ("period-region", region), ("tuning", tuning),
    ("segment", segment), ("write-inc", constants), ("config", settings)].lookup name

/-- Give an option a path, which is not empty and not given twice. -/
def path? (previous : Option String) (value : String) : Option (Option String) :=
  if previous.isSome || value.isEmpty then none else some (some value)

/-- A count that may carry a sign; minus zero is zero. -/
def count? (value : String) : Option Nat :=
  match Text.int64? value with
  | some n => if 0 ≤ n ∧ n.toNat ≤ Text.maxNat32 then some n.toNat else none
  | none => none

/-- Give the option a value. A value of the wrong form, or a second one, is refused. -/
def assign (arguments : Arguments) : ValueOption → String → Option Arguments
  | output, value =>
    (path? arguments.output value).map fun path => { arguments with output := path }
  | constants, value =>
    (path? arguments.constants value).map fun path => { arguments with constants := path }
  | settings, value =>
    (path? arguments.settings value).map fun path => { arguments with settings := path }
  | periods, value =>
    if arguments.periods.isSome then none
    else (count? value).map fun n => { arguments with periods := some n }
  | region, value =>
    if arguments.region.isSome then none
    else (Region.ofName? value).map fun region => { arguments with region := some region }
  | tuning, value =>
    if arguments.tuning.isSome then none
    else (Decimal.float? value).map fun x => { arguments with tuning := some x }
  | segment, value =>
    if arguments.segment.isSome then none
    else some { arguments with segment := some value }

end ValueOption

/-- Set the flag with the given long name. A flag may be given once. -/
def longFlag? (arguments : Arguments) (name : String) : Option Arguments :=
  if name = "strict" then
    if arguments.strict then none else some { arguments with strict := true }
  else if name = "dump-json" then
    if arguments.dump then none else some { arguments with dump := true }
  else if name = "verbose" then some { arguments with verbose := arguments.verbose + 1 }
  else none

/-- Take a source, of which there is at most one. -/
def takeSource? (arguments : Arguments) (word : String) : Option Arguments :=
  if arguments.source.isSome then none else some { arguments with source := some word }

/-- Whether a word may be the value of an option: it does not look like an option. -/
def isValue (word : String) : Bool := !(word.startsWith "-") || word == "-"

/-- What is left to do after a word. -/
inductive Pending where
  | done (arguments : Arguments)
  /-- The next word is the value of an option. -/
  | awaits (option : ValueOption) (arguments : Arguments)

/-- Read joined short options. -/
def shortOptions? (arguments : Arguments) : List Char → Option Pending
  | [] => some (.done arguments)
  | 'v' :: rest => shortOptions? { arguments with verbose := arguments.verbose + 1 } rest
  | ['o'] => some (.awaits .output arguments)
  | 'o' :: '=' :: value =>
    (ValueOption.output.assign arguments (String.ofList value)).map .done
  | 'o' :: value => (ValueOption.output.assign arguments (String.ofList value)).map .done
  | _ => none

/-- Read a long option without its dashes. -/
def longOption? (arguments : Arguments) (text : String) : Option Pending :=
  match Text.cut? '=' text with
  | some (name, value) =>
    (ValueOption.ofLong? name).bind fun option => (option.assign arguments value).map .done
  | none =>
    match ValueOption.ofLong? text with
    | some option => some (.awaits option arguments)
    | none => (longFlag? arguments text).map .done

/-- Read one word. -/
def word? (arguments : Arguments) (word : String) : Option Pending :=
  match word.toList with
  | '-' :: '-' :: rest => longOption? arguments (String.ofList rest)
  | ['-'] => (takeSource? arguments word).map .done
  | '-' :: rest => shortOptions? arguments rest
  | _ => (takeSource? arguments word).map .done

/-- Read sources only, as behind two dashes. -/
def sources? (arguments : Arguments) (words : List String) : Option Arguments :=
  words.foldlM takeSource? arguments

/-- Read the words behind those that were read. -/
def readFrom? (arguments : Arguments) : List String → Option Arguments
  | [] => some arguments
  | "--" :: words => sources? arguments words
  | word :: words =>
    match word? arguments word with
    | none => none
    | some (.done next) => readFrom? next words
    | some (.awaits option next) =>
      match words with
      | [] => none
      | value :: words =>
        if isValue value then
          match option.assign next value with
          | some next => readFrom? next words
          | none => none
        else none

/-- Read the arguments of a command line; none if they are misused. -/
def Arguments.read? (words : List String) : Option Arguments := readFrom? .blank words

end Chiptune.Command
