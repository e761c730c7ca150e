import Chiptune.Fault
import Chiptune.Register

/-!
# Arguments of statements

The words behind a keyword: how many there may be, and those that are numbers,
tracks or pairs.
-/

namespace Chiptune.Argument

/-- Demand from `least` to `most` arguments. -/
def count (keyword : String) (arguments : List String) (least most : Nat) (form : String) :
    Except Fault Unit :=
  if least ≤ arguments.length ∧ arguments.length ≤ most then .ok ()
  else if form.isEmpty then .error (.takesNoArguments keyword)
  else .error (.usage (keyword ++ " " ++ form))

/-- The only argument. -/
def single (keyword : String) (arguments : List String) (form : String) :
    Except Fault String :=
  match arguments with
  | [argument] => .ok argument
  | _ => .error (.usage (keyword ++ " " ++ form))

/-- A whole number of 64 bits. -/
def number (what word : String) : Except Fault Int :=
  match Text.int64? word with
  | some value => .ok value
  | none => .error (.argumentNotNumber what word)

/-- A number of rows to the whole note. A number out of bounds counts as zero. -/
def scale (word : String) : Except Fault Nat :=
  (number "scale" word).map fun value =>
    if 0 ≤ value ∧ value ≤ Int.ofNat Text.maxNat32 then value.toNat else 0

/-- A track. -/
def track (word : String) : Except Fault Track :=
  match Track.ofName? word with
  | some track => .ok track
  | none => .error (.unknownTrack word)

/-- Words taken two by two; an odd number of them makes no pairs. -/
def pairs? : List String → Option (List (String × String))
  | [] => some []
  | [_] => none
  | first :: second :: rest => (pairs? rest).map ((first, second) :: ·)

/-- What the pairs behind a name say. -/
structure Options where
  track : Option Track
  instrument : Option String
  /-- The semitones up, less those down. -/
  transpose : Int
deriving DecidableEq, Repr, Inhabited

/-- Take one pair into account; `moves` says whether transposing is allowed. -/
def option (moves : Bool) (form : String) (options : Options) (pair : String × String) :
    Except Fault Options :=
  match pair with
  | ("on", word) => (track word).map fun track => { options with track := some track }
  | ("with", word) => .ok { options with instrument := some word }
  | (word, amount) =>
    if moves && word == "up" then
      (number "transpose" amount).map fun n =>
        { options with transpose := Register.int64 (options.transpose + n) }
    else if moves && word == "down" then
      (number "transpose" amount).map fun n =>
        { options with transpose := Register.int64 (options.transpose - n) }
    else .error (.usage form)

/-- A name and the pairs behind it. -/
def named (moves : Bool) (form : String) (arguments : List String) :
    Except Fault (String × Options) :=
  match arguments with
  | [] => .error (.usage form)
  | name :: rest =>
    match pairs? rest with
    | none => .error (.usage form)
    | some pairs =>
      (pairs.foldlM (option moves form) ⟨none, none, 0⟩).map fun options => (name, options)

end Chiptune.Argument
