import Chiptune.Field
import Chiptune.Text.Blank
import Chiptune.Text.Cut

/-!
# Envelopes

An envelope gives volume, timbre and pitch frame by frame. The volume list decides
how many frames there are. The other lists repeat the part after a bar until the
volume ends, or their last value if they have no bar.
-/

namespace Chiptune

/-- A list of values whose last `loopLength` values repeat. -/
structure Looped (α : Type) where
  steps : List α
  loopLength : Nat
deriving DecidableEq, Repr, Inhabited

namespace Looped

variable {α : Type}

/-- The next `count` values from place `index` on. Past the end the place goes back
by the length of the loop. -/
def expandFrom (looped : Looped α) : Nat → Nat → List α
  | _, 0 => []
  | index, count + 1 =>
    let place := if looped.steps.length ≤ index then index - looped.loopLength else index
    match looped.steps[place]? with
    | some value => value :: looped.expandFrom (place + 1) count
    | none => []

/-- The first `count` values. -/
def expand (looped : Looped α) (count : Nat) : List α := looped.expandFrom 0 count

/-- Split words at the first bar into one list and the length of its loop. Without a
bar the last value repeats. -/
def split (words : List String) : Except Fault (List String × Nat) :=
  match Text.cut? '|' (Text.unwords words) with
  | none => .ok (words, 1)
  | some (intro, looped) =>
    let loop := Text.words looped
    if loop.isEmpty then .error .nothingToLoop
    else .ok (Text.words intro ++ loop, loop.length)

/-- Read words with an optional bar, each by `read`. There must be a value. -/
def read (what : String) (read : String → Except Fault α) (words : List String) :
    Except Fault (Looped α) := do
  let (values, loopLength) ← split words
  if values.isEmpty then throw (.noValues what)
  let steps ← values.mapM read
  return ⟨steps, loopLength⟩

end Looped

/-- One frame of an envelope. -/
structure EnvelopeStep where
  timbre : Nat
  volume : Nat
  pitch : Int
deriving DecidableEq, Repr, Inhabited

/-- The three lists of an envelope. -/
structure Envelope where
  volume : Field (List Nat)
  timbre : Field (Looped Nat)
  pitch : Field (Looped Int)
deriving Inhabited

namespace Envelope

/-- No list is given. -/
def blank : Envelope := ⟨.unset, .unset, .unset⟩

/-- A number in the list `what`. -/
def readNumber (what word : String) : Except Fault Int :=
  match Text.int32? word with
  | some value => .ok value
  | none => .error (.valueNotNumber what word)

/-- A volume from 0 to 15. -/
def readVolume (word : String) : Except Fault Nat := do
  let value ← readNumber "volume" word
  if 0 ≤ value ∧ value ≤ 15 then return value.toNat
  throw (.volumeOutOfRange value)

/-- A timbre from 0 to `most`. -/
def readTimbre (most : Nat) (word : String) : Except Fault Nat := do
  let value ← readNumber "timbre" word
  if 0 ≤ value ∧ value ≤ Int.ofNat most then return value.toNat
  throw (.timbreOutOfRange most value)

/-- A pitch in semitones from the played note. -/
def readRelativePitch (word : String) : Except Fault Int := do
  let value ← readNumber "pitch" word
  if -60 ≤ value ∧ value ≤ 60 then return value
  throw (.relativePitchOutOfRange value)

/-- Give the volumes. A bar among them has no meaning. -/
def setVolume (envelope : Envelope) (words : List String) (place : Location)
    (owner : String) : Except Fault Envelope := do
  let looped ← Looped.read "volume" readVolume words
  let volume ← envelope.volume.set looped.steps place "volume" owner
  return { envelope with volume := volume }

/-- Give the timbres, each at most `most`. -/
def setTimbre (envelope : Envelope) (most : Nat) (words : List String) (place : Location)
    (owner : String) : Except Fault Envelope := do
  let looped ← Looped.read "timbre" (readTimbre most) words
  let timbre ← envelope.timbre.set looped place "timbre" owner
  return { envelope with timbre := timbre }

/-- Give the pitches, each read by `read`. -/
def setPitch (envelope : Envelope) (read : String → Except Fault Int) (words : List String)
    (place : Location) (owner : String) : Except Fault Envelope := do
  let looped ← Looped.read "pitch" read words
  let pitch ← envelope.pitch.set looped place "pitch" owner
  return { envelope with pitch := pitch }

/-- The volumes, one frame of volume 8 if none are given. -/
def volumes (envelope : Envelope) : List Nat := (envelope.volume.value?).getD [8]

/-- The frames of the envelope; `timbre` is used where none is given. -/
def frames (envelope : Envelope) (timbre : Nat) : List EnvelopeStep :=
  let volumes := envelope.volumes
  let count := volumes.length
  let timbres :=
    match envelope.timbre.value? with
    | some looped => looped.expand count
    | none => List.replicate count timbre
  let pitches :=
    match envelope.pitch.value? with
    | some looped => looped.expand count
    | none => List.replicate count 0
  List.zipWith (fun volume (timbre, pitch) => ⟨timbre, volume, pitch⟩) volumes
    (timbres.zip pitches)

end Envelope

end Chiptune
