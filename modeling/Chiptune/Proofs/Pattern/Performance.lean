import Chiptune.Pattern.Encoding
import Mathlib.Data.List.Forall2

/-!
# Performances of patterns

The items of a pattern, its tied items and its codes can each be played. This
module says what is heard when they are: attacks, rows and effects, in order. The
codes are played on an engine that knows nothing of the pattern; the items are
read with the items before them in view.
-/

namespace Chiptune

/-! ## Playing a list -/

/-- A player: its state after one more thing, and what is heard of that thing. -/
structure Player (σ ι ο : Type) where
  step : σ → ι → σ
  hear : σ → ι → List ο

namespace Player

variable {σ ι ο π : Type}

/-- The state after playing a list. -/
def run (player : Player σ ι ο) : σ → List ι → σ
  | state, [] => state
  | state, thing :: things => player.run (player.step state thing) things

/-- What is heard of a list. -/
def performance (player : Player σ ι ο) : σ → List ι → List ο
  | _, [] => []
  | state, thing :: things =>
    player.hear state thing ++ player.performance (player.step state thing) things

@[simp] theorem run_nil
    (player : Player σ ι ο) (state : σ) :
    player.run state [] = state := rfl

@[simp] theorem run_cons
    (player : Player σ ι ο) (state : σ) (thing : ι) (things : List ι) :
    player.run state (thing :: things) =
      player.run (player.step state thing) things := rfl

@[simp] theorem performance_nil
    (player : Player σ ι ο) (state : σ) :
    player.performance state [] = [] := rfl

@[simp] theorem performance_cons
    (player : Player σ ι ο) (state : σ) (thing : ι) (things : List ι) :
    player.performance state (thing :: things) =
      player.hear state thing ++
        player.performance (player.step state thing) things := rfl

@[simp] theorem run_append
    (player : Player σ ι ο) (state : σ) (first second : List ι) :
    player.run state (first ++ second) =
      player.run (player.run state first) second := by
  induction first generalizing state with
  | nil => rfl
  | cons thing first ih =>
      simp only [List.cons_append, run_cons]
      exact ih (player.step state thing)

@[simp] theorem performance_append
    (player : Player σ ι ο) (state : σ) (first second : List ι) :
    player.performance state (first ++ second) =
      player.performance state first ++
        player.performance (player.run state first) second := by
  induction first generalizing state with
  | nil => rfl
  | cons thing first ih =>
      simp only [List.cons_append, performance_cons, run_cons,
        List.append_assoc]
      rw [ih (player.step state thing)]

end Player

/-! ## What is heard -/

/-- What sounds in a row. In a pattern a drum goes by its name, in codes by its
label. -/
inductive Sounding where
  | silence
  | pitch (semitones : Int)
  | drum (name : String)
deriving DecidableEq, Repr

/-- The chord that is heard with a sounding; there is none in silence. -/
def Sounding.chordHeard (sounding : Sounding) (chord : Option ChordCode) :
    Option ChordCode :=
  if sounding = .silence then none else chord

/-- One thing heard in a performance, with effects of type `ε`. -/
inductive Heard (ε : Type) where
  /-- A note is struck. A grace note has its frames; `legato` says whether legato is
  in force. -/
  | attack (sounding : Sounding) (grace : Option Nat) (legato : Bool)
      (chord : Option ChordCode)
  /-- A row passes. -/
  | row (sounding : Sounding) (chord : Option ChordCode)
  | effect (effect : ε)
deriving DecidableEq, Repr

namespace Heard

variable {ε : Type}

/-- What sounds in each row. -/
def soundings (performance : List (Heard ε)) : List Sounding :=
  performance.filterMap fun
    | row sounding _ => some sounding
    | _ => none

/-- The chord heard in each row. -/
def rowChords (performance : List (Heard ε)) : List (Option ChordCode) :=
  performance.filterMap fun
    | row _ chord => some chord
    | _ => none

/-- The chord in force at each attack. -/
def attackChords (performance : List (Heard ε)) : List (Option ChordCode) :=
  performance.filterMap fun
    | attack _ _ _ chord => some chord
    | _ => none

/-- The effects, each with the number of rows before it; `passed` have passed
already. -/
def effects : Nat → List (Heard ε) → List (Nat × ε)
  | _, [] => []
  | passed, row _ _ :: later => effects (passed + 1) later
  | passed, attack .. :: later => effects passed later
  | passed, effect e :: later => (passed, e) :: effects passed later

end Heard

/-- A note that is struck: what sounds, the frames of a grace note, and whether legato
is in force. -/
structure Attack where
  sounding : Sounding
  grace : Option Nat
  legato : Bool
deriving DecidableEq, Repr

/-- The attacks of a performance. -/
def Heard.attacks {ε : Type} (performance : List (Heard ε)) : List Attack :=
  performance.filterMap fun
    | attack sounding grace legato _ => some ⟨sounding, grace, legato⟩
    | _ => none

/-! ## The engine -/

/-- The state of the engine that plays codes. -/
structure Engine where
  transpose : Int
  sounding : Sounding
  legato : Bool
  /-- The operand of the last change of arpeggio. -/
  chord : Option ChordCode
  /-- The frames of a grace note that the code before announced. -/
  grace : Option Nat
deriving DecidableEq, Repr

namespace Engine

/-- The silent engine under a transposition. -/
def start (transpose : Int) : Engine := ⟨transpose, .silence, false, none, none⟩

/-- What sounds once a note code is played. -/
def soundingOf (engine : Engine) : Sound → Sounding
  | .pitch offset => .pitch (engine.transpose + offset.val)
  | .rest => .silence
  | .tie => engine.sounding
  | .drum label => .drum label

/-- The engine after one more code. -/
def step (engine : Engine) (code : PatternCode) : Engine :=
  let engine := { engine with grace := none }
  match code with
  | .note sound _ => { engine with sounding := engine.soundingOf sound }
  | .grace frames => { engine with grace := some frames }
  | .transpose semitones => { engine with transpose := engine.transpose + semitones }
  | .arpeggio code => { engine with chord := some code }
  | .legatoOn => { engine with legato := true }
  | .legatoOff => { engine with legato := false }
  | .instrument _ | .fastArpeggio | .slowArpeggio | .bend _ | .vibrato _
  | .channelVolume _ | .patternEnd => engine

end Engine

/-- Whether a sound is an attack. -/
def Sound.isAttack : Sound → Bool
  | pitch _ | drum _ => true
  | rest | tie => false

/-- The rows a code takes; a grace note takes none. -/
def PatternCode.rowCount : PatternCode → Nat
  | note _ (some length) => length.rows
  | _ => 0

/-- Whether a code is an effect other than a change of arpeggio. -/
def PatternCode.isEffect : PatternCode → Bool
  | instrument _ | fastArpeggio | slowArpeggio | bend _ | vibrato _ | channelVolume _ => true
  | note .. | grace _ | transpose _ | arpeggio _ | legatoOn | legatoOff | patternEnd => false

namespace Engine

/-- What is heard of one code. -/
def hear (engine : Engine) (code : PatternCode) : List (Heard PatternCode) :=
  match code with
  | .note sound _ =>
    let sounding := engine.soundingOf sound
    (if sound.isAttack then
        [.attack sounding engine.grace engine.legato engine.chord]
      else []) ++
      List.replicate code.rowCount (.row sounding (sounding.chordHeard engine.chord))
  | code => if code.isEffect then [.effect code] else []

/-- The engine as a player of codes. -/
def player : Player Engine PatternCode (Heard PatternCode) := ⟨step, hear⟩

/-- The engine after some codes. -/
def run (engine : Engine) (codes : List PatternCode) : Engine := player.run engine codes

/-- What is heard of some codes. -/
def performance (engine : Engine) (codes : List PatternCode) : List (Heard PatternCode) :=
  player.performance engine codes

end Engine

end Chiptune
