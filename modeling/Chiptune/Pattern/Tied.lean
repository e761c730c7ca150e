import Chiptune.Pattern.Basic

/-!
# Tied items

Before a pattern is encoded, waits and ties are merged into the notes they extend,
a change of arpeggio is put before each note whose chord differs from the one
before, and changes that no note plays are dropped.
-/

namespace Chiptune

/-- An item of a pattern with its ties merged. -/
inductive TiedItem where
  /-- A note; `slurred` says whether it leads into the next one without an attack. -/
  | note (note : PatternNote) (rows : Int) (slurred : Bool)
  | arpeggio (code : ChordCode)
  | effect (effect : PatternEffect)
deriving DecidableEq, Repr, Inhabited

namespace TiedItem

/-- The pitch of a pitched note. -/
def pitch? : TiedItem → Option Int
  | note (.pitch semitones) _ _ => some semitones
  | _ => none

end TiedItem

/-- The items merged so far, with the chord and the slur in force. -/
structure Tying where
  /-- The merged items, last first. -/
  merged : List TiedItem
  chord : Option ChordCode
  slurOpen : Bool
deriving DecidableEq, Repr, Inhabited

namespace Tying

/-- Nothing merged yet. -/
def start : Tying := ⟨[], none, false⟩

/-- Put a change of arpeggio before a note whose chord is new. -/
def announce (tying : Tying) (chord : Option ChordCode) : Tying :=
  match chord with
  | none => tying
  | some code =>
    if tying.chord = some code then tying
    else { tying with merged := .arpeggio code :: tying.merged, chord := some code }

/-- What a note means where it stands: a rest of a drum pattern waits, and a wait
with nothing before it rests. -/
def placed (isDrum atStart : Bool) (note : PatternNote) : PatternNote :=
  let note := if isDrum && note == .rest then .wait else note
  if note == .wait && atStart then .rest else note

/-- Whether a slur is open after a mark. -/
def slurOpenAfter (slurOpen : Bool) : SlurMark → Bool
  | .start => true
  | .finish => false
  | .tie | .none => slurOpen

/-- Whether a note with the given mark leads into the next one. -/
def leadsOn (slurOpen : Bool) : SlurMark → Bool
  | .start | .tie => true
  | .finish => false
  | .none => slurOpen

/-- Add a note, merged into the note before if it extends that one. -/
def append (merged : List TiedItem) (note : PatternNote) (rows : Int) (slurred : Bool) :
    List TiedItem :=
  match merged with
  | .note before beforeRows beforeSlurred :: rest =>
    if 0 < rows ∧ 0 < beforeRows ∧
        (note = .wait ∨ (beforeSlurred = true ∧ before = note)) then
      .note before (beforeRows + rows) slurred :: rest
    else .note note rows slurred :: merged
  | _ => .note note rows slurred :: merged

/-- Merge one more item. -/
def step (isDrum : Bool) (tying : Tying) : PatternItem → Tying
  | .effect effect => { tying with merged := .effect effect :: tying.merged }
  | .note note rows slur chord =>
    let announced := tying.announce chord
    let note := placed isDrum announced.merged.isEmpty note
    let slurred := leadsOn announced.slurOpen slur && note.isAttack
    { announced with
      merged := append announced.merged note rows slurred
      slurOpen := slurOpenAfter announced.slurOpen slur }

end Tying

/-- The items with waits and ties merged and changes of arpeggio put in. -/
def mergeTies (isDrum : Bool) (items : List PatternItem) : List TiedItem :=
  (items.foldl (Tying.step isDrum) Tying.start).merged.reverse

/-- The items without the changes of arpeggio that no note plays, and whether a note
other than a rest comes before the next change. -/
def dropDeadArpeggios : List TiedItem → List TiedItem × Bool
  | [] => ([], false)
  | item :: items =>
    let (kept, played) := dropDeadArpeggios items
    match item with
    | .note note _ _ => (item :: kept, played || note != .rest)
    | .arpeggio _ => if played then (item :: kept, false) else (kept, false)
    | .effect _ => (item :: kept, played)

/-- The items of a pattern as they are encoded. -/
def Pattern.tied (pattern : Pattern) : List TiedItem :=
  (dropDeadArpeggios (mergeTies pattern.isDrum pattern.items)).1

end Chiptune
