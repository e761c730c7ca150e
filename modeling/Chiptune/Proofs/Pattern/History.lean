import Chiptune.Proofs.Pattern.Performance

/-!
# Items in the light of those before them

What an item of a pattern means depends on the items before it: which sound a wait
holds, which chord is in force, whether a slur is open, and whether a note carries
on the note directly before it. Each of these is read off the history here, without
any merging of items.
-/

namespace Chiptune

/-- The items before a place of a pattern, last first. -/
abbrev History := List PatternItem

namespace History

/-- What sounds after the items. A wait holds what sounded before it, and so does a
rest of a drum pattern. A note of no rows is not played. -/
def sounding (isDrum : Bool) : History → Sounding
  | [] => .silence
  | .effect _ :: earlier => sounding isDrum earlier
  | .note note rows _ _ :: earlier =>
    if rows = 0 then sounding isDrum earlier
    else
      match note with
      | .pitch semitones => .pitch semitones
      | .drum name => .drum name
      | .wait => sounding isDrum earlier
      | .rest => if isDrum then sounding isDrum earlier else .silence

/-- The last chord that an item carries. -/
def chord : History → Option ChordCode
  | [] => none
  | .effect _ :: earlier => chord earlier
  | .note _ _ _ carried :: earlier => carried.or (chord earlier)

/-- Whether the last parenthesis opens a slur. -/
def slurOpen : History → Bool
  | [] => false
  | .effect _ :: earlier => slurOpen earlier
  | .note _ _ .start _ :: _ => true
  | .note _ _ .finish _ :: _ => false
  | .note _ _ _ _ :: earlier => slurOpen earlier

/-- Whether the slur of a note with the given mark is on: it is for a tilde, for an
opening parenthesis and inside an open slur. -/
def slurOn (earlier : History) : SlurMark → Bool
  | .tie | .start => true
  | .finish => false
  | .none => slurOpen earlier

/-- Whether the last note strikes a sound and has its slur on. -/
def leadsOn : History → Bool
  | [] => false
  | .effect _ :: earlier => leadsOn earlier
  | .note note _ slur _ :: earlier => note.isAttack && slurOn earlier slur

/-- Whether a note is carried on by the item directly before it: both take rows, play
the same, no change of arpeggio comes between, and the slur of the one before is
on. -/
def absorbs (history : History) (note : PatternNote) (rows : Int)
    (carried : Option ChordCode) : Bool :=
  match history with
  | .note before beforeRows _ _ :: _ =>
    decide (0 < beforeRows ∧ 0 < rows ∧ before = note) &&
      decide (carried = none ∨ carried = chord history) && leadsOn history
  | _ => false

end History

theorem History.isAttack_of_leadsOn
    {history : History} {note : PatternNote} {rows : Int} {slur : SlurMark}
    {carried : Option ChordCode}
    (hleads : leadsOn (.note note rows slur carried :: history) = true) :
    note.isAttack = true := by
  simp only [leadsOn, Bool.and_eq_true] at hleads
  exact hleads.1

/-- Only a note that strikes a sound is absorbed. -/
theorem History.isAttack_of_absorbs
    {history : History} {note : PatternNote} {rows : Int} {carried : Option ChordCode}
    (habsorbs : history.absorbs note rows carried = true) :
    note.isAttack = true := by
  rcases history with _ | ⟨⟨last, lastRows, slur, code⟩ | effect, earlier⟩
  · simp [absorbs] at habsorbs
  · simp only [absorbs, Bool.and_eq_true, decide_eq_true_eq] at habsorbs
    obtain ⟨⟨⟨-, -, rfl⟩, -⟩, hleads⟩ := habsorbs
    exact isAttack_of_leadsOn hleads
  · simp [absorbs] at habsorbs

/-- The frames of a grace note with the given rows. -/
def graceFrames (rows : Int) : Option Nat := if rows < 0 then some rows.natAbs else none

namespace History

/-- What is heard of an item. -/
def hear (isDrum : Bool) (history : History) (item : PatternItem) :
    List (Heard PatternEffect) :=
  match item with
  | .effect effect => [.effect effect]
  | .note note rows _ carried =>
    let sounding := History.sounding isDrum (item :: history)
    let chord := History.chord (item :: history)
    (if note.isAttack && rows != 0 && !history.absorbs note rows carried then
        [.attack sounding (graceFrames rows) history.leadsOn chord]
      else []) ++
      List.replicate rows.toNat (.row sounding (sounding.chordHeard chord))

/-- The reader of items, whose state is what it has read. -/
def player (isDrum : Bool) : Player History PatternItem (Heard PatternEffect) :=
  ⟨fun history item => item :: history, hear isDrum⟩

@[simp] theorem player_run
    (isDrum : Bool) (history : History) (items : List PatternItem) :
    (player isDrum).run history items = items.reverse ++ history := by
  induction items generalizing history with
  | nil => rfl
  | cons item items ih =>
      rw [Player.run_cons, ih]
      simp [player]

end History

/-- What is heard of the items of a pattern. -/
def Pattern.performance (pattern : Pattern) : List (Heard PatternEffect) :=
  (History.player pattern.isDrum).performance [] pattern.items

end Chiptune
