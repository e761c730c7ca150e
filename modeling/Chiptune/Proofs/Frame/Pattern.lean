import Chiptune.Pattern.Reading
import Chiptune.Proofs.Frame
import Chiptune.Proofs.Lockstep

/-!
# Patterns in a frame

Every word of a pattern adds the same inside a frame as outside.
-/

namespace Chiptune.Frame

open Pattern Step

variable (frame : Frame) {lax : Prop}

/-- A pattern in the frame. -/
def pattern (pattern : Pattern) : Pattern :=
  { pattern with place := frame.place pattern.place, pitch := frame.pitch pattern.pitch }

variable {pattern : Pattern}

theorem takeRows_lockstep (duration : Option Duration) :
    Lockstep lax (takeRows duration) (takeRows duration) (frame.pattern pattern) pattern
      (Mirrored frame.pattern) := by
  refine lockstep_on (Mirrored id) (lockstep_self (Meter.noteRows duration) pattern.meter) ?_
  rintro rows _ meter _ ⟨rfl, rfl⟩
  exact ⟨rfl, rfl⟩

theorem takeLength_lockstep (duration : Option Duration) :
    Lockstep lax (takeLength duration) (takeLength duration) (frame.pattern pattern) pattern
      (Mirrored frame.pattern) := by
  apply lockstep_advance
  change Agree lax _ ((pattern.meter.setLength duration).map _) _
  cases pattern.meter.setLength duration with
  | ok meter => exact .ok ⟨rfl, rfl⟩
  | error fault => exact .fault rfl

theorem addNote_lockstep
    (note : PatternNote) (duration : Option Duration) (slur : SlurMark)
    (chord : Option ChordCode) :
    Lockstep lax (addNote note duration slur chord) (addNote note duration slur chord)
      (frame.pattern pattern) pattern (Mirrored frame.pattern) := by
  apply (frame.takeRows_lockstep duration).bind
  rintro rows _ _ next ⟨rfl, rfl⟩
  exact lockstep_modify ⟨rfl, rfl⟩

theorem addDrum_lockstep (word : DrumWord) :
    Lockstep lax (addDrum word) (addDrum word) (frame.pattern pattern) pattern
      (Mirrored frame.pattern) := by
  apply lockstep_decide_bind
  intro duration _
  split
  · exact frame.takeLength_lockstep duration
  · exact frame.addNote_lockstep _ _ _ _
  · exact frame.addNote_lockstep _ _ _ _
  · exact frame.addNote_lockstep _ _ _ _

theorem addEffect_lockstep (effect : Option PatternEffect) (warning : String) :
    Lockstep lax (addEffect effect warning) (addEffect effect warning)
      (frame.pattern pattern) pattern (Mirrored frame.pattern) := by
  unfold addEffect
  split
  · exact lockstep_modify_bind (lockstep_pure ⟨rfl, rfl⟩)
  · exact lockstep_pure ⟨rfl, rfl⟩

theorem selectMode_lockstep (word : String) (mode : OctaveMode) :
    Lockstep lax (selectMode word mode) (selectMode word mode) (frame.pattern pattern) pattern
      (Mirrored frame.pattern) := by
  apply lockstep_get_bind
  change Lockstep lax (if pattern.pitch.mode = .drum then _ else _) _ _ _ _
  split
  · exact lockstep_throw_bind rfl
  · exact lockstep_modify_bind (lockstep_pure ⟨rfl, rfl⟩)

theorem selectInstrument_lockstep (name : String) :
    Lockstep lax (selectInstrument name) (selectInstrument name) (frame.pattern pattern)
      pattern (Mirrored frame.pattern) := by
  unfold selectInstrument
  split
  · exact lockstep_throw_bind rfl
  · exact lockstep_modify_bind (lockstep_pure ⟨rfl, rfl⟩)

variable {book : ChordBook} (hbook : book.layers ≠ [])
include hbook

theorem takePitch_lockstep (word : NoteWord) :
    Lockstep lax (takePitch (frame.book book) word) (takePitch book word)
      (frame.pattern pattern) pattern (Mirrored frame.pattern) := by
  apply lockstep_advance
  change Agree lax _
    (((frame.pitch pattern.pitch).read (frame.book book) word).map _) _
  rw [frame.read_pitch hbook]
  cases pattern.pitch.read book word with
  | ok result => exact .ok ⟨rfl, rfl⟩
  | error fault => exact .fault rfl

theorem addPitched_lockstep (word : NoteWord) :
    Lockstep lax (addPitched (frame.book book) word) (addPitched book word)
      (frame.pattern pattern) pattern (Mirrored frame.pattern) := by
  apply lockstep_decide_bind
  intro duration _
  apply (frame.takePitch_lockstep hbook word).bind
  rintro ⟨played, chord⟩ _ _ next ⟨rfl, rfl⟩
  cases played with
  | length => exact frame.takeLength_lockstep duration
  | semitone pitch => exact frame.addNote_lockstep _ _ _ _
  | rest => exact frame.addNote_lockstep _ _ _ _
  | wait => exact frame.addNote_lockstep _ _ _ _

theorem addFirst_lockstep (word : String) :
    Lockstep lax (addFirst (frame.book book) word) (addFirst book word)
      (frame.pattern pattern) pattern (Mirrored frame.pattern) := by
  unfold addFirst
  split
  · split
    · exact frame.addPitched_lockstep hbook _
    · split
      · exact lockstep_throw rfl
      · apply lockstep_modify_bind
        change Lockstep lax _ _ (frame.pattern (setMode .absolute pattern)) _ _
        exact frame.addPitched_lockstep hbook _
  · apply lockstep_modify_bind
    change Lockstep lax _ _
      (frame.pattern { setMode .drum pattern with track := some .drum }) _ _
    exact frame.addDrum_lockstep _
  · exact lockstep_throw rfl

theorem addNoteWord_lockstep (word : String) :
    Lockstep lax (addNoteWord (frame.book book) word) (addNoteWord book word)
      (frame.pattern pattern) pattern (Mirrored frame.pattern) := by
  apply lockstep_get_bind
  have hmode : (frame.pattern pattern).pitch.mode = pattern.pitch.mode := rfl
  rw [hmode]
  split
  · exact frame.addFirst_lockstep hbook word
  · split
    · exact frame.addDrum_lockstep _
    · exact lockstep_throw rfl
  · split
    · exact frame.addPitched_lockstep hbook _
    · exact lockstep_throw rfl

theorem addArpeggio_lockstep (word argument : String) :
    Lockstep lax (addArpeggio (frame.book book) word argument)
      (addArpeggio book word argument) (frame.pattern pattern) pattern
      (Mirrored frame.pattern) := by
  unfold addArpeggio
  split
  · exact lockstep_modify_bind (lockstep_pure ⟨rfl, rfl⟩)
  · split
    · exact lockstep_modify_bind (lockstep_pure ⟨rfl, rfl⟩)
    · split
      · apply lockstep_advance
        change Agree lax _
          (((frame.pitch pattern.pitch).setArpeggio (frame.book book) argument).map _) _
        rw [frame.setArpeggio_pitch hbook]
        cases pattern.pitch.setArpeggio book argument with
        | ok pitch => exact .ok ⟨rfl, rfl⟩
        | error fault => exact .fault rfl
      · exact lockstep_pure ⟨rfl, rfl⟩

theorem addWord_lockstep (word : String) :
    Lockstep lax (addWord (frame.book book) word) (addWord book word) (frame.pattern pattern)
      pattern (Mirrored frame.pattern) := by
  unfold addWord
  split
  · apply lockstep_get_bind
    have hcheck : barCheck (frame.pattern pattern) = barCheck pattern := rfl
    rw [hcheck]
    cases barCheck pattern with
    | ok warnings => exact .ok ⟨rfl, rfl⟩
    | error fault => exact .fault rfl
  · exact frame.selectMode_lockstep _ _
  · exact frame.addEffect_lockstep _ _
  · exact frame.addArpeggio_lockstep hbook _ _
  · exact frame.addEffect_lockstep _ _
  · exact frame.addEffect_lockstep _ _
  · exact frame.selectInstrument_lockstep _
  · apply (frame.addNoteWord_lockstep hbook word).bind
    rintro _ _ _ next ⟨-, rfl⟩
    exact lockstep_pure ⟨rfl, rfl⟩

theorem addWords_lockstep (words : List String) :
    Lockstep lax (addWords (frame.book book) words) (addWords book words)
      (frame.pattern pattern) pattern (Mirrored frame.pattern) := by
  induction words generalizing pattern with
  | nil => exact lockstep_pure ⟨rfl, rfl⟩
  | cons word words ih =>
      apply (frame.addWord_lockstep hbook word).bind
      rintro warnings _ _ next ⟨rfl, rfl⟩
      apply ih.bind
      rintro later _ _ last ⟨rfl, rfl⟩
      exact lockstep_pure ⟨rfl, rfl⟩

end Chiptune.Frame
