import Chiptune.Pattern.Reading
import Chiptune.Proofs.Step
import Mathlib.Logic.Relation

/-!
# Versions of patterns

Words and settings change a pattern, by success and by failure. Each of them comes to a
few small changes: a note of the kind that the octave mode allows, an effect, settings,
or the choice of a mode. The name of the pattern and the layers of chord names that it
sees never change.
-/

namespace Chiptune

open Step

/-! ## Pitch settings -/

namespace PitchState

/-- The octave mode and the layers of chord names stay. -/
structure Kept (state next : PitchState) : Prop where
  mode : next.mode = state.mode
  lineage : next.lineage = state.lineage

theorem setLanguage_kept
    {state next : PitchState} {word : String} (h : state.setLanguage word = .ok next) :
    state.Kept next := by
  unfold setLanguage at h
  dsimp only at h
  split at h
  · cases h
    exact ⟨rfl, rfl⟩
  · split at h
    · cases h
      exact ⟨rfl, rfl⟩
    · cases h

theorem setSigns_kept
    {state next : PitchState} {word : String} (h : state.setSigns word = .ok next) :
    state.Kept next := by
  unfold setSigns at h
  split at h
  · cases h
    exact ⟨rfl, rfl⟩
  · split at h
    · cases h
      exact ⟨rfl, rfl⟩
    · cases h

theorem setArpeggio_kept
    {state next : PitchState} {book : ChordBook} {text : String}
    (h : state.setArpeggio book text = .ok next) : state.Kept next := by
  obtain ⟨arpeggio, -, rfl⟩ := map_eq_ok h
  exact ⟨rfl, rfl⟩

theorem locate_kept
    {state next : PitchState} {tone : Tone} {word : NoteWord} {pitch : Int}
    (h : state.locate tone word = .ok (pitch, next)) : state.Kept next := by
  unfold locate at h
  split at h
  · cases h
  · cases h
    exact ⟨rfl, rfl⟩

theorem playTone_kept
    {state next : PitchState} {tone : Tone} {word : NoteWord} {chord : Option Arpeggio}
    {played : NotePitch × Option ChordCode}
    (h : state.playTone tone word chord = .ok (played, next)) : state.Kept next := by
  unfold playTone at h
  split at h
  · cases h
  · next hlocate =>
      have hkept := locate_kept hlocate
      cases h
      exact ⟨hkept.mode, hkept.lineage⟩

theorem repeatLast_kept
    {state next : PitchState} {chord : Option Arpeggio}
    {played : NotePitch × Option ChordCode}
    (h : state.repeatLast chord = .ok (played, next)) : state.Kept next := by
  unfold repeatLast at h
  split at h
  · cases h
  · cases h
    exact ⟨rfl, rfl⟩

theorem read_kept
    {state next : PitchState} {book : ChordBook} {word : NoteWord}
    {played : NotePitch × Option ChordCode}
    (h : state.read book word = .ok (played, next)) : state.Kept next := by
  unfold read at h
  split at h
  · cases h
  · split at h
    · exact playTone_kept h
    · split at h
      · cases h
      · split at h
        · exact repeatLast_kept h
        · cases h
          exact ⟨rfl, rfl⟩
        · cases h
          exact ⟨rfl, rfl⟩
        · cases h
          exact ⟨rfl, rfl⟩

/-- A rest, a wait or a length plays no pitch. -/
theorem read_of_isUndecided
    {state next : PitchState} {book : ChordBook} {word : NoteWord} {played : NotePitch}
    {chord : Option ChordCode} (hword : Pattern.isUndecided word = true)
    (h : state.read book word = .ok ((played, chord), next)) (pitch : Int) :
    played ≠ .semitone pitch := by
  rintro rfl
  unfold read at h
  split at h
  · cases h
  · split at h
    · next hletter => simp [Pattern.isUndecided, hletter] at hword
    · split at h
      · cases h
      · split at h
        · next hletter => simp [Pattern.isUndecided, hletter] at hword
        · cases h
        · cases h
        · cases h

end PitchState

/-! ## Patterns -/

/-- Whether notes in the mode have pitches. -/
def OctaveMode.isPitched : OctaveMode → Bool
  | unset | drum => false
  | noise | absolute | octaveRelative | relative => true

theorem OctaveMode.isPitched_of_ofWord?
    {word : String} {mode : OctaveMode} (h : ofWord? word = some mode) :
    mode.isPitched = true := by
  unfold ofWord? at h
  split at h
  · cases h
    rfl
  · split at h
    · cases h
      rfl
    · split at h
      · cases h
        rfl
      · cases h

theorem PatternWord.isPitched_of_classify
    {word : String} {mode : OctaveMode} (h : classify word = .mode mode) :
    mode.isPitched = true := by
  unfold classify at h
  split at h
  · cases h
  · split at h
    · next hmode =>
        cases h
        exact OctaveMode.isPitched_of_ofWord? hmode
    · repeat' split at h
      all_goals cases h

/-- The octave mode allows the note: a pitch in a pitched mode, a drum in drum mode. -/
def PatternNote.Fits (mode : OctaveMode) : PatternNote → Prop
  | pitch _ => mode.isPitched = true
  | drum _ => mode = .drum
  | rest | wait => True

namespace Pattern

/-- One change to a pattern. Drum mode is chosen only while the mode is open, and together
with the track; a pitched mode replaces any other mode but that one. -/
inductive Touch : Pattern → Pattern → Prop where
  | effect (pattern : Pattern) (effect : PatternEffect) :
      Touch pattern (pattern.pushEffect effect)
  | note {pattern : Pattern} {note : PatternNote} (hfits : note.Fits pattern.pitch.mode)
      (rows : Int) (slur : SlurMark) (chord : Option ChordCode) :
      Touch pattern (pattern.pushNote note rows slur chord)
  | pitch {pattern : Pattern} {pitch : PitchState} (hkept : pattern.pitch.Kept pitch) :
      Touch pattern { pattern with pitch := pitch }
  | meter (pattern : Pattern) (meter : Meter) : Touch pattern { pattern with meter := meter }
  | fallThrough (pattern : Pattern) : Touch pattern { pattern with fallthrough := true }
  | pitches {pattern : Pattern} {mode : OctaveMode} (hopen : pattern.pitch.mode ≠ .drum)
      (hpitched : mode.isPitched = true) : Touch pattern (setMode mode pattern)
  | drums {pattern : Pattern} (hopen : pattern.pitch.mode = .unset) :
      Touch pattern { setMode .drum pattern with track := some .drum }

/-- A run of changes. -/
abbrev Touches : Pattern → Pattern → Prop := Relation.ReflTransGen Touch

variable {pattern : Pattern}

theorem Touch.touches {later : Pattern} (h : Touch pattern later) : Touches pattern later :=
  .single h

theorem takeRows_leads (duration : Option Duration) :
    Leads Touches (takeRows duration) pattern := by
  apply leads_on
  exact (Touch.meter pattern _).touches

theorem takeRows_pitch
    {next : Pattern} {duration : Option Duration} {rows : Int}
    (h : takeRows duration pattern = .ok rows next) : next.pitch = pattern.pitch := by
  unfold takeRows on at h
  split at h
  · cases h
    rfl
  · cases h

theorem takeLength_leads (duration : Option Duration) :
    Leads Touches (takeLength duration) pattern := by
  apply leads_advance
  intro _ next h
  obtain ⟨meter, -, hnext⟩ := map_eq_ok h
  cases hnext
  exact (Touch.meter pattern meter).touches

theorem takePitch_eq_ok
    {next : Pattern} {book : ChordBook} {word : NoteWord}
    {played : NotePitch × Option ChordCode} (h : takePitch book word pattern = .ok played next) :
    ∃ pitch, pattern.pitch.read book word = .ok (played, pitch) ∧
      next = { pattern with pitch := pitch } := by
  have houtcome := advance_eq_ok h
  obtain ⟨⟨_, pitch⟩, hread, hnext⟩ := map_eq_ok houtcome
  cases hnext
  exact ⟨pitch, hread, rfl⟩

theorem takePitch_leads (book : ChordBook) (word : NoteWord) :
    Leads Touches (takePitch book word) pattern := by
  apply leads_advance
  intro _ next h
  obtain ⟨⟨played, pitch⟩, hread, hnext⟩ := map_eq_ok h
  cases hnext
  exact (Touch.pitch (PitchState.read_kept hread)).touches

theorem addNote_leads
    (note : PatternNote) (duration : Option Duration) (slur : SlurMark)
    (chord : Option ChordCode) (hfits : note.Fits pattern.pitch.mode) :
    Leads Touches (addNote note duration slur chord) pattern := by
  apply leads_bind (takeRows_leads duration)
  intro rows next hrows
  rw [← takeRows_pitch hrows] at hfits
  exact leads_modify (Touch.note hfits rows slur chord).touches

/-- A pitch word needs a pitched mode unless it may stand before the mode is chosen. -/
theorem addPitched_leads
    (book : ChordBook) {word : NoteWord}
    (hmode : pattern.pitch.mode.isPitched = true ∨ isUndecided word = true) :
    Leads Touches (addPitched book word) pattern := by
  apply leads_decide_bind
  intro duration _
  apply leads_bind (takePitch_leads book word)
  rintro ⟨played, chord⟩ next hpitch
  obtain ⟨pitch, hread, rfl⟩ := takePitch_eq_ok hpitch
  cases played with
  | length => exact takeLength_leads duration
  | semitone semitones =>
      have hpitched := hmode.resolve_right fun hword =>
        PitchState.read_of_isUndecided hword hread semitones rfl
      rw [← (PitchState.read_kept hread).mode] at hpitched
      exact addNote_leads (.pitch semitones) _ _ _ hpitched
  | rest => exact addNote_leads .rest _ _ _ trivial
  | wait => exact addNote_leads .wait _ _ _ trivial

theorem addDrum_leads (hmode : pattern.pitch.mode = .drum) (word : DrumWord) :
    Leads Touches (addDrum word) pattern := by
  apply leads_decide_bind
  intro duration _
  split
  · exact takeLength_leads duration
  · exact addNote_leads .rest _ _ _ trivial
  · exact addNote_leads .wait _ _ _ trivial
  · next name _ => exact addNote_leads (.drum name) _ _ _ hmode

theorem addFirst_leads (hopen : pattern.pitch.mode = .unset) (book : ChordBook) (word : String) :
    Leads Touches (addFirst book word) pattern := by
  unfold addFirst
  split
  · split
    · next hword => exact addPitched_leads book (.inr hword)
    · split
      · exact leads_throw _
      · have hpitches : Touch pattern (setMode .absolute pattern) :=
          .pitches (by rw [hopen]; decide) rfl
        refine leads_bind (leads_modify hpitches.touches) fun _ next hnext => ?_
        cases hnext
        exact addPitched_leads book (.inl rfl)
  · refine leads_bind (leads_modify (Touch.drums hopen).touches) fun _ next hnext => ?_
    cases hnext
    exact addDrum_leads rfl _
  · exact leads_throw _

theorem addNoteWord_leads (book : ChordBook) (word : String) :
    Leads Touches (addNoteWord book word) pattern := by
  apply leads_get_bind
  split
  · next hopen => exact addFirst_leads hopen book word
  · next hdrum =>
      split
      · exact addDrum_leads hdrum _
      · exact leads_throw _
  · next hset hdrum =>
      have hpitched : pattern.pitch.mode.isPitched = true := by
        cases hmode : pattern.pitch.mode with
        | unset => exact absurd hmode hset
        | drum => exact absurd hmode hdrum
        | noise | absolute | octaveRelative | relative => rfl
      split
      · exact addPitched_leads book (.inl hpitched)
      · exact leads_throw _

theorem pushEffect_leads (effect : PatternEffect) (warnings : List String) :
    Leads Touches
      (do modify (·.pushEffect effect); return warnings : Step Pattern (List String)) pattern :=
  leads_bind (leads_modify (Touch.effect pattern effect).touches) fun _ _ _ => leads_pure _

theorem addArpeggio_leads (book : ChordBook) (word argument : String) :
    Leads Touches (addArpeggio book word argument) pattern := by
  unfold addArpeggio
  split
  · exact pushEffect_leads _ _
  · split
    · exact pushEffect_leads _ _
    · split
      · apply leads_advance
        intro _ next h
        obtain ⟨pitch, hpitch, hnext⟩ := map_eq_ok h
        cases hnext
        exact (Touch.pitch (PitchState.setArpeggio_kept hpitch)).touches
      · exact leads_pure _

theorem addEffect_leads (effect : Option PatternEffect) (warning : String) :
    Leads Touches (addEffect effect warning) pattern := by
  unfold addEffect
  split
  · exact pushEffect_leads _ _
  · exact leads_pure _

theorem selectMode_leads {mode : OctaveMode} (hpitched : mode.isPitched = true) (word : String) :
    Leads Touches (selectMode word mode) pattern := by
  apply leads_get_bind
  split
  · exact leads_bind (leads_throw _) fun _ _ h => nomatch h
  · next hopen =>
      exact leads_bind (leads_modify (Touch.pitches hopen hpitched).touches)
        fun _ _ _ => leads_pure _

theorem selectInstrument_leads (name : String) :
    Leads Touches (selectInstrument name) pattern := by
  unfold selectInstrument
  split
  · exact leads_bind (leads_throw _) fun _ _ h => nomatch h
  · exact pushEffect_leads _ _

theorem addWord_touches (book : ChordBook) (word : String) :
    Leads Touches (addWord book word) pattern := by
  unfold addWord
  split
  · exact leads_get_bind (leads_decide _)
  · next hmode => exact selectMode_leads (PatternWord.isPitched_of_classify hmode) _
  · exact addEffect_leads _ _
  · exact addArpeggio_leads _ _ _
  · exact addEffect_leads _ _
  · exact addEffect_leads _ _
  · exact selectInstrument_leads _
  · exact leads_bind (addNoteWord_leads _ _) fun _ _ _ => leads_pure _

theorem addWords_touches (book : ChordBook) (words : List String) :
    Leads Touches (addWords book words) pattern := by
  induction words generalizing pattern with
  | nil => exact leads_pure _
  | cons word words ih =>
      apply leads_bind (addWord_touches book word)
      intro warnings next _
      exact leads_bind ih fun _ _ _ => leads_pure _

/-- The later pattern has the name of the earlier one and sees the same layers. -/
structure VersionOf (pattern later : Pattern) : Prop where
  name : later.name = pattern.name
  lineage : later.pitch.lineage = pattern.pitch.lineage

instance : IsPreorder Pattern VersionOf where
  refl _ := ⟨rfl, rfl⟩
  trans _ _ _ h h' := ⟨h'.name.trans h.name, h'.lineage.trans h.lineage⟩

theorem Touch.versionOf {later : Pattern} (h : Touch pattern later) : pattern.VersionOf later := by
  cases h with
  | pitch hkept => exact ⟨rfl, hkept.lineage⟩
  | effect | note | meter | fallThrough | pitches | drums => exact ⟨rfl, rfl⟩

theorem Touches.versionOf {later : Pattern} (h : Touches pattern later) :
    pattern.VersionOf later := by
  induction h with
  | refl => exact refl_of VersionOf pattern
  | tail _ htouch ih => exact trans_of VersionOf ih htouch.versionOf

theorem addWords_leads (book : ChordBook) (words : List String) :
    Leads VersionOf (addWords book words) pattern :=
  (addWords_touches book words).versionOf

end Pattern

end Chiptune
