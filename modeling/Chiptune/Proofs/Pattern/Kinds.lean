import Chiptune.Proofs.References
import Chiptune.Proofs.Versions

/-!
# Drums or pitches

The first note decides whether a pattern plays drums or pitches, unless its track does,
and the pattern never changes over. So the notes of a pattern are all of one kind, drum
patterns are encoded without pitches and transpositions, and a song plays drums on the
noise channel and pitches on the others.
-/

namespace Chiptune

open Step

/-! ## Modes -/

namespace OctaveMode

/-- The mode may turn into the other: once it is decided it stays of its kind. -/
structure TurnsInto (mode later : OctaveMode) : Prop where
  drum : mode = .drum → later = .drum
  pitched : mode.isPitched = true → later.isPitched = true

instance : IsPreorder OctaveMode TurnsInto where
  refl _ := ⟨id, id⟩
  trans _ _ _ h h' := ⟨h'.drum ∘ h.drum, h'.pitched ∘ h.pitched⟩

end OctaveMode

theorem PatternNote.Fits.turnsInto
    {note : PatternNote} {mode later : OctaveMode} (h : note.Fits mode)
    (hmode : mode.TurnsInto later) : note.Fits later := by
  cases note with
  | pitch semitones => exact hmode.pitched h
  | drum name => exact hmode.drum h
  | rest => trivial
  | wait => trivial

namespace Pattern

variable {pattern later : Pattern}

theorem Touch.turnsInto (h : Touch pattern later) :
    pattern.pitch.mode.TurnsInto later.pitch.mode := by
  cases h with
  | effect | note | meter | fallThrough => exact refl_of OctaveMode.TurnsInto _
  | pitch hkept =>
      rw [← hkept.mode]
      exact refl_of OctaveMode.TurnsInto _
  | pitches hopen hpitched => exact ⟨fun hdrum => absurd hdrum hopen, fun _ => hpitched⟩
  | drums hopen =>
      refine ⟨fun _ => rfl, fun hpitched => ?_⟩
      rw [hopen] at hpitched
      cases hpitched

/-! ## Patterns of one kind -/

/-- The octave mode is that of drums if and only if the track is, and it allows every
note. -/
structure OneKind (pattern : Pattern) : Prop where
  mode_iff : pattern.pitch.mode = .drum ↔ pattern.track = some .drum
  fits : ∀ note rows slur chord, .note note rows slur chord ∈ pattern.items →
    note.Fits pattern.pitch.mode

theorem startMode_eq_drum_iff (track : Option Track) :
    startMode track = .drum ↔ track = some .drum := by
  cases track with
  | none => decide
  | some track => cases track <;> decide

theorem oneKind_blank
    (name : String) (place : Location) (track : Option Track) (instrument : Option String)
    (pitch : PitchState) (meter : Meter) :
    (Pattern.blank name place track instrument pitch meter).OneKind := by
  refine ⟨startMode_eq_drum_iff track, fun note rows slur chord hmem => ?_⟩
  cases hmem

/-- Notes that were there are allowed in a mode that their own turned into. -/
theorem OneKind.advance
    (h : pattern.OneKind) (hmode : pattern.pitch.mode.TurnsInto later.pitch.mode)
    (hiff : later.pitch.mode = .drum ↔ later.track = some .drum)
    (hitems : ∀ note rows slur chord, .note note rows slur chord ∈ later.items →
      .note note rows slur chord ∈ pattern.items ∨ note.Fits later.pitch.mode) :
    later.OneKind := by
  refine ⟨hiff, fun note rows slur chord hmem => ?_⟩
  rcases hitems note rows slur chord hmem with hold | hfits
  · exact (h.fits note rows slur chord hold).turnsInto hmode
  · exact hfits

theorem OneKind.touch (h : pattern.OneKind) (htouch : Touch pattern later) :
    later.OneKind := by
  have hmode := htouch.turnsInto
  cases htouch with
  | effect effect =>
      refine h.advance hmode h.mode_iff fun note rows slur chord hmem => .inl ?_
      rcases List.mem_append.mp hmem with hold | hnew
      · exact hold
      · cases List.mem_singleton.mp hnew
  | note hfits =>
      refine h.advance hmode h.mode_iff fun note rows slur chord hmem => ?_
      rcases List.mem_append.mp hmem with hold | hnew
      · exact .inl hold
      · cases List.mem_singleton.mp hnew
        exact .inr hfits
  | pitch hkept =>
      refine h.advance hmode ?_ fun _ _ _ _ => .inl
      rw [hkept.mode]
      exact h.mode_iff
  | meter | fallThrough => exact h.advance hmode h.mode_iff fun _ _ _ _ => .inl
  | @pitches mode hopen hpitched =>
      have hmodeDrum : mode ≠ .drum := by
        rintro rfl
        cases hpitched
      have htrack : pattern.track ≠ some .drum := fun htrack => hopen (h.mode_iff.mpr htrack)
      exact h.advance hmode (iff_of_false hmodeDrum htrack) fun _ _ _ _ => .inl
  | drums => exact h.advance hmode (iff_of_true rfl rfl) fun _ _ _ _ => .inl

theorem Touches.turnsInto (h : Touches pattern later) :
    pattern.pitch.mode.TurnsInto later.pitch.mode := by
  induction h with
  | refl => exact refl_of OctaveMode.TurnsInto _
  | tail _ htouch ih => exact trans_of OctaveMode.TurnsInto ih htouch.turnsInto

theorem OneKind.touches (h : pattern.OneKind) (htouches : Touches pattern later) :
    later.OneKind := by
  induction htouches with
  | refl => exact h
  | tail _ htouch ih => exact ih.touch htouch

/-- What may be done to a pattern: a word is added and is accepted or rejected, under any
chord names, or a setting is accepted. -/
inductive Alteration : Pattern → Pattern → Prop where
  | addWord (pattern : Pattern) (book : ChordBook) (word : String) :
      Alteration pattern (left (Pattern.addWord book word pattern))
  | setLanguage {pattern : Pattern} {pitch : PitchState} {word : String}
      (hset : pattern.pitch.setLanguage word = .ok pitch) :
      Alteration pattern { pattern with pitch := pitch }
  | setSigns {pattern : Pattern} {pitch : PitchState} {word : String}
      (hset : pattern.pitch.setSigns word = .ok pitch) :
      Alteration pattern { pattern with pitch := pitch }
  | setArpeggio {pattern : Pattern} {pitch : PitchState} {book : ChordBook} {text : String}
      (hset : pattern.pitch.setArpeggio book text = .ok pitch) :
      Alteration pattern { pattern with pitch := pitch }
  | setMeter (pattern : Pattern) (meter : Meter) :
      Alteration pattern { pattern with meter := meter }
  | fallThrough (pattern : Pattern) : Alteration pattern { pattern with fallthrough := true }

/-- A run of alterations. -/
abbrev Alterations : Pattern → Pattern → Prop := Relation.ReflTransGen Alteration

theorem Alteration.touches (h : Alteration pattern later) : Touches pattern later := by
  cases h with
  | addWord book word => exact addWord_touches book word
  | setLanguage hset => exact (Touch.pitch (PitchState.setLanguage_kept hset)).touches
  | setSigns hset => exact (Touch.pitch (PitchState.setSigns_kept hset)).touches
  | setArpeggio hset => exact (Touch.pitch (PitchState.setArpeggio_kept hset)).touches
  | setMeter meter => exact (Touch.meter pattern meter).touches
  | fallThrough => exact (Touch.fallThrough pattern).touches

theorem Alterations.touches (h : Alterations pattern later) : Touches pattern later := by
  induction h with
  | refl => exact .refl
  | tail _ halter ih => exact ih.trans halter.touches

end Pattern

/-! ## Notes of either kind -/

namespace PatternNote

/-- The pitch of a pitched note. -/
def pitch? : PatternNote → Option Int
  | pitch semitones => some semitones
  | _ => none

/-- The drum of a drum note. -/
def drum? : PatternNote → Option String
  | drum name => some name
  | _ => none

end PatternNote

namespace PatternItem

variable {α : Type} {item : PatternItem} {reader : PatternNote → Option α} {value : α}

/-- What a reader of notes finds in an item. -/
def ofNote? (reader : PatternNote → Option α) : PatternItem → Option α
  | note played _ _ _ => reader played
  | effect _ => none

/-- The pitch of an item that is a pitched note. -/
def pitch? : PatternItem → Option Int := ofNote? PatternNote.pitch?

/-- The drum of an item that is a drum note. -/
def drum? : PatternItem → Option String := ofNote? PatternNote.drum?

theorem exists_note_of_ofNote? (h : item.ofNote? reader = some value) :
    ∃ note rows slur chord, item = .note note rows slur chord ∧ reader note = some value := by
  cases item with
  | note note rows slur chord => exact ⟨note, rows, slur, chord, rfl, h⟩
  | effect => cases h

end PatternItem

namespace Pattern

variable {pattern : Pattern}

/-- Some note is a pitch. -/
def HasPitch (pattern : Pattern) : Prop :=
  ∃ item ∈ pattern.items, item.pitch?.isSome = true

/-- Some note is a drum. -/
def HasDrum (pattern : Pattern) : Prop :=
  ∃ item ∈ pattern.items, item.drum?.isSome = true

namespace OneKind

variable (h : pattern.OneKind)
include h

theorem track_of_hasDrum (hdrum : pattern.HasDrum) : pattern.track = some .drum := by
  obtain ⟨item, hmem, hsome⟩ := hdrum
  obtain ⟨name, hname⟩ := Option.isSome_iff_exists.mp hsome
  obtain ⟨note, rows, slur, chord, rfl, hnote⟩ := PatternItem.exists_note_of_ofNote? hname
  cases note with
  | drum => exact h.mode_iff.mp (h.fits _ rows slur chord hmem)
  | _ => cases hnote

theorem track_of_hasPitch (hpitch : pattern.HasPitch) : pattern.track ≠ some .drum := by
  obtain ⟨item, hmem, hsome⟩ := hpitch
  obtain ⟨semitones, hsemitones⟩ := Option.isSome_iff_exists.mp hsome
  obtain ⟨note, rows, slur, chord, rfl, hnote⟩ :=
    PatternItem.exists_note_of_ofNote? hsemitones
  cases note with
  | pitch =>
      have hpitched : pattern.pitch.mode.isPitched = true := h.fits _ rows slur chord hmem
      intro htrack
      rw [h.mode_iff.mpr htrack] at hpitched
      cases hpitched
  | _ => cases hnote

end OneKind

end Pattern

/-! ## Tied items -/

/-- A tied note that strikes is a note of one of the items, and an effect is one of them. -/
def TiedItem.ComesFrom (items : List PatternItem) : TiedItem → Prop
  | .note played _ _ =>
    played.isAttack = true → ∃ rows slur chord, .note played rows slur chord ∈ items
  | .effect change => .effect change ∈ items
  | .arpeggio _ => True

namespace Tying

variable {items : List PatternItem}

theorem comesFrom_append
    {merged : List TiedItem} (h : ∀ tied ∈ merged, tied.ComesFrom items) {note : PatternNote}
    {rows : Int} {slurred : Bool} (hnote : (TiedItem.note note rows slurred).ComesFrom items) :
    ∀ tied ∈ append merged note rows slurred, tied.ComesFrom items := by
  intro tied hmem
  rcases append_cases merged note rows slurred with
    ⟨before, beforeRows, beforeSlurred, rest, rfl, -, -, -, happend⟩ | ⟨-, happend⟩
  · rw [happend] at hmem
    obtain ⟨hbefore, hrest⟩ := List.forall_mem_cons.mp h
    rcases List.mem_cons.mp hmem with rfl | hmem
    · exact hbefore
    · exact hrest tied hmem
  · rw [happend] at hmem
    rcases List.mem_cons.mp hmem with rfl | hmerged
    · exact hnote
    · exact h tied hmerged

theorem comesFrom_announce
    {tying : Tying} (h : ∀ tied ∈ tying.merged, tied.ComesFrom items)
    (chord : Option ChordCode) : ∀ tied ∈ (tying.announce chord).merged, tied.ComesFrom items := by
  unfold announce
  split
  · exact h
  · split
    · exact h
    · exact List.forall_mem_cons.mpr ⟨trivial, h⟩

theorem comesFrom_step
    {tying : Tying} (h : ∀ tied ∈ tying.merged, tied.ComesFrom items) (isDrum : Bool)
    {item : PatternItem} (hitem : item ∈ items) :
    ∀ tied ∈ (tying.step isDrum item).merged, tied.ComesFrom items := by
  cases item with
  | effect effect => exact List.forall_mem_cons.mpr ⟨hitem, h⟩
  | note note rows slur chord =>
      apply comesFrom_append (comesFrom_announce h chord)
      intro hattack
      rw [placed_isAttack] at hattack
      rw [placed_of_isAttack _ _ hattack]
      exact ⟨rows, slur, chord, hitem⟩

theorem comesFrom_foldl
    {later : List PatternItem} (hlater : later ⊆ items) {tying : Tying}
    (h : ∀ tied ∈ tying.merged, tied.ComesFrom items) (isDrum : Bool) :
    ∀ tied ∈ (later.foldl (step isDrum) tying).merged, tied.ComesFrom items := by
  induction later generalizing tying with
  | nil => exact h
  | cons item later ih =>
      obtain ⟨hitem, hrest⟩ := List.cons_subset.mp hlater
      exact ih hrest (comesFrom_step h isDrum hitem)

end Tying

theorem mem_of_mem_dropDeadArpeggios
    {items : List TiedItem} {item : TiedItem} (h : item ∈ (dropDeadArpeggios items).1) :
    item ∈ items := by
  induction items with
  | nil => exact h
  | cons first items ih =>
      have hkept : item = first ∨ item ∈ (dropDeadArpeggios items).1 := by
        cases first with
        | note note rows slurred =>
            rw [dropDeadArpeggios_note] at h
            exact List.mem_cons.mp h
        | effect effect =>
            rw [dropDeadArpeggios_effect] at h
            exact List.mem_cons.mp h
        | arpeggio code =>
            rw [dropDeadArpeggios_arpeggio] at h
            dsimp only at h
            split at h
            · exact List.mem_cons.mp h
            · exact .inr h
      exact List.mem_cons.mpr (hkept.imp id ih)

namespace Pattern

variable {pattern : Pattern}

theorem comesFrom_of_mem_tied
    {tied : TiedItem} (h : tied ∈ pattern.tied) : tied.ComesFrom pattern.items := by
  have hmerged := mem_of_mem_dropDeadArpeggios h
  have hstart : ∀ tied ∈ Tying.start.merged, tied.ComesFrom pattern.items := nofun
  exact Tying.comesFrom_foldl (List.Subset.refl _) hstart pattern.isDrum tied
    (List.mem_reverse.mp hmerged)

/-- The pitches of the tied items are those of the items. -/
theorem pitch?_tied_iff (semitones : Int) :
    (∃ tied ∈ pattern.tied, tied.pitch? = some semitones) ↔
      ∃ item ∈ pattern.items, item.pitch? = some semitones := by
  constructor
  · rintro ⟨tied, hmem, hpitch⟩
    unfold TiedItem.pitch? at hpitch
    split at hpitch
    · cases hpitch
      obtain ⟨rows, slur, chord, hitem⟩ := comesFrom_of_mem_tied hmem rfl
      exact ⟨_, hitem, rfl⟩
    · cases hpitch
  · rintro ⟨item, hmem, hpitch⟩
    obtain ⟨note, rows, slur, chord, rfl, hnote⟩ := PatternItem.exists_note_of_ofNote? hpitch
    cases note with
    | pitch =>
        cases hnote
        obtain ⟨tiedRows, slurred, htied, -⟩ := kept_tied hmem rfl
        exact ⟨_, htied, rfl⟩
    | _ => cases hnote

end Pattern

/-! ## Encoding without pitches -/

theorem TransposeRun.splitFrom_none
    {items : List TiedItem} (h : ∀ item ∈ items, item.pitch? = none) (index : Nat) :
    splitFrom index none items = [] := by
  induction items generalizing index with
  | nil => rfl
  | cons item items ih =>
      obtain ⟨hitem, hitems⟩ := List.forall_mem_cons.mp h
      rw [splitFrom]
      · exact ih hitems (index + 1)
      · exact hitem

/-- The code is no transposition and sounds no pitch. -/
def PatternCode.IsUnpitched : PatternCode → Prop
  | .transpose _ | .note (.pitch _) _ => False
  | _ => True

namespace Orchestra

variable {orchestra : Orchestra} {scope : String}

theorem isUnpitched_lasting
    {sound : Sound} (hsound : ∀ offset, sound ≠ .pitch offset) (rows : Int) :
    ∀ code ∈ lasting sound rows, code.IsUnpitched := by
  have hnote : ∀ length, (PatternCode.note sound length).IsUnpitched := by
    intro length
    cases sound with
    | pitch offset => exact absurd rfl (hsound offset)
    | rest | tie | drum => trivial
  intro code hmem
  unfold lasting at hmem
  split at hmem
  · rcases List.mem_cons.mp hmem with rfl | hmem
    · trivial
    · rw [List.mem_singleton.mp hmem]
      exact hnote none
  · split at hmem
    · cases hmem
    · rcases List.mem_cons.mp hmem with rfl | hmem
      · exact hnote _
      · obtain ⟨length, -, rfl⟩ := List.mem_map.mp hmem
        trivial

theorem sound_ne_pitch
    {note : PatternNote} (hnote : ∀ semitones, note ≠ .pitch semitones) {transpose : Int}
    {sound : Sound} (h : orchestra.sound scope transpose note = .ok sound) (offset : Fin 25) :
    sound ≠ .pitch offset := by
  cases note with
  | pitch semitones => exact absurd rfl (hnote semitones)
  | drum name =>
      obtain ⟨drum, -, rfl⟩ := sound_drum h
      exact nofun
  | rest | wait =>
      cases h
      exact nofun

theorem isUnpitched_effectCode
    {effect : PatternEffect} {code : PatternCode}
    (h : orchestra.effectCode scope effect = .ok code) : code.IsUnpitched := by
  cases effect with
  | instrument name =>
      obtain ⟨instrument, -, rfl⟩ := effectCode_instrument h
      trivial
  | fastArpeggio | slowArpeggio | bend | vibrato | channelVolume =>
      cases h
      trivial

theorem beginNote_transpose (encoder : Encoder) (note : PatternNote) (slurred : Bool) :
    (encoder.beginNote note slurred).2.transpose = encoder.transpose ∧
      (encoder.beginNote note slurred).2.runs = encoder.runs := by
  unfold Encoder.beginNote
  split
  · exact ⟨rfl, rfl⟩
  · exact ⟨rfl, rfl⟩

/-- An item changes neither the transposition nor the runs to come. -/
theorem encodeItem_transpose
    {encoder next : Encoder} {item : TiedItem} {codes : List PatternCode}
    (h : orchestra.encodeItem scope encoder item = .ok (codes, next)) :
    next.transpose = encoder.transpose ∧ next.runs = encoder.runs := by
  cases item with
  | arpeggio chord =>
      cases h
      exact ⟨rfl, rfl⟩
  | effect effect =>
      obtain ⟨code, -, -, rfl⟩ := encodeItem_effect h
      exact ⟨rfl, rfl⟩
  | note note rows slurred =>
      obtain ⟨sound, -, -, rfl⟩ := encodeItem_note h
      exact beginNote_transpose encoder note slurred

theorem isUnpitched_encodeItem
    {encoder next : Encoder} {item : TiedItem} {codes : List PatternCode}
    (hitem : item.pitch? = none)
    (h : orchestra.encodeItem scope encoder item = .ok (codes, next)) :
    ∀ code ∈ codes, code.IsUnpitched := by
  cases item with
  | arpeggio chord =>
      cases h
      exact List.forall_mem_singleton.mpr trivial
  | effect effect =>
      obtain ⟨code, hcode, rfl, rfl⟩ := encodeItem_effect h
      exact List.forall_mem_singleton.mpr (isUnpitched_effectCode hcode)
  | note note rows slurred =>
      obtain ⟨sound, hsound, rfl, rfl⟩ := encodeItem_note h
      have hnote : ∀ semitones, note ≠ .pitch semitones := by
        rintro semitones rfl
        cases hitem
      refine List.forall_mem_append.mpr ⟨?_, ?_⟩
      · intro code hmem
        rcases Encoder.mem_beginNote hmem with rfl | rfl
        · trivial
        · trivial
      · exact isUnpitched_lasting (sound_ne_pitch hnote hsound) rows

/-- Items without pitches, encoded with no run to begin, leave the transposition alone. -/
theorem isUnpitched_encodeFrom
    {index : Nat} {encoder final : Encoder} {items : List TiedItem} {codes : List PatternCode}
    (hitems : ∀ item ∈ items, item.pitch? = none) (hruns : encoder.runs = [])
    (h : orchestra.encodeFrom scope index encoder items = .ok (codes, final)) :
    (∀ code ∈ codes, code.IsUnpitched) ∧ final.transpose = encoder.transpose := by
  induction items generalizing index encoder codes with
  | nil =>
      cases h
      exact ⟨nofun, rfl⟩
  | cons item items ih =>
      obtain ⟨hitem, hlater⟩ := List.forall_mem_cons.mp hitems
      obtain ⟨itemCodes, next, later, hcodes, hrest, rfl⟩ := encodeFrom_cons h
      have hbegin : encoder.beginRun index = ([], encoder) := by
        rw [Encoder.beginRun, hruns]
      rw [hbegin] at hcodes ⊢
      have hown := isUnpitched_encodeItem hitem hcodes
      obtain ⟨htranspose, hstill⟩ := encodeItem_transpose hcodes
      obtain ⟨hothers, hfinal⟩ := ih hlater (hstill.trans hruns) hrest
      exact ⟨List.forall_mem_append.mpr ⟨hown, hothers⟩, hfinal.trans htranspose⟩

end Orchestra

namespace Pattern

variable {pattern : Pattern}

/-- A transposition that is still in force needs not be put back. -/
theorem isUnpitched_closing
    {base : Int} {encoder : Encoder} (h : encoder.transpose = base) :
    ∀ code ∈ pattern.closing base encoder, code.IsUnpitched := by
  intro code hmem
  rw [closing, if_pos h, List.nil_append] at hmem
  by_cases hfall : pattern.fallthrough = true
  · rw [if_pos hfall] at hmem
    cases hmem
  · rw [if_neg hfall] at hmem
    rcases List.mem_append.mp hmem with hlegato | hend
    · split at hlegato
      · rw [List.mem_singleton.mp hlegato]
        trivial
      · cases hlegato
    · rw [List.mem_singleton.mp hend]
      trivial

theorem OneKind.pitch?_tied
    (h : pattern.OneKind) (htrack : pattern.track = some .drum) :
    ∀ tied ∈ pattern.tied, tied.pitch? = none := by
  intro tied hmem
  cases hpitch : tied.pitch? with
  | none => rfl
  | some semitones =>
      obtain ⟨item, hitem, hsome⟩ := (pitch?_tied_iff semitones).mp ⟨tied, hmem, hpitch⟩
      have hhas : pattern.HasPitch := ⟨item, hitem, by rw [hsome]; rfl⟩
      exact absurd htrack (h.track_of_hasPitch hhas)

theorem OneKind.split_tied (h : pattern.OneKind) (htrack : pattern.track = some .drum) :
    TransposeRun.split pattern.tied = [] :=
  TransposeRun.splitFrom_none (h.pitch?_tied htrack) 0

theorem OneKind.baseTranspose (h : pattern.OneKind) (htrack : pattern.track = some .drum) :
    pattern.baseTranspose = none := by
  rw [Pattern.baseTranspose, h.split_tied htrack]
  rfl

theorem OneKind.isUnpitched_encode
    (h : pattern.OneKind) (htrack : pattern.track = some .drum) {orchestra : Orchestra}
    {codes : List PatternCode} (hcodes : pattern.encode orchestra = .ok codes) :
    ∀ code ∈ codes, code.IsUnpitched := by
  obtain ⟨body, final, hbody, rfl⟩ := encode_eq_ok hcodes
  have hruns : pattern.startEncoder.runs = [] := by
    rw [startEncoder, h.split_tied htrack]
    rfl
  obtain ⟨hunpitched, hfinal⟩ :=
    Orchestra.isUnpitched_encodeFrom (h.pitch?_tied htrack) hruns hbody
  exact List.forall_mem_append.mpr ⟨hunpitched, isUnpitched_closing hfinal⟩

end Pattern

theorem Drum.labelOf_not_mem_pitchNames (name : String) :
    Drum.labelOf name ∉ Sound.pitchNames := by
  have hnames : ∀ text ∈ Sound.pitchNames, text.toList.head? = some 'N' := by decide
  intro hmem
  have hlabel : (Drum.labelOf name).toList.head? = some 'D' := by
    rw [Drum.labelOf, String.toList_append]
    rfl
  rw [hnames _ hmem] at hlabel
  cases hlabel

/-- A code of a pattern that is no pitch has the name of none. -/
theorem Pattern.text_not_mem_pitchNames
    {pattern : Pattern} {orchestra : Orchestra} {codes : List PatternCode}
    (hcodes : pattern.encode orchestra = .ok codes) {sound : Sound} {length : Option NoteLength}
    (hmem : .note sound length ∈ codes) (hunpitched : (PatternCode.note sound length).IsUnpitched) :
    sound.text ∉ Sound.pitchNames := by
  cases sound with
  | pitch offset => exact hunpitched.elim
  | rest => decide
  | tie => decide
  | drum label =>
      obtain ⟨name, -, rfl⟩ := Pattern.names_encode hcodes _ hmem
      exact Drum.labelOf_not_mem_pitchNames name

/-! ## Rendering songs -/

namespace Song

variable {song : Song} {score : Score} {pattern : Pattern}

/-- The event plays the pattern. -/
def Plays (song : Song) (score : Score) (pattern : Pattern) (event : ConductorEvent) : Prop :=
  ∃ name track instrument transpose place,
    event = .play name track instrument transpose place ∧
      score.patterns.resolve? name song.name = some pattern

/-- The line of a song plays the pattern with the given name on the track. -/
def LinePlays (line name : String) (track : Track) : Prop :=
  ∃ operands, line = "playPat" ++ track.suffix ++ " " ++ Pattern.labelOf name ++ operands

/-- A line plays on one track. -/
theorem LinePlays.track_eq
    {line name : String} {track other : Track} (h : LinePlays line name track)
    (hother : LinePlays line name other) : track = other := by
  obtain ⟨operands, rfl⟩ := h
  obtain ⟨others, heq⟩ := hother
  have hlist := congrArg String.toList heq
  simp only [String.append_assoc, String.toList_append, List.append_cancel_left_eq] at hlist
  revert hlist
  cases track <;> cases other <;> simp [Track.suffix]

/-- A drum pattern is played where no other track is asked for. -/
theorem command_of_drum
    {name : String} {asked : Option Track} {instrument : Option String} {transpose : Int}
    {place : Location} (hresolve : score.patterns.resolve? name song.name = some pattern)
    (htrack : pattern.track = some .drum) (hasked : asked = none ∨ asked = some .drum)
    (diagnostics : Diagnostics) :
    song.command score (.play name asked instrument transpose place) diagnostics =
      .ok ("playPatNoise " ++ Pattern.labelOf pattern.name) diagnostics := by
  have hor : asked.or pattern.track = some .drum := by
    rcases hasked with rfl | rfl
    · exact htrack
    · rfl
  have hplayed : playedTrack asked pattern name place diagnostics = .ok .drum diagnostics := by
    rw [playedTrack, hor]
    rfl
  have hdrum : pattern.isDrum = true := by
    rw [Pattern.isDrum, htrack]
    rfl
  change song.playCommand score name asked instrument transpose place diagnostics = _
  rw [playCommand, hresolve]
  dsimp only
  rw [bind_apply_of_ok hplayed, if_pos rfl, if_pos hdrum]
  rfl

/-- A pattern of one kind is played on the noise channel if it has drums, and on another
channel if it has pitches. -/
theorem linePlays_of_command
    (h : pattern.OneKind) {event : ConductorEvent} (hplays : song.Plays score pattern event)
    {line : String} {before after : Diagnostics}
    (hline : song.command score event before = .ok line after) :
    (pattern.HasDrum → ∀ track, LinePlays line pattern.name track ↔ track = .drum) ∧
      (pattern.HasPitch →
        ∃ played, played ≠ .drum ∧
          ∀ track, LinePlays line pattern.name track ↔ track = played) := by
  obtain ⟨name, asked, instrument, transpose, place, rfl, hresolve⟩ := hplays
  have honly : ∀ played, LinePlays line pattern.name played →
      ∀ track, LinePlays line pattern.name track ↔ track = played := by
    intro played hplayed track
    constructor
    · exact fun htrack => htrack.track_eq hplayed
    · rintro rfl
      exact hplayed
  obtain ⟨found, hfound, hplay⟩ := playCommand_eq_ok hline
  cases hresolve.symm.trans hfound
  rcases hplay with ⟨hdrum, hline⟩ | ⟨hpitched, played, base, operand, hne, -, -, -, hline⟩
  · have htrack : pattern.track = some .drum := beq_iff_eq.mp hdrum
    constructor
    · intro _
      refine honly .drum ⟨"", ?_⟩
      rw [hline, String.append_empty]
      rfl
    · exact fun hpitch => absurd htrack (h.track_of_hasPitch hpitch)
  · have htrack : pattern.track ≠ some .drum := by
      intro htrack
      rw [Pattern.isDrum, htrack] at hpitched
      cases hpitched
    constructor
    · exact fun hdrum => absurd (h.track_of_hasDrum hdrum) htrack
    · intro _
      refine ⟨played, hne, honly played
        ⟨", " ++ (Text.intText (Register.int32 (transpose + base)) ++ ", " ++ operand), ?_⟩⟩
      rw [hline]
      exact String.append_assoc

end Song

/-! ## A pattern plays drums or pitches -/

namespace Pattern

/-- Words and settings, accepted or rejected, never make a pattern of two kinds out of a
blank one. It is in drum mode if and only if it is on the drum track; it has drums only on
that track and pitches only on others, and never both; a mode that is decided stays of its
kind. A drum pattern has no base transposition, and its codes have neither the name of a
pitch nor a transposition. And a song plays it on the noise channel, where pitches are
never played. -/
theorem oneKind_of_alterations
    {name : String} {place : Location} {track : Option Track} {instrument : Option String}
    {pitch : PitchState} {meter : Meter} {pattern : Pattern}
    (h : Alterations (Pattern.blank name place track instrument pitch meter) pattern) :
    (pattern.pitch.mode = .drum ↔ pattern.track = some .drum) ∧
    (pattern.HasDrum → pattern.track = some .drum ∧ ¬pattern.HasPitch) ∧
    (pattern.HasPitch → pattern.track ≠ some .drum ∧ ¬pattern.HasDrum) ∧
    (∀ later, Alterations pattern later →
      pattern.pitch.mode.TurnsInto later.pitch.mode) ∧
    (pattern.track = some .drum → pattern.baseTranspose = none ∧
      ∀ orchestra codes, pattern.encode orchestra = .ok codes →
        (∀ sound length, .note sound length ∈ codes → sound.text ∉ Sound.pitchNames) ∧
        ∀ semitones, .transpose semitones ∉ codes) ∧
    ∀ (song : Song) (score : Score),
      (∀ entry before after, song.entry score before = .ok entry after →
        ∃ block, entry.data = some block ∧
          List.Forall₂
            (fun event line => song.Plays score pattern event →
              (pattern.HasDrum → ∀ track, Song.LinePlays line pattern.name track ↔
                track = .drum) ∧
              (pattern.HasPitch → ∃ played, played ≠ .drum ∧
                ∀ track, Song.LinePlays line pattern.name track ↔ track = played))
            song.events block.atoms) ∧
      (pattern.track = some .drum → ∀ name asked instrument transpose place diagnostics,
        score.patterns.resolve? name song.name = some pattern →
        asked = none ∨ asked = some .drum →
        song.command score (.play name asked instrument transpose place) diagnostics =
          .ok ("playPatNoise " ++ Pattern.labelOf pattern.name) diagnostics) := by
  have hkind : pattern.OneKind := (oneKind_blank _ _ _ _ _ _).touches h.touches
  refine ⟨hkind.mode_iff, ?_, ?_, fun later hlater => hlater.touches.turnsInto, ?_, ?_⟩
  · intro hdrum
    have htrack := hkind.track_of_hasDrum hdrum
    exact ⟨htrack, fun hpitch => hkind.track_of_hasPitch hpitch htrack⟩
  · intro hpitch
    have htrack := hkind.track_of_hasPitch hpitch
    exact ⟨htrack, fun hdrum => htrack (hkind.track_of_hasDrum hdrum)⟩
  · intro htrack
    refine ⟨hkind.baseTranspose htrack, fun orchestra codes hcodes => ?_⟩
    have hunpitched := hkind.isUnpitched_encode htrack hcodes
    constructor
    · intro sound length hmem
      exact text_not_mem_pitchNames hcodes hmem (hunpitched _ hmem)
    · exact fun semitones hmem => hunpitched _ hmem
  · intro song score
    constructor
    · intro entry before after hentry
      obtain ⟨lines, _, hlines, hpure⟩ := bind_eq_ok hentry
      cases hpure
      refine ⟨_, rfl, (Song.forall₂_of_commands hlines).imp ?_⟩
      rintro event line ⟨before, after, hline⟩ hplays
      exact Song.linePlays_of_command hkind hplays hline
    · intro htrack name asked instrument transpose place diagnostics hresolve hasked
      exact Song.command_of_drum hresolve htrack hasked diagnostics

/-- Words that are added one by one, each accepted or rejected. -/
def addEach (words : List String) (pattern : Pattern) : Pattern :=
  words.foldl (fun pattern word => left (addWord default word pattern)) pattern

theorem alterations_addEach (words : List String) (pattern : Pattern) :
    Alterations pattern (addEach words pattern) := by
  induction words generalizing pattern with
  | nil => exact .refl
  | cons word words ih => exact (ih _).head (.addWord pattern default word)

/-- A rest and a word that may be a note or a drum leave the pattern undecided. A clap makes
it a drum pattern, in which an octave mode and a note are rejected. -/
def clapping : Pattern :=
  addEach ["r4", "ab4", "clap4", "relative", "c4", "clap8"]
    (Pattern.blank "clapping" ⟨"score", 1⟩ none none .initial .initial)

/-- A score with the pattern and the drum that it strikes. -/
def clappingScore : Score :=
  { Score.empty with
    drums := ⟨[⟨"clap", ⟨"score", 2⟩, []⟩]⟩
    patterns := ⟨[clapping]⟩ }

/-- A song that plays the pattern on the track that it has. -/
def clappingSong : Song :=
  (Song.blank "dance" ⟨"score", 3⟩ .initial .initial).push
    (.play "clapping" none none 0 ⟨"score", 4⟩)

/-- The claps are encoded without a transposition and played on the noise channel. -/
theorem clapping_oneKind :
    clapping.HasDrum ∧ ¬clapping.HasPitch ∧ clapping.baseTranspose = none ∧
      (∃ codes, clapping.encode clappingScore.orchestra = .ok codes ∧
        ∀ semitones, .transpose semitones ∉ codes) ∧
      ∃ entry block after, clappingSong.entry clappingScore .empty = .ok entry after ∧
        entry.data = some block ∧
        ∃ line ∈ block.atoms, ∀ track, Song.LinePlays line "clapping" track ↔ track = .drum := by
  obtain ⟨-, hdrums, -, -, hunpitched, hsongs⟩ := oneKind_of_alterations
    (alterations_addEach ["r4", "ab4", "clap4", "relative", "c4", "clap8"]
      (Pattern.blank "clapping" ⟨"score", 1⟩ none none .initial .initial))
  have hdrum : clapping.HasDrum := by
    unfold HasDrum
    decide +kernel
  obtain ⟨htrack, hpitch⟩ := hdrums hdrum
  obtain ⟨hbase, hencode⟩ := hunpitched htrack
  have hencodes : (clapping.encode clappingScore.orchestra).isOk = true := by decide +kernel
  obtain ⟨codes, hcodes⟩ := exists_of_isOk hencodes
  have hrenders : succeeded (clappingSong.entry clappingScore .empty) = true := by
    decide +kernel
  have hplays : clappingSong.Plays clappingScore clapping
      (.play "clapping" none none 0 ⟨"score", 4⟩) :=
    ⟨_, _, _, _, _, rfl, by decide +kernel⟩
  refine ⟨hdrum, hpitch, hbase, ⟨codes, hcodes, (hencode _ codes hcodes).2⟩, ?_⟩
  cases hrun : clappingSong.entry clappingScore .empty with
  | error report after =>
      rw [hrun] at hrenders
      cases hrenders
  | ok entry after =>
      obtain ⟨block, hblock, hlines⟩ := (hsongs clappingSong clappingScore).1 _ _ _ hrun
      obtain ⟨line, hline, hplayed⟩ := forall₂_mem_left hlines List.mem_cons_self
      exact ⟨entry, block, after, rfl, hblock, line, hline, (hplayed hplays).1 hdrum⟩

end Pattern

end Chiptune
