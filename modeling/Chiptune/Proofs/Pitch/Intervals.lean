import Chiptune.Proofs.Note.Marks
import Chiptune.Proofs.Pitch.Calls

/-!
# Written intervals

In the relative modes the octave of a tone follows from the tone before. The place of a tone
on the scale is counted in steps, seven to the octave: in relative mode a tone takes the
nearest place of its letter, and its marks move it by octaves from there. Nothing but a tone
moves the place. To swap the meaning of the two signs is the same as to exchange them in
every word.
-/

namespace Chiptune

namespace PitchState

variable {state next : PitchState} {book : ChordBook} {word : NoteWord} {text : String}
  {note : NotePitch} {code : Option ChordCode} {tone : Tone}

/-! ## States that are reached -/

/-- The states that settings and calls lead to. -/
inductive Reachable : PitchState → Prop where
  | initial : Reachable PitchState.initial
  | child {state : PitchState} (h : Reachable state) (book : ChordBook) :
      Reachable (state.child book).1
  | setLanguage {state next : PitchState} {word : String} (h : Reachable state)
      (hset : state.setLanguage word = .ok next) : Reachable next
  | setSigns {state next : PitchState} {word : String} (h : Reachable state)
      (hset : state.setSigns word = .ok next) : Reachable next
  | setMode {state : PitchState} (h : Reachable state) (mode : OctaveMode) :
      Reachable { state with mode := mode }
  | restart {state : PitchState} (h : Reachable state) (mode : OctaveMode) :
      Reachable (state.restart mode)
  | readAbsolute {state next : PitchState} {word : String} {pitch : Int} (h : Reachable state)
      (hread : state.readAbsolute word = .ok (pitch, next)) : Reachable next
  | respond {state : PitchState} (h : Reachable state) (book : ChordBook) (call : PitchCall) :
      Reachable (state.respond book call).2

/-- The remembered degree is a step of the scale. -/
def OnScale (state : PitchState) : Prop := 0 ≤ state.degree ∧ state.degree ≤ 6

theorem Reachable.after (h : state.Reachable) (calls : List PitchCall) :
    (state.after book calls).Reachable := by
  induction calls generalizing state with
  | nil => exact h
  | cons call calls ih => exact ih (h.respond book call)

theorem degree_bounds (tone : Tone) : 0 ≤ tone.degree ∧ tone.degree ≤ 6 := by
  cases tone <;> decide

theorem onScale_of_degree (h : next.degree = tone.degree) : next.OnScale := by
  rw [OnScale, h]
  exact degree_bounds tone

theorem readAbsolute_onScale
    {word : String} {pitch : Int} (hstate : state.OnScale)
    (h : state.readAbsolute word = .ok (pitch, next)) : next.OnScale := by
  unfold readAbsolute at h
  split at h
  · obtain ⟨found, -, hpair⟩ := Step.map_eq_ok h
    cases hpair
    exact hstate
  split at h
  · cases h
  split at h
  · next tone _ =>
      split at h
      · cases h
      · next hlocate =>
          cases h
          unfold locate at hlocate
          split at hlocate
          · cases hlocate
          · cases hlocate
            exact onScale_of_degree rfl
  · cases h

/-- The place on the scale is remembered. -/
structure SamePlace (state next : PitchState) : Prop where
  degree : next.degree = state.degree
  octave : next.octave = state.octave

/-- The call is a note word with the letter of a tone, and is played. -/
def PlaysTone (state : PitchState) (book : ChordBook) (call : PitchCall) : Prop :=
  ∃ text word tone note code, call = .note text ∧ NoteWord.scan? text = some word ∧
    word.letter = .tone tone ∧ (state.respond book call).1 = .played note code

/-- A call plays a tone, or the place stays. -/
theorem respond_samePlace (state : PitchState) (book : ChordBook) (call : PitchCall) :
    state.PlaysTone book call ∧ (state.respond book call).2.OnScale ∨
      state.SamePlace (state.respond book call).2 := by
  have hresponds := state.respond_responds book call
  unfold PlaysTone
  generalize (state.respond book call).1 = reply at hresponds ⊢
  generalize (state.respond book call).2 = next at hresponds ⊢
  cases hresponds with
  | done | noWord | refused => exact .inr ⟨rfl, rfl⟩
  | played hscan hplays =>
      cases hplays with
      | tone hletter =>
          exact .inl ⟨⟨_, _, _, _, _, rfl, hscan, hletter, rfl⟩, onScale_of_degree rfl⟩
      | again | rest | wait | length => exact .inr ⟨rfl, rfl⟩

theorem Reachable.onScale (h : state.Reachable) : state.OnScale := by
  induction h with
  | initial => exact ⟨by decide, by decide⟩
  | child _ _ ih => exact ih
  | setLanguage _ hset ih =>
      unfold PitchState.setLanguage at hset
      dsimp only at hset
      split_ifs at hset <;> cases hset <;> exact ih
  | setSigns _ hset ih =>
      unfold PitchState.setSigns at hset
      split_ifs at hset <;> cases hset <;> exact ih
  | setMode _ _ ih => exact ih
  | restart => exact ⟨(by decide : (0 : Int) ≤ 3), (by decide : (3 : Int) ≤ 6)⟩
  | readAbsolute _ hread ih => exact readAbsolute_onScale ih hread
  | @respond state _ book call ih =>
      rcases state.respond_samePlace book call with ⟨-, hscale⟩ | hsame
      · exact hscale
      · exact ⟨hsame.degree ▸ ih.1, hsame.degree ▸ ih.2⟩

/-! ## Places on the scale -/

/-- The place of the tone before, in steps of the scale above the `c` of octave zero. -/
def position (state : PitchState) : Int := 7 * state.octave + state.degree

/-- The place has the degree and lies within three steps of the position. -/
def IsNear (position degree place : Int) : Prop :=
  place % 7 = degree ∧ (place - position).natAbs ≤ 3

/-- The semitones by which a chord lowers its tone: its greater distance if it is downward. -/
def lowering : Option Arpeggio → Int
  | some ⟨chord, true⟩ => Int.ofNat (max chord.first.val chord.second.val)
  | _ => 0

/-- How the tone of a word follows the tone before. -/
structure Follows (state : PitchState) (book : ChordBook) (text : String) (word : NoteWord)
    (tone : Tone) (note : NotePitch) (code : Option ChordCode) (next : PitchState) : Prop where
  degree : next.degree = tone.degree
  /-- The tone takes the only near place of its degree, and its marks move it from there. -/
  relative : state.mode = .relative → ∃ place, IsNear state.position tone.degree place ∧
    (∀ other, IsNear state.position tone.degree other → other = place) ∧
    next.position = place + 7 * octavesUp state.signs text
  /-- The marks move the octave. -/
  octaveRelative : state.mode = .octaveRelative →
    next.octave = state.octave + octavesUp state.signs text
  /-- The pitch is that of the letter and its accidental in the octave. -/
  pitch : ∃ written, state.writtenChord book word = .ok written ∧
    code = (state.inForce written).map (·.code) ∧
    note = .semitone (12 * next.octave + tone.semitone state.language +
      word.accidental.semitones + 15 - lowering (state.inForce written))

theorem octaveShift_eq_octavesUp
    {signs : OctaveSigns} {shift : Int} (hscan : NoteWord.scan? text = some word)
    (h : octaveShift signs word = .ok shift) : shift = octavesUp signs text := by
  rw [NoteWord.octavesUp_of_scan? hscan]
  unfold octaveShift at h
  split_ifs at h
  cases h
  rfl

theorem isNear_iff
    {place : Int} (hstate : state.OnScale) (hmode : state.mode = .relative) :
    IsNear state.position tone.degree place ↔
      place = 7 * state.octaveOf tone 0 + tone.degree := by
  obtain ⟨hlow, hhigh⟩ := hstate
  obtain ⟨hlow', hhigh'⟩ := degree_bounds tone
  have hfollows : state.mode.followsOctave = true := by rw [hmode]; rfl
  simp only [IsNear, position, octaveOf, if_pos hfollows, if_pos hmode]
  -- The places of a degree are seven steps apart, so at most one of them is near.
  split_ifs <;> omega

theorem octaveOf_eq_add (shift : Int) :
    state.octaveOf tone shift = state.octaveOf tone 0 + shift := by
  simp only [octaveOf]
  omega

theorem drop_eq_lowering (arpeggio : Option Arpeggio) :
    ((arpeggio.map Arpeggio.drop).getD 0 : Nat) = lowering arpeggio := by
  rcases arpeggio with _ | ⟨chord, downward⟩
  · rfl
  · cases downward <;> rfl

theorem Plays.follows
    (hplays : state.Plays book word note code next) (hscan : NoteWord.scan? text = some word)
    (hletter : word.letter = .tone tone) (hstate : state.OnScale) :
    state.Follows book text word tone note code next := by
  obtain ⟨shift, pitch, written, arpeggio, hwritten, hshift, hpitch, -, rfl, rfl, rfl⟩ :=
    hplays.of_tone hletter
  have hup := octaveShift_eq_octavesUp hscan hshift
  refine ⟨rfl, ?_, ?_, written, hwritten, rfl, ?_⟩
  · intro hmode
    refine ⟨7 * state.octaveOf tone 0 + tone.degree, (isNear_iff hstate hmode).mpr rfl,
      fun other hother => (isNear_iff hstate hmode).mp hother, ?_⟩
    change 7 * state.octaveOf tone shift + tone.degree = _
    rw [octaveOf_eq_add, hup]
    ring
  · intro hmode
    change state.octaveOf tone shift = _
    simp [octaveOf, hmode, OctaveMode.followsOctave, hup]
  · rw [hpitch, ← drop_eq_lowering, base]
    congr 1
    change _ = 12 * state.octaveOf tone shift + _ + _ + _ - _
    omega

end PitchState

/-! ## Exchanged signs -/

/-- The other meaning of the signs. -/
def OctaveSigns.flipped : OctaveSigns → OctaveSigns
  | normal => swapped
  | swapped => normal

/-- The call with the signs of a note word exchanged. -/
def PitchCall.exchanged : PitchCall → PitchCall
  | note text => note (exchangeSigns text)
  | arpeggio text => arpeggio text

namespace PitchState

/-- The state with the other meaning of the signs. -/
def flipped (state : PitchState) : PitchState := { state with signs := state.signs.flipped }

theorem hasPitchMarks_exchanged (word : NoteWord) :
    word.exchanged.hasPitchMarks = word.hasPitchMarks := by
  have hleading : (-word.leading != 0) = (word.leading != 0) := by
    rw [Bool.eq_iff_iff, bne_iff_ne, bne_iff_ne, ne_eq, Int.neg_eq_zero]
  simp only [NoteWord.hasPitchMarks, NoteWord.exchanged, hleading]

theorem octaveShift_exchanged (signs : OctaveSigns) (word : NoteWord) :
    octaveShift signs.flipped word.exchanged = octaveShift signs word := by
  cases signs <;> simp [octaveShift, OctaveSigns.flipped, NoteWord.exchanged]

theorem playTone_exchanged
    (state : PitchState) (tone : Tone) (word : NoteWord) (chord : Option Arpeggio) :
    state.flipped.playTone tone word.exchanged chord =
      (state.playTone tone word chord).map fun (played, next) => (played, next.flipped) := by
  have hshift : octaveShift state.flipped.signs word.exchanged = octaveShift state.signs word :=
    octaveShift_exchanged state.signs word
  simp only [playTone, locate, hshift]
  cases octaveShift state.signs word with
  | error fault => rfl
  | ok shift => rfl

theorem read_exchanged (state : PitchState) (book : ChordBook) (word : NoteWord) :
    state.flipped.read book word.exchanged =
      (state.read book word).map fun (played, next) => (played, next.flipped) := by
  have hwritten : state.flipped.writtenChord book word.exchanged =
      state.writtenChord book word := rfl
  have hletter : word.exchanged.letter = word.letter := rfl
  simp only [read, hwritten, hletter, hasPitchMarks_exchanged]
  cases state.writtenChord book word with
  | error fault => rfl
  | ok chord =>
      cases word.letter with
      | tone tone => exact playTone_exchanged state tone word chord
      | rest | wait | length =>
          dsimp only
          split <;> rfl
      | repeatChord =>
          dsimp only
          split
          · rfl
          · cases hlast : state.last with
            | none => simp [repeatLast, flipped, hlast, Except.map]
            | some last => simp [repeatLast, flipped, hlast, Except.map]

theorem respond_exchanged (state : PitchState) (book : ChordBook) (call : PitchCall) :
    state.flipped.respond book call.exchanged =
      ((state.respond book call).1, (state.respond book call).2.flipped) := by
  cases call with
  | note text =>
      simp only [respond, PitchCall.exchanged, NoteWord.scan?_exchangeSigns]
      cases NoteWord.scan? text with
      | none => rfl
      | some word =>
          simp only [Option.map_some, read_exchanged]
          cases state.read book word with
          | error fault => rfl
          | ok found => rfl
  | arpeggio text =>
      have hlineage : state.flipped.lineage = state.lineage := rfl
      simp only [respond, PitchCall.exchanged, setArpeggio, hlineage]
      cases book.interpret state.lineage text with
      | error fault => rfl
      | ok arpeggio => rfl

theorem after_exchanged (state : PitchState) (book : ChordBook) (calls : List PitchCall) :
    state.flipped.after book (calls.map .exchanged) = (state.after book calls).flipped := by
  induction calls generalizing state with
  | nil => rfl
  | cons call calls ih =>
      rw [List.map_cons, after_cons, after_cons, respond_exchanged, ih]

theorem replies_exchanged (state : PitchState) (book : ChordBook) (calls : List PitchCall) :
    state.flipped.replies book (calls.map .exchanged) = state.replies book calls := by
  induction calls generalizing state with
  | nil => rfl
  | cons call calls ih => simp only [List.map_cons, replies, respond_exchanged, ih]

/-- Along every run of calls, a tone that is played follows the tone before it, and all else
leaves the place on the scale. Swapped signs give what the words with exchanged signs give
under the normal ones. -/
theorem respond_follows_intervals
    {start : PitchState} (hstart : start.Reachable) (book : ChordBook) (calls : List PitchCall) :
    let state := start.after book calls
    start.SameSettings state ∧
    (∀ text word tone note code next,
      NoteWord.scan? text = some word → word.letter = .tone tone →
      state.respond book (.note text) = (.played note code, next) →
      state.Follows book text word tone note code next) ∧
    (∀ call, ¬state.PlaysTone book call →
      (state.respond book call).2.position = state.position) ∧
    (start.signs = .swapped →
      let normal := { start with signs := .normal }
      start.replies book calls = normal.replies book (calls.map .exchanged) ∧
        state = { normal.after book (calls.map .exchanged) with signs := .swapped }) := by
  intro state
  refine ⟨start.after_sameSettings book calls, ?_, ?_, ?_⟩
  · intro text word tone note code next hscan hletter hrespond
    have hscale : state.OnScale := (hstart.after calls).onScale
    exact (plays_of_respond hscan hrespond).follows hscan hletter hscale
  · intro call hcall
    rcases state.respond_samePlace book call with ⟨htone, -⟩ | hsame
    · exact absurd htone hcall
    · rw [position, position, hsame.degree, hsame.octave]
  · intro hsigns normal
    have hnormal : normal = start.flipped := by
      rw [flipped, hsigns]
      rfl
    rw [hnormal, replies_exchanged, after_exchanged]
    have hkept : state.signs = .swapped :=
      (start.after_sameSettings book calls).signs.trans hsigns
    exact ⟨rfl, by rw [← hkept]; rfl⟩

/-- A state in relative mode, in which the sign `<` raises. -/
def descant : PitchState := { PitchState.initial with mode := .relative, signs := .swapped }

/-- A high tone, a downward chord for the tones that follow, the tone once more, and a rest. -/
def phrase : List PitchCall := [.note "b'", .arpeggio "-47", .note "q", .note "r"]

theorem descant_follows_intervals :
    descant.Reachable ∧ descant.signs = .swapped ∧
      (∃ next, (descant.after .blank phrase).respond .blank (.note "<c") =
          (.played (.semitone 44) (some (.ofNats 4 7)), next) ∧
        (descant.after .blank phrase).Follows .blank "<c" ⟨-1, .tone .c, .natural,
          ⟨0, none, .plain, none, .none⟩⟩ .c (.semitone 44) (some (.ofNats 4 7)) next) ∧
      ¬(descant.after .blank phrase).PlaysTone .blank (.note "w4") ∧
      ((descant.after .blank phrase).respond .blank (.note "w4")).2.position =
        (descant.after .blank phrase).position ∧
      descant.replies .blank phrase =
        { descant with signs := .normal }.replies .blank (phrase.map .exchanged) := by
  have hswap : PitchState.initial.setSigns "swapped" =
      .ok { PitchState.initial with signs := .swapped } := rfl
  have hreachable : descant.Reachable := (Reachable.initial.setSigns hswap).setMode .relative
  obtain ⟨-, htone, hother, hexchange⟩ := respond_follows_intervals hreachable .blank phrase
  have hscan : NoteWord.scan? "<c" = some ⟨-1, .tone .c, .natural,
      ⟨0, none, .plain, none, .none⟩⟩ := by decide
  have hplayed : ∃ next, (descant.after .blank phrase).respond .blank (.note "<c") =
      (.played (.semitone 44) (some (.ofNats 4 7)), next) := ⟨_, rfl⟩
  have hwait : ¬(descant.after .blank phrase).PlaysTone .blank (.note "w4") := by
    rintro ⟨_, word, tone, note, code, ⟨⟩, hword, hletter, -⟩
    have hfound : (NoteWord.scan? "w4").map (·.letter) = some .wait := by decide
    rw [hword, Option.map_some, hletter] at hfound
    cases hfound
  obtain ⟨next, hnext⟩ := hplayed
  exact ⟨hreachable, rfl, ⟨next, hnext, htone _ _ _ _ _ _ hscan rfl hnext⟩, hwait,
    hother _ hwait, (hexchange rfl).1⟩

end PitchState

end Chiptune
