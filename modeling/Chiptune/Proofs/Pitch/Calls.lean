import Chiptune.Pitch
import Chiptune.Proofs.Step
import Mathlib.Tactic.SplitIfs

/-!
# Calls to a pitch state

A pitch state is asked to read note words and to set chords, one call after the other. Each
call gets a reply, and one that is refused leaves the state. What a word that is read does to
the state is told once, by the kind of its letter.
-/

namespace Chiptune

open Step

/-- What a pitch state is asked to do. -/
inductive PitchCall where
  /-- Read the text as a note word. -/
  | note (text : String)
  /-- Set the chord for all notes that follow. -/
  | arpeggio (text : String)
deriving DecidableEq, Repr

/-- The reply to a call. -/
inductive PitchReply where
  /-- The text is no note word. -/
  | noWord
  | refused (fault : Fault)
  /-- The chord is set. -/
  | done
  | played (note : NotePitch) (code : Option ChordCode)

namespace PitchState

variable {state next : PitchState} {book : ChordBook} {word : NoteWord} {text : String}
  {note : NotePitch} {code : Option ChordCode}

/-- The reply to a call, and the state after it. -/
def respond (state : PitchState) (book : ChordBook) : PitchCall → PitchReply × PitchState
  | .note text =>
    match NoteWord.scan? text with
    | none => (.noWord, state)
    | some word =>
      match state.read book word with
      | .error fault => (.refused fault, state)
      | .ok ((note, code), next) => (.played note code, next)
  | .arpeggio text =>
    match state.setArpeggio book text with
    | .error fault => (.refused fault, state)
    | .ok next => (.done, next)

/-- The state after some calls. -/
def after (state : PitchState) (book : ChordBook) (calls : List PitchCall) : PitchState :=
  calls.foldl (fun state call => (state.respond book call).2) state

/-- The replies to some calls. -/
def replies (state : PitchState) (book : ChordBook) : List PitchCall → List PitchReply
  | [] => []
  | call :: calls =>
    (state.respond book call).1 :: (state.respond book call).2.replies book calls

theorem after_cons (call : PitchCall) (calls : List PitchCall) :
    state.after book (call :: calls) = (state.respond book call).2.after book calls := rfl

/-! ## What a word does -/

/-- The chord that sounds with a tone: the one that is written, or else the one for all. -/
def inForce (state : PitchState) (written : Option Arpeggio) : Option Arpeggio :=
  written.or state.arpeggio

/-- What a word that is read plays, and the state after it. -/
inductive Plays (state : PitchState) (book : ChordBook) (word : NoteWord) :
    NotePitch → Option ChordCode → PitchState → Prop where
  /-- A tone is remembered with its octave and its chord. -/
  | tone {tone : Tone} {shift pitch : Int} {written arpeggio : Option Arpeggio}
      (hletter : word.letter = .tone tone)
      (hwritten : state.writtenChord book word = .ok written)
      (hshift : octaveShift state.signs word = .ok shift)
      (hpitch : pitch = tone.semitone state.language + word.accidental.semitones +
        12 * state.octaveOf tone shift + base - ((state.inForce written).map Arpeggio.drop).getD 0)
      (harpeggio : written.or arpeggio = state.inForce written) :
      Plays state book word (.semitone pitch) ((state.inForce written).map (·.code))
        { state with
          degree := tone.degree
          octave := state.octaveOf tone shift
          arpeggio := arpeggio
          passing := written
          last := some (pitch, (state.inForce written).map (·.code)) }
  /-- A repeated chord leaves the state. -/
  | again {pitch : Int} {last : Option ChordCode} {written : Option Arpeggio}
      (hletter : word.letter = .repeatChord)
      (hwritten : state.writtenChord book word = .ok written)
      (hlast : state.last = some (pitch, last)) :
      Plays state book word (.semitone pitch) ((written.map (·.code)).or last) state
  /-- A rest is remembered by its chord alone. -/
  | rest {written : Option Arpeggio} (hletter : word.letter = .rest)
      (hwritten : state.writtenChord book word = .ok written) :
      Plays state book word .rest ((state.inForce written).map (·.code))
        { state with passing := written }
  | wait {written : Option Arpeggio} (hletter : word.letter = .wait)
      (hwritten : state.writtenChord book word = .ok written) :
      Plays state book word .wait (state.heldCode written) state
  | length {written : Option Arpeggio} (hletter : word.letter = .length)
      (hwritten : state.writtenChord book word = .ok written) :
      Plays state book word .length (state.heldCode written) state

theorem playTone_plays
    {tone : Tone} {written : Option Arpeggio} (hletter : word.letter = .tone tone)
    (hwritten : state.writtenChord book word = .ok written)
    (h : state.playTone tone word written = .ok ((note, code), next)) :
    state.Plays book word note code next := by
  cases hshift : octaveShift state.signs word with
  | error fault =>
      simp only [playTone, locate, hshift] at h
      cases h
  | ok shift =>
      -- The silent chord is only set for all where the written one hides it.
      have hsame : written.or (if written.isSome && state.arpeggio.isNone then
          some Arpeggio.silent else state.arpeggio) = state.inForce written := by
        cases written with
        | none => simp [inForce]
        | some arpeggio => simp [inForce]
      simp only [playTone, locate, hshift, hsame] at h
      cases h
      exact .tone hletter hwritten hshift rfl hsame

theorem repeatLast_plays
    {written : Option Arpeggio} (hletter : word.letter = .repeatChord)
    (hwritten : state.writtenChord book word = .ok written)
    (h : state.repeatLast written = .ok ((note, code), next)) :
    state.Plays book word note code next := by
  unfold repeatLast at h
  split at h
  · cases h
  · next hlast =>
      cases h
      exact .again hletter hwritten hlast

theorem read_plays (h : state.read book word = .ok ((note, code), next)) :
    state.Plays book word note code next := by
  unfold read at h
  split at h
  · cases h
  next written hwritten =>
  cases hletter : word.letter with
  | tone tone =>
      simp only [hletter] at h
      exact playTone_plays hletter hwritten h
  | repeatChord =>
      simp only [hletter] at h
      split_ifs at h
      exact repeatLast_plays hletter hwritten h
  | rest =>
      have hheld : { state with passing := written }.heldCode written =
          (state.inForce written).map (·.code) := by
        cases written <;> rfl
      simp only [hletter] at h
      split_ifs at h
      cases h
      rw [hheld]
      exact .rest hletter hwritten
  | wait =>
      simp only [hletter] at h
      split_ifs at h
      cases h
      exact .wait hletter hwritten
  | length =>
      simp only [hletter] at h
      split_ifs at h
      cases h
      exact .length hletter hwritten

theorem Plays.of_tone
    {tone : Tone} (h : state.Plays book word note code next) (hletter : word.letter = .tone tone) :
    ∃ shift pitch written arpeggio, state.writtenChord book word = .ok written ∧
      octaveShift state.signs word = .ok shift ∧
      pitch = tone.semitone state.language + word.accidental.semitones +
        12 * state.octaveOf tone shift + base -
          ((state.inForce written).map Arpeggio.drop).getD 0 ∧
      written.or arpeggio = state.inForce written ∧ note = .semitone pitch ∧
      code = (state.inForce written).map (·.code) ∧
      next = { state with
        degree := tone.degree
        octave := state.octaveOf tone shift
        arpeggio := arpeggio
        passing := written
        last := some (pitch, (state.inForce written).map (·.code)) } := by
  cases h with
  | tone hfound hwritten hshift hpitch harpeggio =>
      cases hletter.symm.trans hfound
      exact ⟨_, _, _, _, hwritten, hshift, hpitch, harpeggio, rfl, rfl, rfl⟩
  | again hother | rest hother | wait hother | length hother => cases hletter.symm.trans hother

/-- A repeated chord has the chord that is written, or else that of the tone before. -/
theorem Plays.of_repeatChord
    (h : state.Plays book word note code next) (hletter : word.letter = .repeatChord) :
    ∃ pitch last written, state.writtenChord book word = .ok written ∧
      state.last = some (pitch, last) ∧ note = .semitone pitch ∧
      code = (written.map (·.code)).or last ∧ next = state := by
  cases h with
  | again _ hwritten hlast => exact ⟨_, _, _, hwritten, hlast, rfl, rfl, rfl⟩
  | tone hother | rest hother | wait hother | length hother => cases hletter.symm.trans hother

/-! ## What a call does -/

/-- The reply to a call with the state after it, by what becomes of the call. -/
inductive Responds (state : PitchState) (book : ChordBook) :
    PitchCall → PitchReply → PitchState → Prop where
  | played {text : String} {word : NoteWord} {note : NotePitch} {code : Option ChordCode}
      {next : PitchState} (hscan : NoteWord.scan? text = some word)
      (hplays : state.Plays book word note code next) :
      Responds state book (.note text) (.played note code) next
  | done {text : String} (arpeggio : Option Arpeggio) :
      Responds state book (.arpeggio text) .done { state with arpeggio := arpeggio }
  | noWord {text : String} : Responds state book (.note text) .noWord state
  | refused {call : PitchCall} (fault : Fault) : Responds state book call (.refused fault) state

theorem respond_responds (state : PitchState) (book : ChordBook) (call : PitchCall) :
    state.Responds book call (state.respond book call).1 (state.respond book call).2 := by
  cases call with
  | note text =>
      simp only [respond]
      split
      · exact .noWord
      next word hscan =>
      split
      · next fault _ => exact .refused fault
      · next hread => exact .played hscan (read_plays hread)
  | arpeggio text =>
      simp only [respond]
      split
      · next fault _ => exact .refused fault
      · next hset =>
          obtain ⟨arpeggio, -, rfl⟩ := map_eq_ok hset
          exact .done arpeggio

theorem plays_of_respond
    (hscan : NoteWord.scan? text = some word)
    (h : state.respond book (.note text) = (.played note code, next)) :
    state.Plays book word note code next := by
  have hresponds := state.respond_responds book (.note text)
  rw [h] at hresponds
  cases hresponds with
  | played hfound hplays =>
      cases hfound.symm.trans hscan
      exact hplays

/-- The settings that no call changes. -/
structure SameSettings (state next : PitchState) : Prop where
  language : next.language = state.language
  mode : next.mode = state.mode
  signs : next.signs = state.signs

theorem respond_sameSettings (state : PitchState) (book : ChordBook) (call : PitchCall) :
    state.SameSettings (state.respond book call).2 := by
  have hresponds := state.respond_responds book call
  generalize (state.respond book call).1 = reply at hresponds
  generalize (state.respond book call).2 = next at hresponds ⊢
  cases hresponds with
  | played _ hplays => cases hplays <;> exact ⟨rfl, rfl, rfl⟩
  | done | noWord | refused => exact ⟨rfl, rfl, rfl⟩

theorem after_sameSettings (state : PitchState) (book : ChordBook) (calls : List PitchCall) :
    state.SameSettings (state.after book calls) := by
  induction calls generalizing state with
  | nil => exact ⟨rfl, rfl, rfl⟩
  | cons call calls ih =>
      have hstep := state.respond_sameSettings book call
      have hrun := ih (state.respond book call).2
      exact ⟨hrun.language.trans hstep.language, hrun.mode.trans hstep.mode,
        hrun.signs.trans hstep.signs⟩

end PitchState

end Chiptune
