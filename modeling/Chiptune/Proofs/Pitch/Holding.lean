import Chiptune.Proofs.Pitch.Calls

/-!
# Chords that waits hold

A wait extends the note before it and keeps its chord. What it keeps is the chord of the last
tone or rest, or else the chord for all notes. A repeated chord may have a chord of its own
but is not remembered, so a wait behind it goes back to the chord before.
-/

namespace Chiptune.PitchState

variable {state next : PitchState} {book : ChordBook} {word : NoteWord} {text : String}
  {pitch : Int} {note : NotePitch} {code : Option ChordCode} {call : PitchCall}

/-- The code of the chord that a wait without one keeps. -/
def kept (state : PitchState) : Option ChordCode := state.heldCode none

/-- A wait is always played, and leaves the state. -/
theorem respond_wait (state : PitchState) (book : ChordBook) :
    state.respond book (.note "w") = (.played .wait state.kept, state) := by
  have hscan : NoteWord.scan? "w" =
      some ⟨0, .wait, .natural, ⟨0, none, .plain, none, .none⟩⟩ := by decide
  simp only [respond, hscan]
  rfl

/-- A tone is remembered with all that a wait keeps of it. -/
theorem Plays.kept_of_tone
    (h : state.Plays book word (.semitone pitch) code next) {tone : Tone}
    (hletter : word.letter = .tone tone) :
    next.kept = code ∧ next.last = some (pitch, code) := by
  obtain ⟨_, _, written, arpeggio, -, -, -, harpeggio, ⟨⟩, rfl, rfl⟩ := h.of_tone hletter
  refine ⟨?_, rfl⟩
  rw [← harpeggio]
  rfl

/-! ## Quiet calls -/

/-- The call is refused, or is a wait, a length or a repeated chord. -/
def IsQuiet (state : PitchState) (book : ChordBook) (call : PitchCall) : Prop :=
  (state.respond book call).1 = .noWord ∨ (∃ fault, (state.respond book call).1 = .refused fault) ∨
    ∃ text word, call = .note text ∧ NoteWord.scan? text = some word ∧
      word.letter ∈ [.wait, .length, .repeatChord]

theorem IsQuiet.respond_eq (h : state.IsQuiet book call) : (state.respond book call).2 = state := by
  have hresponds := state.respond_responds book call
  unfold IsQuiet at h
  generalize (state.respond book call).1 = reply at h hresponds
  generalize (state.respond book call).2 = next at hresponds ⊢
  cases hresponds with
  | noWord => rfl
  | refused => rfl
  | done =>
      rcases h with h | ⟨fault, h⟩ | ⟨text, word, h, -⟩ <;> cases h
  | played hscan hplays =>
      rcases h with h | ⟨fault, h⟩ | ⟨text, word, ⟨⟩, hword, hletter⟩
      · cases h
      · cases h
      · cases hword.symm.trans hscan
        cases hplays with
        | tone hother | rest hother => simp [hother] at hletter
        | again | wait | length => rfl

theorem after_quiet {calls : List PitchCall} (h : ∀ call ∈ calls, state.IsQuiet book call) :
    state.after book calls = state := by
  induction calls with
  | nil => rfl
  | cons call calls ih =>
      obtain ⟨hcall, hcalls⟩ := List.forall_mem_cons.mp h
      rw [after_cons, hcall.respond_eq, ih hcalls]

/-- The last of the calls that are not quiet plays a tone, under the chord with the code. -/
def EndsOnTone (start : PitchState) (book : ChordBook) (calls : List PitchCall)
    (code : Option ChordCode) : Prop :=
  ∃ earlier text later word tone pitch next, calls = earlier ++ .note text :: later ∧
    NoteWord.scan? text = some word ∧ word.letter = .tone tone ∧
    (start.after book earlier).respond book (.note text) =
      (.played (.semitone pitch) code, next) ∧
    ∀ call ∈ later, next.IsQuiet book call

theorem after_append (earlier later : List PitchCall) :
    state.after book (earlier ++ later) = (state.after book earlier).after book later :=
  List.foldl_append

theorem EndsOnTone.kept_and_last
    {start : PitchState} {calls : List PitchCall} (h : start.EndsOnTone book calls code) :
    (start.after book calls).kept = code ∧
      ∃ pitch, (start.after book calls).last = some (pitch, code) := by
  obtain ⟨earlier, text, later, word, tone, pitch, next, rfl, hscan, hletter, hplayed, hquiet⟩ := h
  have hafter : start.after book (earlier ++ .note text :: later) = next := by
    rw [after_append, after_cons, hplayed, after_quiet hquiet]
  have hplays := plays_of_respond hscan hplayed
  rw [hafter]
  obtain ⟨hkept, hlast⟩ := hplays.kept_of_tone hletter
  exact ⟨hkept, pitch, hlast⟩

/-- After every run of calls, a wait behind a tone keeps the chord of the tone. Behind a
repeated chord it keeps what it would have kept without it. If only quiet calls stand between
the tone and the repeated chord, that is the chord of the repetition exactly if this writes no
chord or one with the code of the tone. -/
theorem wait_keeps_chord_iff
    (start : PitchState) (book : ChordBook) (calls : List PitchCall)
    (hscan : NoteWord.scan? text = some word)
    (hplayed : (start.after book calls).respond book (.note text) =
      (.played (.semitone pitch) code, next)) :
    (∀ tone, word.letter = .tone tone →
      (next.respond book (.note "w")).1 = .played .wait code) ∧
    (word.letter = .repeatChord →
      (next.respond book (.note "w")).1 =
        ((start.after book calls).respond book (.note "w")).1) ∧
    (word.letter = .repeatChord → ∀ sounded, start.EndsOnTone book calls sounded →
      ((next.respond book (.note "w")).1 = .played .wait code ↔
        ∀ chord, (start.after book calls).writtenChord book word = .ok (some chord) →
          some chord.code = sounded)) := by
  have hplays := plays_of_respond hscan hplayed
  refine ⟨?_, ?_, ?_⟩
  · intro tone hletter
    rw [respond_wait, (hplays.kept_of_tone hletter).1]
  · intro hletter
    obtain ⟨_, _, _, -, -, -, -, rfl⟩ := hplays.of_repeatChord hletter
    rfl
  · intro hletter sounded hends
    obtain ⟨_, last, written, hwritten, hlast, -, rfl, rfl⟩ := hplays.of_repeatChord hletter
    obtain ⟨hkept, found, hfound⟩ := hends.kept_and_last
    cases hlast.symm.trans hfound
    rw [respond_wait, hkept, hwritten]
    cases written with
    | none => simp
    | some chord => simp [eq_comm]

/-- A state in absolute mode, before any note. -/
def cantus : PitchState := { PitchState.initial with mode := .absolute }

/-- A tone under an inverted downward chord, held, and a text that is no word. -/
def cadence : List PitchCall := [.note "e:-M/1", .note "w8", .note "e:"]

/-- A chord that is repeated as it was is kept. -/
theorem cadence_keeps_chord :
    cantus.EndsOnTone .blank cadence (some (.ofNats 3 8)) ∧
      ∃ word next, NoteWord.scan? "q4" = some word ∧ word.letter = .repeatChord ∧
        (cantus.after .blank cadence).respond .blank (.note "q4") =
          (.played (.semitone 11) (some (.ofNats 3 8)), next) ∧
        (next.respond .blank (.note "w")).1 = .played .wait (some (.ofNats 3 8)) := by
  have hends : cantus.EndsOnTone .blank cadence (some (.ofNats 3 8)) := by
    have htone : NoteWord.scan? "e:-M/1" =
        some ⟨0, .tone .e, .natural, ⟨0, none, .plain, some "-M/1", .none⟩⟩ := by decide
    have hwait : NoteWord.scan? "w8" =
        some ⟨0, .wait, .natural, ⟨0, some 8, .plain, none, .none⟩⟩ := by decide
    refine ⟨[], _, [.note "w8", .note "e:"], _, .e, 11, _, rfl, htone, rfl, rfl, ?_⟩
    refine List.forall_mem_cons.mpr ⟨.inr (.inr ⟨_, _, rfl, hwait, by decide⟩), ?_⟩
    exact List.forall_mem_singleton.mpr (.inl (rfl))
  have hscan : NoteWord.scan? "q4" =
      some ⟨0, .repeatChord, .natural, ⟨0, some 4, .plain, none, .none⟩⟩ := by decide
  have hplayed : ∃ next, (cantus.after .blank cadence).respond .blank (.note "q4") =
      (.played (.semitone 11) (some (.ofNats 3 8)), next) := ⟨_, rfl⟩
  obtain ⟨next, hnext⟩ := hplayed
  obtain ⟨-, -, hagain⟩ := wait_keeps_chord_iff cantus .blank cadence hscan hnext
  exact ⟨hends, _, next, hscan, rfl, hnext, (hagain rfl _ hends).mpr nofun⟩

/-- A minor chord on the tone of a major one is not kept. -/
theorem cantus_loses_repeated_chord :
    ∃ word code next held, NoteWord.scan? "q:m" = some word ∧ word.letter = .repeatChord ∧
      (cantus.after .blank [.note "c:M"]).respond .blank (.note "q:m") =
        (.played (.semitone 15) code, next) ∧
      (next.respond .blank (.note "w")).1 = .played .wait held ∧ held ≠ code := by
  have hscan : NoteWord.scan? "q:m" =
      some ⟨0, .repeatChord, .natural, ⟨0, none, .plain, some "m", .none⟩⟩ := by decide
  exact ⟨_, some (.ofNats 3 7), _, some (.ofNats 4 7), hscan, rfl, rfl, rfl, by decide⟩

end Chiptune.PitchState
