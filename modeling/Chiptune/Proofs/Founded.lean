import Chiptune.Proofs.Step
import Chiptune.Reader.Conducting
import Chiptune.Reader.Settings
import Chiptune.Reader.Voices

/-!
# Founded faults

A fault is founded if the source gives cause for it. Three faults never are: that what
is open is missing, that a song opens inside another, and that a song closes where none
is open. They say that the reader has lost track of what it opened. Nothing below the
reader raises them.
-/

namespace Chiptune

/-- Whether a source can give cause for the fault. -/
@[simp] def Fault.isFounded : Fault → Bool
  | openMissing _ | songAlreadyOpen | noSongOpen => false
  | _ => true

/-! ## Outcomes -/

/-- The fault of an outcome that fails is founded. -/
def Founded {α : Type} (outcome : Except Fault α) : Prop :=
  ∀ fault, outcome = .error fault → fault.isFounded

section Outcomes

variable {α β : Type}

@[simp] theorem founded_ok (value : α) : Founded (.ok value) := by
  intro fault h
  cases h

@[simp] theorem founded_pure (value : α) : Founded (pure value) := founded_ok value

@[simp] theorem founded_error_iff (fault : Fault) :
    Founded (.error fault : Except Fault α) ↔ fault.isFounded := by
  constructor
  · exact fun h => h fault rfl
  · intro h other heq
    cases heq
    exact h

@[simp] theorem founded_throw_iff (fault : Fault) :
    Founded (throw fault : Except Fault α) ↔ fault.isFounded := founded_error_iff fault

@[simp] theorem founded_map_iff (f : α → β) (outcome : Except Fault α) :
    Founded (outcome.map f) ↔ Founded outcome := by
  cases outcome with
  | ok value => simp [Except.map]
  | error fault => simp [Except.map]

theorem founded_throw_bind
    {fault : Fault} {second : α → Except Fault β} (h : fault.isFounded) :
    Founded (throw fault >>= second) := by
  intro other heq
  cases heq
  exact h

theorem Founded.bind
    {first : Except Fault α} {second : α → Except Fault β} (hfirst : Founded first)
    (hsecond : ∀ value, Founded (second value)) : Founded (first >>= second) := by
  cases first with
  | ok value => exact hsecond value
  | error fault =>
      rintro _ ⟨⟩
      exact hfirst fault rfl

theorem founded_mapM
    {f : α → Except Fault β} (h : ∀ item, Founded (f item)) (items : List α) :
    Founded (items.mapM f) := by
  induction items with
  | nil => simp
  | cons item items ih =>
      rw [List.mapM_cons]
      exact (h item).bind fun _ => ih.bind fun _ => founded_pure _

theorem founded_foldlM
    {f : β → α → Except Fault β} (h : ∀ value item, Founded (f value item)) (items : List α)
    (value : β) : Founded (items.foldlM f value) := by
  induction items generalizing value with
  | nil => simp
  | cons item items ih =>
      rw [List.foldlM_cons]
      exact (h value item).bind ih

end Outcomes

/-! ## Fields and registries -/

@[simp] theorem founded_set
    {α : Type} (field : Field α) (value : α) (place : Location) (what owner : String) :
    Founded (field.set value place what owner) := by
  unfold Field.set
  split <;> simp

@[simp] theorem founded_insert
    {α : Type} [Entity α] (registry : Registry α) (kind : String) (entity : α) :
    Founded (registry.insert kind entity) := by
  unfold Registry.insert
  split <;> simp

/-! ## Arguments -/

namespace Argument

@[simp] theorem founded_count
    (keyword : String) (arguments : List String) (least most : Nat) (form : String) :
    Founded (count keyword arguments least most form) := by
  unfold count
  split
  · simp
  · split <;> simp

@[simp] theorem founded_single (keyword : String) (arguments : List String) (form : String) :
    Founded (single keyword arguments form) := by
  unfold single
  split <;> simp

@[simp] theorem founded_number (what word : String) : Founded (number what word) := by
  unfold number
  split <;> simp

@[simp] theorem founded_scale (word : String) : Founded (scale word) := by simp [scale]

@[simp] theorem founded_track (word : String) : Founded (track word) := by
  unfold track
  split <;> simp

theorem founded_option
    (moves : Bool) (form : String) (options : Options) (pair : String × String) :
    Founded (option moves form options pair) := by
  unfold option
  split
  · simp
  · simp
  · split
    · simp
    · split <;> simp

@[simp] theorem founded_named (moves : Bool) (form : String) (arguments : List String) :
    Founded (named moves form arguments) := by
  unfold named
  split
  · simp
  · split
    · simp
    · rw [founded_map_iff]
      exact founded_foldlM (founded_option moves form) _ _

end Argument

/-! ## Chords and pitches -/

theorem ChordCode.founded_invert (code : ChordCode) (times : Nat) :
    Founded (code.invert times) := by
  induction times generalizing code with
  | zero => simp [invert]
  | succ times ih =>
      unfold invert
      split
      · exact ih _
      · simp

namespace ChordBook

theorem founded_splitInversion (text : String) : Founded (splitInversion text) := by
  unfold splitInversion
  split
  · simp
  · split <;> simp

theorem founded_code (book : ChordBook) (lineage : Lineage) (name : String) :
    Founded (book.code lineage name) := by
  unfold code
  split
  · simp
  · split <;> simp

theorem founded_interpret (book : ChordBook) (lineage : Lineage) (text : String) :
    Founded (book.interpret lineage text) := by
  unfold interpret
  split
  · simp
  · refine (founded_splitInversion _).bind fun _ => ?_
    refine (founded_code book lineage _).bind fun _ => ?_
    exact (ChordCode.founded_invert _ _).bind fun _ => founded_pure _

theorem founded_define (book : ChordBook) (lineage : Lineage) (name definition : String) :
    Founded (book.define lineage name definition) := by
  unfold define
  dsimp only
  -- four checks come before the chord is read
  iterate 4
    split
    · exact founded_throw_bind rfl
  refine (founded_interpret book lineage definition).bind fun chord => ?_
  split <;> simp

end ChordBook

namespace PitchState

theorem founded_setLanguage (state : PitchState) (word : String) :
    Founded (state.setLanguage word) := by
  unfold setLanguage
  dsimp only
  split
  · simp
  · split <;> simp

theorem founded_setSigns (state : PitchState) (word : String) :
    Founded (state.setSigns word) := by
  unfold setSigns
  split
  · simp
  · split <;> simp

theorem founded_setArpeggio (state : PitchState) (book : ChordBook) (text : String) :
    Founded (state.setArpeggio book text) := by
  rw [setArpeggio, founded_map_iff]
  exact book.founded_interpret state.lineage text

theorem founded_octaveShift (signs : OctaveSigns) (word : NoteWord) :
    Founded (octaveShift signs word) := by
  unfold octaveShift
  split <;> simp

theorem founded_locate (state : PitchState) (tone : Tone) (word : NoteWord) :
    Founded (state.locate tone word) := by
  unfold locate
  split
  · next fault hshift =>
      rw [founded_error_iff]
      exact founded_octaveShift state.signs word fault hshift
  · simp

theorem founded_writtenChord (state : PitchState) (book : ChordBook) (word : NoteWord) :
    Founded (state.writtenChord book word) := by
  unfold writtenChord
  split
  · exact book.founded_interpret state.lineage _
  · simp

theorem founded_read (state : PitchState) (book : ChordBook) (word : NoteWord) :
    Founded (state.read book word) := by
  unfold read
  split
  · next fault hchord =>
      rw [founded_error_iff]
      exact founded_writtenChord state book word fault hchord
  · split
    · next chord _ tone _ =>
        unfold playTone
        split
        · next fault hlocate =>
            rw [founded_error_iff]
            exact founded_locate state tone word fault hlocate
        · simp
    · split
      · simp
      · split
        · unfold repeatLast
          split <;> simp
        · simp
        · simp
        · simp

theorem founded_readAbsolute (state : PitchState) (word : String) :
    Founded (state.readAbsolute word) := by
  unfold readAbsolute
  split
  · rw [founded_map_iff]
    unfold noisePitch
    split
    · simp
    · split <;> simp
  · split
    · simp
    · split
      · split
        · next fault hlocate =>
            rw [founded_error_iff]
            exact founded_locate _ _ _ fault hlocate
        · simp
      · simp

end PitchState

/-! ## Voices -/

theorem Looped.founded_read
    {α : Type} (what : String) {read : String → Except Fault α}
    (hread : ∀ word, Founded (read word)) (words : List String) :
    Founded (Looped.read what read words) := by
  have hsplit : Founded (Looped.split words) := by
    unfold Looped.split
    split
    · simp
    · dsimp only
      split <;> simp
  refine hsplit.bind fun values => ?_
  dsimp only
  split
  · exact founded_throw_bind rfl
  · exact (founded_mapM hread _).bind fun _ => founded_pure _

namespace Envelope

theorem founded_readNumber (what word : String) : Founded (readNumber what word) := by
  unfold readNumber
  split <;> simp

theorem founded_setVolume
    (envelope : Envelope) (words : List String) (place : Location) (owner : String) :
    Founded (envelope.setVolume words place owner) := by
  have hread : ∀ word, Founded (readVolume word) := by
    intro word
    refine (founded_readNumber _ word).bind fun value => ?_
    split <;> simp
  exact (Looped.founded_read _ hread words).bind fun _ =>
    (founded_set _ _ _ _ _).bind fun _ => founded_pure _

theorem founded_setTimbre
    (envelope : Envelope) (most : Nat) (words : List String) (place : Location)
    (owner : String) : Founded (envelope.setTimbre most words place owner) := by
  have hread : ∀ word, Founded (readTimbre most word) := by
    intro word
    refine (founded_readNumber _ word).bind fun value => ?_
    split <;> simp
  exact (Looped.founded_read _ hread words).bind fun _ =>
    (founded_set _ _ _ _ _).bind fun _ => founded_pure _

theorem founded_setPitch
    (envelope : Envelope) {read : String → Except Fault Int}
    (hread : ∀ word, Founded (read word)) (words : List String) (place : Location)
    (owner : String) : Founded (envelope.setPitch read words place owner) :=
  (Looped.founded_read _ hread words).bind fun _ =>
    (founded_set _ _ _ _ _).bind fun _ => founded_pure _

theorem founded_readRelativePitch (word : String) : Founded (readRelativePitch word) := by
  refine (founded_readNumber _ word).bind fun value => ?_
  split <;> simp

end Envelope

namespace Instrument

theorem founded_setDecay (instrument : Instrument) (rate : Int) (place : Location) :
    Founded (instrument.setDecay rate place) := by
  unfold setDecay
  split <;> simp

theorem founded_setPitch (instrument : Instrument) (words : List String) (place : Location) :
    Founded (instrument.setPitch words place) := by
  rw [setPitch, founded_map_iff]
  exact Envelope.founded_setPitch _ Envelope.founded_readRelativePitch words place _

end Instrument

namespace SoundEffect

theorem founded_setRate (effect : SoundEffect) (rate : Int) (place : Location) :
    Founded (effect.setRate rate place) := by
  unfold setRate
  split <;> simp

theorem founded_setPitch (effect : SoundEffect) (words : List String) (place : Location) :
    Founded (effect.setPitch words place) := by
  have hread : ∀ word, Founded (readPitch effect.pitch word) := by
    intro word
    have habsolute := PitchState.founded_readAbsolute effect.pitch word
    unfold readPitch
    split
    · split
      · simpa using habsolute
      · split <;> simp
    · simpa using habsolute
  rw [setPitch, founded_map_iff]
  exact Envelope.founded_setPitch _ hread words place _

end SoundEffect

theorem Channel.founded_ofName (name : String) : Founded (Channel.ofName name) := by
  unfold ofName
  split
  · simp
  · split
    · simp
    · split <;> simp

theorem Drum.founded_define
    (name written : String) (effects : List String) (place : Location) :
    Founded (Drum.define name written effects place) := by
  unfold Drum.define
  split
  · simp
  · split <;> simp

/-! ## Rhythm -/

namespace Meter

@[simp] theorem founded_setSticky (meter : Meter) (word : String) :
    Founded (meter.setSticky word) := by
  unfold setSticky
  split
  · simp
  · split <;> simp

@[simp] theorem founded_setTime (meter : Meter) (beats beatUnit : Nat) :
    Founded (meter.setTime beats beatUnit) := by
  unfold setTime
  split
  · simp
  · split <;> simp

@[simp] theorem founded_setScale (meter : Meter) (scale : Nat) :
    Founded (meter.setScale scale) := by
  unfold setScale
  split <;> simp

@[simp] theorem founded_unitRows (meter : Meter) : Founded meter.unitRows := by
  unfold unitRows
  split <;> simp

@[simp] theorem founded_measureRows (meter : Meter) : Founded meter.measureRows := by
  simp [measureRows]

@[simp] theorem founded_beatRows (meter : Meter) : Founded meter.beatRows := by
  simp [beatRows]

theorem founded_writtenDuration (number : Option Nat) (augment : Augment) :
    Founded (writtenDuration number augment) := by
  unfold writtenDuration
  split
  · split <;> simp
  · split
    · simp
    · split <;> simp

theorem founded_setLength (meter : Meter) (duration : Option Duration) :
    Founded (meter.setLength duration) := by
  unfold setLength
  split
  · simp
  · split <;> simp

theorem founded_rowsOf (meter : Meter) (duration : Duration) :
    Founded (meter.rowsOf duration) := by
  unfold rowsOf
  dsimp only
  split <;> simp

theorem founded_locate (meter : Meter) (measure : Int) (beat row : Nat) :
    Founded (meter.locate measure beat row) := by
  unfold locate
  dsimp only
  split
  · exact founded_throw_bind rfl
  · refine meter.founded_beatRows.bind fun beatRows => ?_
    split
    · exact founded_throw_bind rfl
    · refine meter.founded_measureRows.bind fun length => ?_
      split
      · exact founded_throw_bind rfl
      · simp

theorem founded_moveTo (meter : Meter) (target : Position) :
    Founded (meter.moveTo target) := by
  refine meter.founded_measureRows.bind fun length => ?_
  dsimp only
  split
  · exact founded_throw_bind rfl
  · split
    · exact founded_throw_bind rfl
    · simp

theorem founded_readTime (word : String) : Founded (readTime word) := by
  unfold readTime
  split
  · simp
  · split
    · simp
    · split
      · simp
      · split
        · simp
        · split
          · simp
          · split <;> simp

end Meter

theorem Position.founded_readWord (word : String) : Founded (Position.readWord word) := by
  unfold Position.readWord
  dsimp only
  split <;> simp

/-! ## Steps -/

namespace Step

variable {σ τ α β : Type} {state : σ}

/-- Every fault of the step in the state is founded. -/
def FoundedAt (step : Step σ α) (state : σ) : Prop :=
  ∀ fault next, step state = .error fault next → fault.isFounded

theorem foundedAt_pure (value : α) : FoundedAt (pure value) state := by
  intro fault next h
  cases h

theorem foundedAt_throw {fault : Fault} (hfault : fault.isFounded) :
    FoundedAt (throw fault : Step σ α) state := by
  intro other next h
  cases h
  exact hfault

theorem foundedAt_modify (change : σ → σ) :
    FoundedAt (modify change : Step σ PUnit) state := by
  intro fault next h
  cases h

theorem foundedAt_decide {outcome : Except Fault α} (h : Founded outcome) :
    FoundedAt (decide outcome) state := by
  intro fault next hrun
  exact h fault (decide_eq_error hrun).1

theorem foundedAt_advance {outcome : σ → Except Fault (α × σ)} (h : Founded (outcome state)) :
    FoundedAt (advance outcome) state := by
  intro fault next hrun
  exact h fault (advance_eq_error hrun).1

theorem foundedAt_bind
    {first : Step σ α} {second : α → Step σ β} (hfirst : FoundedAt first state)
    (hsecond : ∀ value next, first state = .ok value next → FoundedAt (second value) next) :
    FoundedAt (first >>= second) state := by
  intro fault next hrun
  rcases bind_eq_error hrun with hfails | ⟨value, reached, hreached, hfails⟩
  · exact hfirst fault next hfails
  · exact hsecond value reached hreached fault next hfails

theorem foundedAt_get_bind {second : σ → Step σ β} (h : FoundedAt (second state) state) :
    FoundedAt (get >>= second) state := h

theorem foundedAt_throw_bind
    {fault : Fault} {second : α → Step σ β} (hfault : fault.isFounded) :
    FoundedAt (throw fault >>= second) state :=
  foundedAt_bind (foundedAt_throw hfault) fun _ _ h => nomatch h

theorem foundedAt_decide_bind
    {outcome : Except Fault α} {second : α → Step σ β} (houtcome : Founded outcome)
    (h : ∀ value, FoundedAt (second value) state) :
    FoundedAt (decide outcome >>= second) state := by
  apply foundedAt_bind (foundedAt_decide houtcome)
  intro value next hrun
  obtain ⟨-, rfl⟩ := decide_eq_ok hrun
  exact h value

theorem foundedAt_on
    {part : σ → τ} {put : τ → σ → σ} {step : Step τ α} (h : FoundedAt step (part state)) :
    FoundedAt (on part put step) state := by
  intro fault next hrun
  unfold on at hrun
  split at hrun
  · cases hrun
  · next hstep =>
      cases hrun
      exact h _ _ hstep

end Step

open Step

theorem Meter.foundedAt_noteRows (written : Option Duration) (meter : Meter) :
    FoundedAt (noteRows written) meter := by
  have hinForce : ∀ duration, FoundedAt (durationInForce duration) meter := by
    intro duration
    unfold durationInForce
    split
    · apply foundedAt_get_bind
      split
      · exact foundedAt_bind (foundedAt_modify _) fun _ _ _ => foundedAt_pure _
      · exact foundedAt_pure _
    · apply foundedAt_get_bind
      split
      · exact foundedAt_pure _
      · refine foundedAt_decide_bind (by simp [beatDuration]) fun _ => ?_
        exact foundedAt_bind (foundedAt_modify _) fun _ _ _ => foundedAt_pure _
  unfold noteRows
  split
  · exact foundedAt_pure _
  · refine foundedAt_bind (hinForce _) fun duration next _ => foundedAt_get_bind ?_
    exact foundedAt_decide_bind (next.founded_rowsOf duration) fun _ => foundedAt_pure _

/-! ## Patterns -/

namespace Pattern

variable {pattern : Pattern}

theorem foundedAt_takeLength (duration : Option Duration) :
    FoundedAt (takeLength duration) pattern := by
  apply foundedAt_advance
  rw [founded_map_iff]
  exact pattern.meter.founded_setLength duration

theorem foundedAt_addNote
    (note : PatternNote) (duration : Option Duration) (slur : SlurMark)
    (chord : Option ChordCode) : FoundedAt (addNote note duration slur chord) pattern := by
  refine foundedAt_bind (foundedAt_on ?_) fun _ _ _ => foundedAt_modify _
  exact Meter.foundedAt_noteRows duration pattern.meter

theorem foundedAt_addPitched (book : ChordBook) (word : NoteWord) :
    FoundedAt (addPitched book word) pattern := by
  refine foundedAt_decide_bind (Meter.founded_writtenDuration _ _) fun duration => ?_
  refine foundedAt_bind (foundedAt_advance ?_) ?_
  · rw [founded_map_iff]
    exact pattern.pitch.founded_read book word
  · rintro ⟨played, chord⟩ next -
    cases played with
    | length => exact foundedAt_takeLength duration
    | semitone | rest | wait => exact foundedAt_addNote _ _ _ _

theorem foundedAt_addDrum (word : DrumWord) : FoundedAt (addDrum word) pattern := by
  refine foundedAt_decide_bind (Meter.founded_writtenDuration _ _) fun duration => ?_
  cases word.stroke with
  | length => exact foundedAt_takeLength duration
  | rest | wait | hit => exact foundedAt_addNote _ _ _ _

theorem foundedAt_addFirst (book : ChordBook) (word : String) :
    FoundedAt (addFirst book word) pattern := by
  unfold addFirst
  split
  · split
    · exact foundedAt_addPitched book _
    · split
      · exact foundedAt_throw rfl
      · exact foundedAt_bind (foundedAt_modify _) fun _ _ _ => foundedAt_addPitched book _
  · exact foundedAt_bind (foundedAt_modify _) fun _ _ _ => foundedAt_addDrum _
  · exact foundedAt_throw rfl

theorem foundedAt_addNoteWord (book : ChordBook) (word : String) :
    FoundedAt (addNoteWord book word) pattern := by
  apply foundedAt_get_bind
  split
  · exact foundedAt_addFirst book word
  · split
    · exact foundedAt_addDrum _
    · exact foundedAt_throw rfl
  · split
    · exact foundedAt_addPitched book _
    · exact foundedAt_throw rfl

theorem foundedAt_addArpeggio (book : ChordBook) (word argument : String) :
    FoundedAt (addArpeggio book word argument) pattern := by
  unfold addArpeggio
  split
  · exact foundedAt_bind (foundedAt_modify _) fun _ _ _ => foundedAt_pure _
  · split
    · exact foundedAt_bind (foundedAt_modify _) fun _ _ _ => foundedAt_pure _
    · split
      · apply foundedAt_advance
        rw [founded_map_iff]
        exact pattern.pitch.founded_setArpeggio book argument
      · exact foundedAt_pure _

theorem foundedAt_addEffect (effect : Option PatternEffect) (warning : String) :
    FoundedAt (addEffect effect warning) pattern := by
  unfold addEffect
  split
  · exact foundedAt_bind (foundedAt_modify _) fun _ _ _ => foundedAt_pure _
  · exact foundedAt_pure _

theorem founded_barCheck (pattern : Pattern) : Founded (barCheck pattern) := by
  refine pattern.meter.founded_measureRows.bind fun length => ?_
  split
  · exact founded_throw_bind rfl
  · dsimp only
    split <;> simp

theorem foundedAt_addWord (book : ChordBook) (word : String) :
    FoundedAt (addWord book word) pattern := by
  unfold addWord
  split
  · exact foundedAt_get_bind (foundedAt_decide pattern.founded_barCheck)
  · apply foundedAt_get_bind
    split
    · exact foundedAt_throw_bind rfl
    · exact foundedAt_bind (foundedAt_modify _) fun _ _ _ => foundedAt_pure _
  · exact foundedAt_addEffect _ _
  · exact foundedAt_addArpeggio _ _ _
  · exact foundedAt_addEffect _ _
  · exact foundedAt_addEffect _ _
  · unfold selectInstrument
    split
    · exact foundedAt_throw_bind rfl
    · exact foundedAt_bind (foundedAt_modify _) fun _ _ _ => foundedAt_pure _
  · exact foundedAt_bind (foundedAt_addNoteWord _ _) fun _ _ _ => foundedAt_pure _

theorem foundedAt_addWords (book : ChordBook) (words : List String) :
    FoundedAt (addWords book words) pattern := by
  induction words generalizing pattern with
  | nil => exact foundedAt_pure _
  | cons word words ih =>
      refine foundedAt_bind (foundedAt_addWord book word) fun _ next _ => ?_
      exact foundedAt_bind ih fun _ _ _ => foundedAt_pure _

end Pattern

/-! ## Songs -/

theorem Ending.founded_ofWords (words : List String) : Founded (Ending.ofWords words) := by
  unfold Ending.ofWords
  dsimp only
  split
  · simp
  · split
    · simp
    · split <;> simp

namespace Song

variable {song : Song}

theorem founded_setTempo (song : Song) (tempo : Float) : Founded (song.setTempo tempo) := by
  unfold setTempo
  split <;> simp

theorem founded_sendBeat (beatRows : Nat) (song : Song) : Founded (song.sendBeat beatRows) := by
  unfold sendBeat
  split
  · simp
  · split <;> simp

theorem founded_finish (song : Song) (ending : Ending) : Founded (song.finish ending) := by
  unfold finish
  split <;> simp

theorem founded_attackOn (song : Song) (track : Track) : Founded (song.attackOn track) := by
  cases track <;> simp [attackOn]

theorem founded_addMark (song : Song) (name : String) : Founded (song.addMark name) := by
  unfold addMark
  split <;> simp

theorem foundedAt_waitRows (rows : Nat) : FoundedAt (waitRows rows) song := by
  unfold waitRows
  split
  · exact foundedAt_pure _
  · apply foundedAt_get_bind
    refine foundedAt_decide_bind (Meter.founded_beatRows _) fun beatRows => ?_
    apply foundedAt_get_bind
    dsimp only
    split
    · exact foundedAt_throw_bind rfl
    · refine foundedAt_bind (foundedAt_modify _) fun _ told _ => ?_
      refine foundedAt_bind (foundedAt_advance ?_) fun _ _ _ => foundedAt_modify _
      rw [founded_map_iff]
      exact founded_sendBeat beatRows told

theorem foundedAt_waitUntil (measure : Int) (beat row : Nat) :
    FoundedAt (waitUntil measure beat row) song := by
  apply foundedAt_get_bind
  refine foundedAt_decide_bind (Meter.founded_locate _ _ _ _) fun target => ?_
  refine foundedAt_bind (foundedAt_advance ?_) fun rows _ _ => foundedAt_waitRows rows
  rw [founded_map_iff]
  exact song.meter.founded_moveTo target

end Song

end Chiptune
