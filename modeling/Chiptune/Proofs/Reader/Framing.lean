import Chiptune.Proofs.Reader.Fitting

/-!
# Reading in a frame

Every statement keeps a reader fitting its frame. It may be refused in the frame because
a name or the resume point is taken there, but if it succeeds in the frame then it
succeeds outside; in a frame with nothing before it does exactly the same.
-/

namespace Chiptune.Frame.Fits

open Step

variable {frame : Frame} {reader own : Reader} (h : frame.Fits reader own)
include h

/-! ## Statements -/

theorem setLanguage (arguments : List String) :
    Lockstep frame.lax (Reader.setLanguage arguments) (Reader.setLanguage arguments) reader own
      frame.Follows :=
  lockstep_decide_bind fun word _ =>
    h.changePitch fun pitch => frame.setLanguage_pitch pitch word

theorem setSigns (arguments : List String) :
    Lockstep frame.lax (Reader.setSigns arguments) (Reader.setSigns arguments) reader own
      frame.Follows :=
  lockstep_decide_bind fun word _ =>
    h.changePitch fun pitch => frame.setSigns_pitch pitch word

theorem setDurations (arguments : List String) :
    Lockstep frame.lax (Reader.setDurations arguments) (Reader.setDurations arguments) reader
      own frame.Follows :=
  lockstep_decide_bind fun _ _ => h.changeMeter _

theorem setScale (arguments : List String) :
    Lockstep frame.lax (Reader.setScale arguments) (Reader.setScale arguments) reader own
      frame.Follows :=
  lockstep_decide_bind fun _ _ => lockstep_decide_bind fun _ _ => h.changeMeter _

theorem setTime (arguments : List String) :
    Lockstep frame.lax (Reader.setTime arguments) (Reader.setTime arguments) reader own
      frame.Follows := by
  apply lockstep_decide_bind
  intro _ _
  split
  · exact lockstep_throw rfl
  · refine lockstep_decide_bind fun signature _ => lockstep_decide_bind fun scale _ => ?_
    apply (h.changeMeter _).bind
    rintro _ _ next next' ⟨-, hnext⟩
    split
    · exact hnext.changeMeter _
    · exact lockstep_pure ⟨rfl, hnext⟩

theorem define (words : List String) :
    Lockstep frame.lax (Reader.define words) (Reader.define words) reader own
      frame.Follows := by
  apply lockstep_advance
  split
  · exact .fault rfl
  · dsimp only
    split
    · exact .fault rfl
    · next chord _ =>
        have hlineage : reader.pitchSettings.lineage =
            frame.lineage own.pitchSettings.lineage := by
          rw [h.pitchSettings]
          rfl
        rw [h.chords, hlineage, frame.define_book h.layers]
        cases hdefine : own.chords.define own.pitchSettings.lineage chord _ with
        | error fault => exact .fault rfl
        | ok chords =>
            have hlayers : chords.layers ≠ [] := by
              obtain ⟨-, -, -, arpeggio, -, rfl⟩ := ChordBook.define_eq_ok hdefine
              exact Reader.record_ne_nil h.layers _ _ _
            exact .ok ⟨rfl, { h with chords := rfl, layers := hlayers }⟩

theorem creditAlbum (credit : Reader.Credit) (text : String) :
    Agree frame.lax (· = frame.album ·)
      (Reader.creditAlbum credit text reader.here reader.score.album)
      (Reader.creditAlbum credit text own.here own.score.album) := by
  rw [h.here, h.score]
  cases credit with
  | title =>
      apply (frame.set_field own.score.album.title text own.here "title" "the album").map
      rintro _ title rfl
      rfl
  | author =>
      apply (frame.set_field own.score.album.author text own.here "author" "the album").map
      rintro _ author rfl
      rfl
  | copyright =>
      apply (frame.set_field own.score.album.copyright text own.here "copyright"
        "the album").map
      rintro _ copyright rfl
      rfl

theorem setCredit (credit : Reader.Credit) (arguments : List String) :
    Lockstep frame.lax (Reader.setCredit credit arguments) (Reader.setCredit credit arguments)
      reader own frame.Follows := by
  unfold Reader.setCredit
  dsimp only
  split
  · exact lockstep_throw_bind rfl
  · apply lockstep_get_bind
    have hopen : reader.scope.song.isSome = own.scope.song.isSome := by
      rw [h.scope]
      simp [Frame.scope]
    rw [hopen]
    split
    · apply h.changeSong
      intro song
      rw [h.here]
      exact frame.creditSong_song credit _ own.here song
    · apply lockstep_advance
      apply (h.creditAlbum credit _).map
      rintro _ album rfl
      refine ⟨rfl, { h with score := ?_ }⟩
      simp [h.score, Frame.score]

omit h in
theorem outside (keyword allowed : String) :
    Lockstep frame.lax (Reader.outside keyword allowed) (Reader.outside keyword allowed) reader
      own frame.Follows :=
  lockstep_get_bind (lockstep_throw rfl)

omit h in
/-- A name that was taken before makes the frame lax. -/
theorem lax_of_get?
    {α : Type} [Entity α] (part : Score → Registry α) (hempty : part Score.empty = .empty)
    {name : String} (hget : ((part frame.before).get? name).isSome) : frame.lax := by
  refine Classical.byContradiction fun hwhole => ?_
  rw [frame.whole hwhole, hempty] at hget
  cases hget

theorem defineEffect (arguments : List String) :
    Lockstep frame.lax (Reader.defineEffect arguments) (Reader.defineEffect arguments) reader
      own frame.Follows := by
  apply lockstep_advance
  split
  · next name channel =>
      apply (agree_self (Channel.ofName channel)).bind
      rintro channel _ rfl
      have hblank : SoundEffect.blank (reader.qualified name) reader.here channel
          reader.parentPitch =
            frame.effect (.blank (own.qualified name) own.here channel own.parentPitch) := by
        rw [h.qualified, h.here, h.parentPitch]
        rfl
      rw [hblank, h.score]
      apply (Registry.insert_behind frame.before.sfx own.score.sfx frame.effect
        (fun _ => rfl) "sfx" _ (lax_of_get? Score.sfx rfl)).bind
      rintro ⟨_, _⟩ ⟨index, sfx⟩ ⟨rfl, rfl⟩
      refine .ok ⟨rfl, { h with score := rfl, scope := ?_ }⟩
      simp [Reader.openObject, Scope.openObject, h.scope, Frame.scope, Frame.object]
  · exact .fault rfl

theorem defineInstrument (arguments : List String) :
    Lockstep frame.lax (Reader.defineInstrument arguments) (Reader.defineInstrument arguments)
      reader own frame.Follows := by
  apply lockstep_advance
  apply (agree_self (Argument.single "instrument" arguments "NAME")).bind
  rintro name _ rfl
  have hblank : Instrument.blank (reader.qualified name) reader.here =
      frame.instrument (.blank (own.qualified name) own.here) := by
    rw [h.qualified, h.here]
    rfl
  rw [hblank, h.score]
  apply (Registry.insert_behind frame.before.instruments own.score.instruments frame.instrument
    (fun _ => rfl) "instrument" _ (lax_of_get? Score.instruments rfl)).bind
  rintro ⟨_, _⟩ ⟨index, instruments⟩ ⟨rfl, rfl⟩
  refine .ok ⟨rfl, { h with score := rfl, scope := ?_ }⟩
  simp [Reader.openObject, Scope.openObject, h.scope, Frame.scope, Frame.object]

theorem defineDrum (arguments : List String) :
    Lockstep frame.lax (Reader.defineDrum arguments) (Reader.defineDrum arguments) reader own
      frame.Follows := by
  apply lockstep_advance
  apply (agree_self (Argument.count "drum" arguments 2 3 "NAME SFX [SFX]")).bind
  rintro _ _ -
  split
  · exact .fault rfl
  · next name effects =>
      have hdefine : Agree frame.lax (· = frame.drum ·)
          (Drum.define (reader.qualified name) name effects reader.here)
          (Drum.define (own.qualified name) name effects own.here) := by
        rw [h.qualified, h.here]
        unfold Drum.define
        split
        · exact .fault rfl
        · split
          · exact .ok rfl
          · exact .fault rfl
      apply hdefine.bind
      rintro _ drum rfl
      rw [h.score]
      apply (Registry.insert_behind frame.before.drums own.score.drums frame.drum
        (fun _ => rfl) "drum" _ (lax_of_get? Score.drums rfl)).bind
      rintro ⟨_, _⟩ ⟨index, drums⟩ ⟨rfl, rfl⟩
      exact .ok ⟨rfl, { h with score := rfl }⟩

theorem definePattern (arguments : List String) :
    Lockstep frame.lax (Reader.definePattern arguments) (Reader.definePattern arguments) reader
      own frame.Follows := by
  apply lockstep_advance
  apply (agree_self (Argument.named false "pattern NAME [on TRACK] [with INSTRUMENT]"
    arguments)).bind
  rintro ⟨name, options⟩ _ rfl
  have hchild : reader.parentPitch.child reader.chords =
      Prod.map frame.pitch frame.book (own.parentPitch.child own.chords) := by
    rw [h.parentPitch, h.chords, frame.child_pitch h.layers]
  have hblank : Pattern.blank (reader.qualified name) reader.here options.track
      options.instrument (frame.pitch (own.parentPitch.child own.chords).1) reader.parentMeter =
        frame.pattern (.blank (own.qualified name) own.here options.track options.instrument
          (own.parentPitch.child own.chords).1 own.parentMeter) := by
    rw [h.qualified, h.here, h.parentMeter]
    rfl
  simp only [hchild, Prod.map]
  rw [hblank, h.score]
  apply (Registry.insert_behind frame.before.patterns own.score.patterns frame.pattern
    (fun _ => rfl) "pattern" _ (lax_of_get? Score.patterns rfl)).bind
  rintro ⟨_, _⟩ ⟨index, patterns⟩ ⟨rfl, rfl⟩
  refine .ok ⟨rfl, { h with score := rfl, scope := ?_, chords := rfl, layers := ?_ }⟩
  · simp [Reader.openObject, Scope.openObject, h.scope, Frame.scope, Frame.object]
  · simp [Reader.openObject, PitchState.child, ChordBook.nest]

theorem setFallthrough (object : Option OpenObject) (arguments : List String) :
    Lockstep frame.lax (Reader.setFallthrough (object.map frame.object) arguments)
      (Reader.setFallthrough object arguments) reader own frame.Follows := by
  apply lockstep_decide_bind
  intro _ _
  rcases object with _ | object
  · exact lockstep_throw rfl
  · cases object with
    | sfx index => exact lockstep_throw rfl
    | instrument index => exact lockstep_throw rfl
    | pattern index =>
        exact h.onPattern index fun _ => lockstep_modify ⟨rfl, rfl⟩

theorem setRate (object : Option OpenObject) (arguments : List String) :
    Lockstep frame.lax (Reader.setRate (object.map frame.object) arguments)
      (Reader.setRate object arguments) reader own frame.Follows := by
  refine lockstep_decide_bind fun word _ => lockstep_decide_bind fun rate _ => ?_
  apply lockstep_get_bind
  rw [h.here]
  rcases object with _ | object
  · exact outside "rate" "a sfx"
  · cases object with
    | sfx index =>
        exact h.changeEffect index fun effect => frame.setRate_effect effect own.here rate
    | instrument index => exact outside "rate" "a sfx"
    | pattern index => exact outside "rate" "a sfx"

theorem setDecay (object : Option OpenObject) (arguments : List String) :
    Lockstep frame.lax (Reader.setDecay (object.map frame.object) arguments)
      (Reader.setDecay object arguments) reader own frame.Follows := by
  refine lockstep_decide_bind fun word _ => lockstep_decide_bind fun rate _ => ?_
  apply lockstep_get_bind
  rw [h.here]
  rcases object with _ | object
  · exact outside "decay" "an instrument"
  · cases object with
    | instrument index =>
        exact h.changeInstrument index fun instrument =>
          frame.setDecay_instrument instrument own.here rate
    | sfx index => exact outside "decay" "an instrument"
    | pattern index => exact outside "decay" "an instrument"

theorem setDetached (object : Option OpenObject) (arguments : List String) :
    Lockstep frame.lax (Reader.setDetached (object.map frame.object) arguments)
      (Reader.setDetached object arguments) reader own frame.Follows := by
  apply lockstep_decide_bind
  intro _ _
  rcases object with _ | object
  · exact outside "detached" "an instrument"
  · cases object with
    | instrument index => exact h.changeInstrument index fun _ => .ok rfl
    | sfx index => exact outside "detached" "an instrument"
    | pattern index => exact outside "detached" "an instrument"

theorem setEnvelope
    (keyword : String) (object : Option OpenObject)
    {changeE : SoundEffect → Location → Except Fault SoundEffect}
    {changeI : Instrument → Location → Except Fault Instrument}
    (hE : ∀ effect place, Agree frame.lax (· = frame.effect ·)
      (changeE (frame.effect effect) (frame.place place)) (changeE effect place))
    (hI : ∀ instrument place, Agree frame.lax (· = frame.instrument ·)
      (changeI (frame.instrument instrument) (frame.place place)) (changeI instrument place)) :
    Lockstep frame.lax (Reader.setEnvelope keyword (object.map frame.object) changeE changeI)
      (Reader.setEnvelope keyword object changeE changeI) reader own frame.Follows := by
  apply lockstep_get_bind
  rw [h.here]
  rcases object with _ | object
  · exact outside keyword "an instrument or sfx"
  · cases object with
    | sfx index => exact h.changeEffect index fun effect => hE effect own.here
    | instrument index => exact h.changeInstrument index fun instrument => hI instrument own.here
    | pattern index => exact outside keyword "an instrument or sfx"

theorem setVolume (object : Option OpenObject) (arguments : List String) :
    Lockstep frame.lax (Reader.setVolume (object.map frame.object) arguments)
      (Reader.setVolume object arguments) reader own frame.Follows :=
  h.setEnvelope "volume" object (fun effect => frame.setVolume_effect effect arguments)
    (fun instrument => frame.setVolume_instrument instrument arguments)

theorem setTimbre (object : Option OpenObject) (arguments : List String) :
    Lockstep frame.lax (Reader.setTimbre (object.map frame.object) arguments)
      (Reader.setTimbre object arguments) reader own frame.Follows :=
  h.setEnvelope "timbre" object (fun effect => frame.setTimbre_effect effect arguments)
    (fun instrument => frame.setTimbre_instrument instrument arguments)

theorem setPitches (object : Option OpenObject) (arguments : List String) :
    Lockstep frame.lax (Reader.setPitches (object.map frame.object) arguments)
      (Reader.setPitches object arguments) reader own frame.Follows :=
  h.setEnvelope "pitch" object (fun effect => frame.setPitch_effect effect arguments)
    (fun instrument => frame.setPitch_instrument instrument arguments)

theorem openSong (index : Nat) :
    Agree frame.lax (fun scope scope' => scope = frame.scope scope')
      (reader.scope.openSong (frame.before.songs.size + index)) (own.scope.openSong index) := by
  rw [h.scope]
  rcases own.scope with ⟨_ | song, object⟩
  · exact .ok rfl
  · exact .fault rfl

theorem closeSong :
    Agree frame.lax (fun scope scope' => scope = frame.scope scope')
      reader.scope.closeSong own.scope.closeSong := by
  rw [h.scope]
  rcases own.scope with ⟨_ | song, object⟩
  · exact .fault rfl
  · exact .ok rfl

theorem defineSong (arguments : List String) :
    Lockstep frame.lax (Reader.defineSong arguments) (Reader.defineSong arguments) reader own
      frame.Follows := by
  apply lockstep_advance
  apply (agree_self (Argument.single "song" arguments "NAME")).bind
  rintro name _ rfl
  rw [h.openSong?]
  cases own.openSong? with
  | some song => exact .fault rfl
  | none =>
      have hchild : reader.pitch.child reader.chords =
          Prod.map frame.pitch frame.book (own.pitch.child own.chords) := by
        rw [h.pitch, h.chords, frame.child_pitch h.layers]
      have hblank : Song.blank name reader.here (frame.pitch (own.pitch.child own.chords).1)
          reader.meter =
            frame.song (.blank name own.here (own.pitch.child own.chords).1 own.meter) := by
        rw [h.here, h.meter]
        rfl
      simp only [Option.map_none, hchild, Prod.map]
      rw [hblank, h.score]
      apply (Registry.insert_behind frame.before.songs own.score.songs frame.song
        (fun _ => rfl) "song" _ (lax_of_get? Score.songs rfl)).bind
      rintro ⟨_, _⟩ ⟨index, songs⟩ ⟨rfl, rfl⟩
      apply (h.openSong index).bind
      rintro _ scope rfl
      refine .ok ⟨rfl, { h with score := rfl, scope := rfl, chords := rfl, layers := ?_ }⟩
      simp [PitchState.child, ChordBook.nest]

theorem endSong (keyword : String) (words : List String) :
    Lockstep frame.lax (Reader.endSong keyword words) (Reader.endSong keyword words) reader own
      frame.Follows := by
  apply lockstep_decide_bind
  intro ending _
  apply (h.changeSong keyword fun song => frame.finish_song song ending).bind
  rintro _ _ next next' ⟨-, hnext⟩
  apply lockstep_advance
  apply hnext.closeSong.map
  rintro _ scope rfl
  exact ⟨rfl, { hnext with scope := rfl }⟩

theorem setSegno (arguments : List String) :
    Lockstep frame.lax (Reader.setSegno arguments) (Reader.setSegno arguments) reader own
      frame.Follows := by
  refine lockstep_decide_bind fun _ _ => lockstep_get_bind ?_
  rw [h.here]
  exact h.changeSong "segno" fun song => frame.setSegno_song song own.here

theorem addMark (arguments : List String) :
    Lockstep frame.lax (Reader.addMark arguments) (Reader.addMark arguments) reader own
      frame.Follows := by
  apply lockstep_decide_bind
  intro name _
  have hmark : Lockstep frame.lax
      (Reader.onSong "mark" (Step.advance fun song => song.addMark name))
      (Reader.onSong "mark" (Step.advance fun song => song.addMark name)) reader own
      frame.Follows :=
    h.onSong "mark" fun song => lockstep_advance (frame.addMark_song song name)
  apply hmark.bind
  rintro warnings _ next next' ⟨rfl, hnext⟩
  exact hnext.warn warnings

theorem attackOn (arguments : List String) :
    Lockstep frame.lax (Reader.attackOn arguments) (Reader.attackOn arguments) reader own
      frame.Follows := by
  unfold Reader.attackOn
  split
  · exact lockstep_decide_bind fun track _ =>
      h.changeSong "attack" fun song => frame.attackOn_song song track
  · exact lockstep_throw rfl

theorem waitUntil (word : String) :
    Lockstep frame.lax (Reader.waitUntil word) (Reader.waitUntil word) reader own
      frame.Follows := by
  apply lockstep_decide_bind
  intro _ _
  exact h.onSong "at" fun _ => frame.waitUntil_lockstep _ _ _

theorem pickup (arguments : List String) :
    Lockstep frame.lax (Reader.pickup arguments) (Reader.pickup arguments) reader own
      frame.Follows := by
  refine lockstep_decide_bind fun word _ => lockstep_decide_bind fun _ _ => ?_
  exact h.changeSong "pickup" fun song => frame.pickup_song song _ _ _

theorem setMute (solo : Bool) (arguments : List String) :
    Lockstep frame.lax (Reader.setMute solo arguments) (Reader.setMute solo arguments) reader
      own frame.Follows := by
  unfold Reader.setMute
  dsimp only
  split
  · exact lockstep_throw_bind rfl
  · refine lockstep_decide_bind fun bits _ => lockstep_get_bind ?_
    rw [h.here]
    apply h.changeSong
    intro song
    apply (frame.set_field song.mute _ own.here "mute or solo" song.name).map
    rintro _ mute rfl
    rfl

theorem setTempo (arguments : List String) :
    Lockstep frame.lax (Reader.setTempo arguments) (Reader.setTempo arguments) reader own
      frame.Follows := by
  apply lockstep_decide_bind
  intro word _
  split
  · exact lockstep_throw rfl
  · exact h.changeSong "tempo" fun song => frame.setTempo_song song _

theorem stop (arguments : List String) :
    Lockstep frame.lax (Reader.stop arguments) (Reader.stop arguments) reader own
      frame.Follows := by
  unfold Reader.stop
  split
  · exact lockstep_throw_bind rfl
  · apply lockstep_decide_bind
    intro tracks _
    apply h.changeSong
    intro song
    have hstops : ∀ event ∈ tracks.map ConductorEvent.stop, frame.event event = event := by
      simp [Frame.event]
    exact .ok (frame.pushAll_song hstops song)

theorem play (arguments : List String) :
    Lockstep frame.lax (Reader.play arguments) (Reader.play arguments) reader own
      frame.Follows := by
  apply lockstep_decide_bind
  rintro ⟨name, options⟩ _
  dsimp only
  split
  · exact lockstep_throw_bind rfl
  · apply lockstep_get_bind
    rw [h.here]
    exact h.changeSong "play" fun song => frame.playOn_song name options own.here song

omit h in
/-- The resume point can be set only once, in the frame or before it. -/
theorem set_resume (resume : Field ResumePoint) (point : ResumePoint) (place : Location) :
    Agree frame.lax
      (fun later later' => later = frame.resume later' ∧ frame.before.resume.isSet = false)
      ((frame.resume resume).set point (frame.place place) "resume point" "this score")
      (resume.set point place "resume point" "this score") := by
  unfold Frame.resume
  cases hset : frame.before.resume.isSet with
  | false =>
      apply (frame.set_field resume point place "resume point" "this score").mono
      intro later later' hlater
      exact ⟨hlater, rfl⟩
  | true =>
      obtain ⟨given, hgiven⟩ := Option.isSome_iff_exists.mp hset
      have hlax : frame.lax := by
        refine Classical.byContradiction fun hwhole => ?_
        rw [frame.whole hwhole] at hset
        cases hset
      simp only [if_true, Field.set, hgiven]
      exact .blocked hlax

theorem setResume (arguments : List String) :
    Lockstep frame.lax (Reader.setResume arguments) (Reader.setResume arguments) reader own
      frame.Follows := by
  apply lockstep_decide_bind
  intro _ _
  refine Lockstep.bind (h.onSong "resume" fun song => lockstep_get_bind ?_) ?_
  · exact lockstep_decide_bind fun rows _ => lockstep_pure ⟨rfl, rfl⟩
  · rintro point _ next next' ⟨rfl, hnext⟩
    apply lockstep_advance
    rw [hnext.score, hnext.here]
    apply (set_resume next'.score.resume point next'.here).map
    rintro _ resume ⟨rfl, hunset⟩
    exact ⟨rfl, { hnext with score := rfl, here := rfl, resume := by simp [hunset] }⟩

theorem diagnostics_unknownKeyword (message : String) :
    ¬ frame.lax → reader.diagnostics.unknownKeyword reader.here message =
      frame.diagnostics (own.diagnostics.unknownKeyword own.here message) := by
  intro hwhole
  rw [h.diagnostics hwhole, h.here]
  unfold Diagnostics.unknownKeyword
  by_cases hfew : own.diagnostics.unknownKeywords < Diagnostics.keptUnknownKeywords
  · simp [Frame.diagnostics, hfew, Diagnostics.warn]
  · simp [Frame.diagnostics, hfew]

theorem patternText (words : List String) :
    Lockstep frame.lax (Reader.patternText words) (Reader.patternText words) reader own
      frame.Follows := by
  apply lockstep_get_bind
  have hunknown (message : String) : Lockstep frame.lax
      (modify fun reader => { reader with
        diagnostics := reader.diagnostics.unknownKeyword reader.here message } :
          Step Reader Unit)
      (modify fun reader => { reader with
        diagnostics := reader.diagnostics.unknownKeyword reader.here message } :
          Step Reader Unit)
      reader own frame.Follows :=
    lockstep_modify ⟨rfl, { h with diagnostics := h.diagnostics_unknownKeyword message }⟩
  rw [h.describe, h.chords, h.scope]
  cases hobject : own.scope.object with
  | none =>
      simp only [Frame.scope, hobject]
      exact hunknown _
  | some object =>
      cases object with
      | pattern index =>
          simp only [Frame.scope, hobject]
          apply (h.onPattern index fun _ => frame.addWords_lockstep h.layers words).bind
          rintro warnings _ next next' ⟨rfl, hnext⟩
          exact hnext.warn warnings
      | sfx index =>
          simp only [Frame.scope, hobject]
          exact hunknown _
      | instrument index =>
          simp only [Frame.scope, hobject]
          exact hunknown _

theorem closeFor (keyword : Keyword) :
    frame.Fits (Reader.closeFor keyword reader) (Reader.closeFor keyword own) := by
  unfold Reader.closeFor
  split
  · refine { h with scope := ?_ }
    simp [h.scope, Scope.closeObject, Frame.scope]
  · exact h

/-- Every statement does in the frame what it does outside. -/
theorem perform
    (keyword : Keyword) (word : String) (arguments : List String)
    (object : Option OpenObject) :
    Lockstep frame.lax (Reader.perform keyword word arguments (object.map frame.object))
      (Reader.perform keyword word arguments object) reader own frame.Follows := by
  cases keyword with
  | noteNames => exact h.setLanguage arguments
  | durations => exact h.setDurations arguments
  | octaveMarks => exact h.setSigns arguments
  | sfx => exact h.defineEffect arguments
  | instrument => exact h.defineInstrument arguments
  | rate => exact h.setRate object arguments
  | volume => exact h.setVolume object arguments
  | decay => exact h.setDecay object arguments
  | timbre => exact h.setTimbre object arguments
  | pitch => exact h.setPitches object arguments
  | detached => exact h.setDetached object arguments
  | drum => exact h.defineDrum arguments
  | song => exact h.defineSong arguments
  | ending => exact h.endSong word (word :: arguments)
  | segno => exact h.setSegno arguments
  | mark => exact h.addMark arguments
  | time => exact h.setTime arguments
  | scale => exact h.setScale arguments
  | attack => exact h.attackOn arguments
  | pattern => exact h.definePattern arguments
  | fallthrough => exact h.setFallthrough object arguments
  | pickup => exact h.pickup arguments
  | resume => exact h.setResume arguments
  | mute => exact h.setMute false arguments
  | solo => exact h.setMute true arguments
  | tempo => exact h.setTempo arguments
  | play => exact h.play arguments
  | stop => exact h.stop arguments
  | title => exact h.setCredit .title arguments
  | author => exact h.setCredit .author arguments
  | copyright => exact h.setCredit .copyright arguments
  | position => exact lockstep_throw rfl
  | inclusion => exact lockstep_throw rfl

/-! ## Sources -/

omit h in
theorem unlocated
    {α : Type} {step step' : Step Reader α} {post : α → α → Reader → Reader → Prop}
    (hstep : Lockstep frame.lax step step' reader own post) :
    Lockstep frame.lax (Reader.unlocated step) (Reader.unlocated step') reader own post := by
  have hleft : Lockstep frame.lax (Reader.unlocated step) step' reader own post :=
    hstep.adaptExcept_left fun _ => rfl
  exact hleft.adaptExcept_right fun _ => rfl

/-- A line that includes nothing does in the frame what it does outside. -/
theorem dispatch
    {onInclude onInclude' : String → Reader.Reading Unit} {words : List String}
    (hwords : Reader.includedFile? words = none) :
    Lockstep frame.lax (Reader.dispatch onInclude words) (Reader.dispatch onInclude' words)
      reader own frame.Follows := by
  fun_induction Reader.dispatch onInclude words generalizing reader own with
  | case1 => exact lockstep_pure ⟨rfl, h⟩
  | case2 word arguments hdefinition =>
      rw [Reader.dispatch, if_pos hdefinition]
      exact unlocated (h.define _)
  | case3 word arguments hdefinition hkeyword =>
      rw [Reader.dispatch, if_neg hdefinition]
      simp only [hkeyword]
      exact unlocated (h.patternText _)
  | case4 word arguments hdefinition keyword hkeyword ih =>
      rw [Reader.dispatch, if_neg hdefinition]
      simp only [hkeyword]
      apply lockstep_get_bind
      apply lockstep_modify_bind
      have hclosed := h.closeFor keyword
      have hobject : reader.scope.object = own.scope.object.map frame.object := by
        rw [h.scope]
        rfl
      rw [hobject]
      split
      · next target command =>
          apply (unlocated (hclosed.waitUntil target)).bind
          rintro _ _ next next' ⟨-, hnext⟩
          rw [Reader.includedFile?_of_wait hdefinition hkeyword] at hwords
          exact ih hnext hwords
      · next file more =>
          rw [Reader.includedFile?_of_inclusion hdefinition hkeyword] at hwords
          cases hwords
      · next other arguments =>
          exact unlocated (hclosed.perform keyword word _ _)

theorem goTo (place : Location) :
    frame.Fits { reader with here := frame.place place } { own with here := place } :=
  { h with here := rfl }

theorem statements
    {onInclude onInclude' : String → Reader.Reading Unit} (list : List Statement)
    (hlist : ∀ statement ∈ list, Reader.includedFile? statement.words = none) :
    Lockstep frame.lax (Reader.statements onInclude (list.map frame.statement))
      (Reader.statements onInclude' list) reader own frame.Follows := by
  induction list generalizing reader own with
  | nil => exact lockstep_pure ⟨rfl, h⟩
  | cons statement rest ih =>
      apply lockstep_modify_bind
      apply lockstep_get_bind
      have hstatement : Lockstep frame.lax (Reader.dispatch onInclude statement.words)
          (Reader.dispatch onInclude' statement.words) _ _ frame.Follows :=
        (h.goTo statement.place).dispatch (hlist statement List.mem_cons_self)
      apply ((hstatement.adaptExcept_left (Report.kind_locate · _ _)).adaptExcept_right
        (Report.kind_locate · _ _)).bind
      rintro _ _ next next' ⟨-, hnext⟩
      exact ih hnext fun later hlater => hlist later (List.mem_cons_of_mem _ hlater)

end Chiptune.Frame.Fits
