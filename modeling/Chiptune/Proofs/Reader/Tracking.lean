import Chiptune.Proofs.Founded
import Chiptune.Proofs.Reader.Order

/-!
# The reader tracks what is open

An open song is the last song, and an open object is the last of its kind, under the name
that was written for it and qualified by the open song. This holds after every statement,
whether it is accepted or refused, so what is open is never missing.
-/

namespace Chiptune

open Step

/-! ## What is open -/

namespace OpenObject

/-- The number of the object in its registry. -/
def index : OpenObject → Nat
  | sfx index | instrument index | pattern index => index

/-- The names in the registry of the object. -/
def names (score : Score) : OpenObject → List String
  | sfx _ => score.sfx.names
  | instrument _ => score.instruments.names
  | pattern _ => score.patterns.names

end OpenObject

namespace Registry

variable {α : Type} [Entity α]

theorem names_add (registry : Registry α) (entity : α) :
    (registry.add entity).names = registry.names ++ [Entity.name entity] := by
  simp [names, add]

theorem length_names (registry : Registry α) : registry.names.length = registry.size := by
  simp [names, size]

omit [Entity α] in
theorem exists_at? {registry : Registry α} {index : Nat} (h : index < registry.size) :
    ∃ entity, registry.at? index = some entity :=
  ⟨registry.entries[index], List.getElem?_eq_getElem h⟩

end Registry

namespace Reader

/-- What is open is last in its registry; the open object has the name that was written
last, qualified by the open song. -/
structure Tracks (reader : Reader) (written : Option String) : Prop where
  openSong : ∀ index, reader.scope.song = some index → index + 1 = reader.score.songs.size
  openObject : ∀ object, reader.scope.object = some object →
    object.index + 1 = (object.names reader.score).length ∧
      ∃ name, written = some name ∧
        (object.names reader.score).getLast? = some (Name.qualify reader.songName? name)

theorem tracks_initial (depthLimit : Nat) : Tracks (initial depthLimit) none := by
  constructor <;> simp [initial, Scope.topLevel]

theorem songName?_eq (reader : Reader) :
    reader.songName? = reader.scope.song.bind fun index => reader.score.songs.names[index]? := by
  unfold songName? openSong? Registry.names Registry.at?
  cases reader.scope.song with
  | none => rfl
  | some index => exact List.getElem?_map.symm

section Tracking

variable {reader later : Reader} {written : Option String}

/-- What is tracked depends on the scope and the names. -/
theorem Tracks.congr
    (h : reader.Tracks written) (hscope : later.scope = reader.scope)
    (hsfx : later.score.sfx.names = reader.score.sfx.names)
    (hinstruments : later.score.instruments.names = reader.score.instruments.names)
    (hpatterns : later.score.patterns.names = reader.score.patterns.names)
    (hsongs : later.score.songs.names = reader.score.songs.names) : later.Tracks written := by
  have hsize : later.score.songs.size = reader.score.songs.size := by
    rw [← Registry.length_names, ← Registry.length_names, hsongs]
  have hnames : ∀ object : OpenObject, object.names later.score = object.names reader.score := by
    intro object
    cases object with
    | sfx => exact hsfx
    | instrument => exact hinstruments
    | pattern => exact hpatterns
  have hname : later.songName? = reader.songName? := by
    rw [songName?_eq, songName?_eq, hscope, hsongs]
  constructor
  · intro index hopen
    rw [hscope] at hopen
    rw [hsize]
    exact h.openSong index hopen
  · intro object hopen
    rw [hscope] at hopen
    rw [hnames, hname]
    exact h.openObject object hopen

theorem Tracks.closeObject (h : reader.Tracks written) :
    { reader with scope := reader.scope.closeObject }.Tracks written :=
  ⟨h.openSong, fun _ hopen => nomatch hopen⟩

theorem Tracks.edit (h : reader.Tracks written) (hedit : Edit reader later) :
    later.Tracks written := by
  cases hedit with
  | remark | setPitch | setMeter | defineChord | creditAlbum | setResume | addDrum =>
      exact h.congr rfl rfl rfl rfl rfl
  | closeObject => exact h.closeObject
  | addSong hclosed hnew =>
      refine ⟨?_, fun _ hopen => nomatch hopen⟩
      intro index hopen
      cases hopen
      simp [Registry.size, Registry.add]
  | changeEffect hat hrevision =>
      exact h.congr rfl (Registry.names_put hat hrevision.name) rfl rfl rfl
  | changeInstrument hat hrevision =>
      exact h.congr rfl rfl (Registry.names_put hat hrevision.name) rfl rfl
  | changePattern hat hversion =>
      exact h.congr rfl rfl rfl (Registry.names_put hat hversion.name) rfl
  | changeSong hopen hat hstrokes =>
      exact h.congr rfl rfl rfl rfl (Registry.names_put hat hstrokes.name)

theorem Tracks.edits (h : reader.Tracks written) (hedits : Edits reader later) :
    later.Tracks written := by
  induction hedits with
  | refl => exact h
  | tail _ hedit ih => exact ih.edit hedit

/-- The object that is opened is tracked under the name written for it. -/
theorem Tracks.opening
    {name : String} (h : reader.Tracks written) (hopening : Opening name reader later) :
    later.Tracks (some name) := by
  cases hopening with
  | effect | instrument | pattern =>
      refine ⟨h.openSong, ?_⟩
      rintro object ⟨⟩
      refine ⟨?_, name, rfl, ?_⟩
      · simp [OpenObject.index, OpenObject.names, Registry.names_add, Registry.length_names]
      · simp only [OpenObject.names, Registry.names_add, List.getLast?_concat]
        rfl

end Tracking

/-! ## Statements -/

/-- The object, if there is one, is in the score. -/
def Holds (score : Score) (object : Option OpenObject) : Prop :=
  ∀ held, object = some held → held.index < (held.names score).length

section Statements

variable {reader : Reader} {written : Option String} {object : Option OpenObject}

theorem Tracks.holds (h : reader.Tracks written) : Holds reader.score reader.scope.object := by
  intro object hopen
  have hlast := (h.openObject object hopen).1
  omega

theorem Tracks.exists_song
    (h : reader.Tracks written) {index : Nat} (hopen : reader.scope.song = some index) :
    ∃ song, reader.score.songs.at? index = some song := by
  have hlast := h.openSong index hopen
  exact Registry.exists_at? (by omega)

theorem Holds.exists_effect
    {score : Score} {index : Nat} (h : Holds score (some (.sfx index))) :
    ∃ effect, score.sfx.at? index = some effect :=
  Registry.exists_at? (Registry.length_names score.sfx ▸ h _ rfl)

theorem Holds.exists_instrument
    {score : Score} {index : Nat} (h : Holds score (some (.instrument index))) :
    ∃ instrument, score.instruments.at? index = some instrument :=
  Registry.exists_at? (Registry.length_names score.instruments ▸ h _ rfl)

theorem Holds.exists_pattern
    {score : Score} {index : Nat} (h : Holds score (some (.pattern index))) :
    ∃ pattern, score.patterns.at? index = some pattern :=
  Registry.exists_at? (Registry.length_names score.patterns ▸ h _ rfl)

/-! The steps on what is open find it. -/

theorem Tracks.foundedAt_onSong
    {α : Type} (h : reader.Tracks written) {keyword : String} {step : Step Song α}
    (hstep : ∀ song, FoundedAt step song) : FoundedAt (onSong keyword step) reader := by
  cases hopen : reader.scope.song with
  | none =>
      intro fault next hrun
      rw [onSong_of_closed hopen] at hrun
      cases hrun
      rfl
  | some index =>
      obtain ⟨song, hat⟩ := h.exists_song hopen
      have hon : FoundedAt (Step.on (fun _ => song)
          (fun song reader => reader.putSong index song) step) reader :=
        foundedAt_on (hstep song)
      rw [FoundedAt, onSong_of_open hopen hat]
      exact hon

theorem Tracks.foundedAt_changeSong
    (h : reader.Tracks written) {keyword : String} {change : Song → Except Fault Song}
    (hchange : ∀ song, Founded (change song)) :
    FoundedAt (changeSong keyword change) reader := by
  apply h.foundedAt_onSong
  intro song
  apply foundedAt_advance
  rw [founded_map_iff]
  exact hchange song

theorem Holds.foundedAt_changeEffect
    {index : Nat} (h : Holds reader.score (some (.sfx index)))
    {change : SoundEffect → Except Fault SoundEffect}
    (hchange : ∀ effect, Founded (change effect)) :
    FoundedAt (changeEffect index change) reader := by
  obtain ⟨effect, hat⟩ := h.exists_effect
  apply foundedAt_advance
  rw [hat]
  simpa using hchange effect

theorem Holds.foundedAt_changeInstrument
    {index : Nat} (h : Holds reader.score (some (.instrument index)))
    {change : Instrument → Except Fault Instrument}
    (hchange : ∀ instrument, Founded (change instrument)) :
    FoundedAt (changeInstrument index change) reader := by
  obtain ⟨instrument, hat⟩ := h.exists_instrument
  apply foundedAt_advance
  rw [hat]
  simpa using hchange instrument

theorem Holds.foundedAt_onPattern
    {α : Type} {index : Nat} (h : Holds reader.score (some (.pattern index)))
    {step : Step Pattern α} (hstep : ∀ pattern, FoundedAt step pattern) :
    FoundedAt (onPattern index step) reader := by
  obtain ⟨pattern, hat⟩ := h.exists_pattern
  apply foundedAt_get_bind
  rw [hat]
  exact foundedAt_on (hstep pattern)

theorem foundedAt_changePitch
    {change : PitchState → Except Fault PitchState} (hchange : ∀ pitch, Founded (change pitch)) :
    FoundedAt (changePitch change) reader := by
  apply foundedAt_advance
  rw [founded_map_iff]
  exact hchange _

theorem foundedAt_changeMeter
    {change : Meter → Except Fault Meter} (hchange : ∀ meter, Founded (change meter)) :
    FoundedAt (changeMeter change) reader := by
  apply foundedAt_advance
  rw [founded_map_iff]
  exact hchange _

theorem foundedAt_outside (keyword allowed : String) :
    FoundedAt (outside keyword allowed) reader :=
  foundedAt_get_bind (foundedAt_throw rfl)

/-! The statements, in the order of their modules. -/

theorem foundedAt_setTime (arguments : List String) :
    FoundedAt (setTime arguments) reader := by
  refine foundedAt_decide_bind (Argument.founded_count _ _ _ _ _) fun _ => ?_
  split
  · exact foundedAt_throw rfl
  · refine foundedAt_decide_bind (Meter.founded_readTime _) fun signature => ?_
    refine foundedAt_decide_bind ?_ fun scale => ?_
    · unfold timeScale
      split <;> simp
    · refine foundedAt_bind (foundedAt_changeMeter fun meter => by simp) fun _ next _ => ?_
      split
      · exact foundedAt_changeMeter fun meter => by simp
      · exact foundedAt_pure _

theorem foundedAt_define (words : List String) : FoundedAt (define words) reader := by
  apply foundedAt_advance
  split
  · simp
  · dsimp only
    split
    · simp
    · rw [founded_map_iff]
      exact ChordBook.founded_define _ _ _ _

theorem Tracks.foundedAt_setCredit
    (h : reader.Tracks written) (credit : Credit) (arguments : List String) :
    FoundedAt (setCredit credit arguments) reader := by
  unfold setCredit
  dsimp only
  split
  · exact foundedAt_throw_bind rfl
  · apply foundedAt_get_bind
    split
    · apply h.foundedAt_changeSong
      intro song
      cases credit <;> simp [creditSong]
    · apply foundedAt_advance
      rw [founded_map_iff]
      cases credit <;> simp [creditAlbum]

theorem foundedAt_defineEffect (arguments : List String) :
    FoundedAt (defineEffect arguments) reader := by
  apply foundedAt_advance
  split
  · exact (Channel.founded_ofName _).bind fun _ =>
      (founded_insert _ _ _).bind fun _ => founded_pure _
  · simp

theorem foundedAt_defineInstrument (arguments : List String) :
    FoundedAt (defineInstrument arguments) reader := by
  apply foundedAt_advance
  exact (Argument.founded_single _ _ _).bind fun _ =>
    (founded_insert _ _ _).bind fun _ => founded_pure _

theorem foundedAt_defineDrum (arguments : List String) :
    FoundedAt (defineDrum arguments) reader := by
  apply foundedAt_advance
  refine (Argument.founded_count _ _ _ _ _).bind fun _ => ?_
  split
  · simp
  · exact (Drum.founded_define _ _ _ _).bind fun _ =>
      (founded_insert _ _ _).bind fun _ => founded_pure _

theorem foundedAt_definePattern (arguments : List String) :
    FoundedAt (definePattern arguments) reader := by
  apply foundedAt_advance
  exact (Argument.founded_named _ _ _).bind fun _ =>
    (founded_insert _ _ _).bind fun _ => founded_pure _

theorem Holds.foundedAt_setFallthrough
    (h : Holds reader.score object) (arguments : List String) :
    FoundedAt (setFallthrough object arguments) reader := by
  refine foundedAt_decide_bind (Argument.founded_count _ _ _ _ _) fun _ => ?_
  split
  · exact h.foundedAt_onPattern fun _ => foundedAt_modify _
  · exact foundedAt_throw rfl

theorem Holds.foundedAt_setRate (h : Holds reader.score object) (arguments : List String) :
    FoundedAt (setRate object arguments) reader := by
  refine foundedAt_decide_bind (Argument.founded_single _ _ _) fun word => ?_
  refine foundedAt_decide_bind (Argument.founded_number _ _) fun rate => ?_
  apply foundedAt_get_bind
  split
  · exact h.foundedAt_changeEffect fun effect => effect.founded_setRate _ _
  · exact foundedAt_outside _ _

theorem Holds.foundedAt_setDecay (h : Holds reader.score object) (arguments : List String) :
    FoundedAt (setDecay object arguments) reader := by
  refine foundedAt_decide_bind (Argument.founded_single _ _ _) fun word => ?_
  refine foundedAt_decide_bind (Argument.founded_number _ _) fun rate => ?_
  apply foundedAt_get_bind
  split
  · exact h.foundedAt_changeInstrument fun instrument => instrument.founded_setDecay _ _
  · exact foundedAt_outside _ _

theorem Holds.foundedAt_setDetached
    (h : Holds reader.score object) (arguments : List String) :
    FoundedAt (setDetached object arguments) reader := by
  refine foundedAt_decide_bind (Argument.founded_count _ _ _ _ _) fun _ => ?_
  split
  · exact h.foundedAt_changeInstrument fun instrument => founded_ok _
  · exact foundedAt_outside _ _

theorem Holds.foundedAt_setEnvelope
    (h : Holds reader.score object) {keyword : String}
    {changeE : SoundEffect → Location → Except Fault SoundEffect}
    {changeI : Instrument → Location → Except Fault Instrument}
    (hE : ∀ effect place, Founded (changeE effect place))
    (hI : ∀ instrument place, Founded (changeI instrument place)) :
    FoundedAt (setEnvelope keyword object changeE changeI) reader := by
  apply foundedAt_get_bind
  split
  · exact h.foundedAt_changeEffect fun effect => hE effect _
  · exact h.foundedAt_changeInstrument fun instrument => hI instrument _
  · exact foundedAt_outside _ _

theorem Holds.foundedAt_setVolume
    (h : Holds reader.score object) (arguments : List String) :
    FoundedAt (setVolume object arguments) reader := by
  apply h.foundedAt_setEnvelope
  · intro effect place
    rw [SoundEffect.setVolume, founded_map_iff]
    exact effect.envelope.founded_setVolume _ _ _
  · intro instrument place
    rw [Instrument.setVolume, founded_map_iff]
    exact instrument.envelope.founded_setVolume _ _ _

theorem Holds.foundedAt_setTimbre
    (h : Holds reader.score object) (arguments : List String) :
    FoundedAt (setTimbre object arguments) reader := by
  apply h.foundedAt_setEnvelope
  · intro effect place
    rw [SoundEffect.setTimbre, founded_map_iff]
    exact effect.envelope.founded_setTimbre _ _ _ _
  · intro instrument place
    rw [Instrument.setTimbre, founded_map_iff]
    exact instrument.envelope.founded_setTimbre _ _ _ _

theorem Holds.foundedAt_setPitches
    (h : Holds reader.score object) (arguments : List String) :
    FoundedAt (setPitches object arguments) reader := by
  apply h.foundedAt_setEnvelope
  · exact fun effect place => effect.founded_setPitch _ _
  · exact fun instrument place => instrument.founded_setPitch _ _

/-- A song is only opened when none is. -/
theorem Tracks.foundedAt_defineSong (h : reader.Tracks written) (arguments : List String) :
    FoundedAt (defineSong arguments) reader := by
  apply foundedAt_advance
  refine (Argument.founded_single _ _ _).bind fun name => ?_
  split
  · simp
  · next hnone =>
      refine (founded_insert _ _ _).bind fun inserted => ?_
      refine Founded.bind ?_ fun scope => founded_pure _
      unfold Scope.openSong
      split
      · next index hopen =>
          obtain ⟨song, hat⟩ := h.exists_song hopen
          rw [openSong?, hopen] at hnone
          cases hat.symm.trans hnone
      · simp

/-- A song is only closed when one is open. -/
theorem Tracks.foundedAt_endSong
    (h : reader.Tracks written) (keyword : String) (words : List String) :
    FoundedAt (endSong keyword words) reader := by
  refine foundedAt_decide_bind (Ending.founded_ofWords _) fun ending => ?_
  refine foundedAt_bind (h.foundedAt_changeSong fun song => song.founded_finish ending) ?_
  intro _ finished hfinished
  rcases changeSong_cases keyword (fun song => song.finish ending) reader with
    ⟨fault, hfails⟩ | ⟨index, song, done, hopen, -, -, hdone⟩
  · cases hfails.symm.trans hfinished
  · cases hdone.symm.trans hfinished
    apply foundedAt_advance
    simp [Scope.closeSong, putSong, hopen]

theorem Tracks.foundedAt_setSegno (h : reader.Tracks written) (arguments : List String) :
    FoundedAt (setSegno arguments) reader := by
  refine foundedAt_decide_bind (Argument.founded_count _ _ _ _ _) fun _ => ?_
  apply foundedAt_get_bind
  exact h.foundedAt_changeSong fun song => by simp [Song.setSegno]

theorem Tracks.foundedAt_addMark (h : reader.Tracks written) (arguments : List String) :
    FoundedAt (addMark arguments) reader := by
  refine foundedAt_decide_bind (Argument.founded_single _ _ _) fun name => ?_
  refine foundedAt_bind (h.foundedAt_onSong fun song => ?_) fun _ _ _ => foundedAt_modify _
  exact foundedAt_advance (song.founded_addMark name)

theorem Tracks.foundedAt_attackOn (h : reader.Tracks written) (arguments : List String) :
    FoundedAt (attackOn arguments) reader := by
  unfold attackOn
  split
  · refine foundedAt_decide_bind (Argument.founded_track _) fun track => ?_
    exact h.foundedAt_changeSong fun song => song.founded_attackOn track
  · exact foundedAt_throw rfl

theorem Tracks.foundedAt_waitUntil (h : reader.Tracks written) (word : String) :
    FoundedAt (waitUntil word) reader := by
  refine foundedAt_decide_bind (Position.founded_readWord word) fun target => ?_
  exact h.foundedAt_onSong fun song => Song.foundedAt_waitUntil _ _ _

theorem Tracks.foundedAt_pickup (h : reader.Tracks written) (arguments : List String) :
    FoundedAt (pickup arguments) reader := by
  refine foundedAt_decide_bind (Argument.founded_single _ _ _) fun word => ?_
  refine foundedAt_decide_bind (Position.founded_readWord word) fun target => ?_
  apply h.foundedAt_changeSong
  intro song
  rw [Song.pickup, founded_map_iff]
  exact song.meter.founded_locate _ _ _

theorem Tracks.foundedAt_setResume (h : reader.Tracks written) (arguments : List String) :
    FoundedAt (setResume arguments) reader := by
  refine foundedAt_decide_bind (Argument.founded_count _ _ _ _ _) fun _ => ?_
  refine foundedAt_bind (h.foundedAt_onSong fun song => ?_) fun point next _ => ?_
  · apply foundedAt_get_bind
    refine foundedAt_decide_bind ?_ fun rows => foundedAt_pure _
    unfold resumeRows
    split
    · simp
    · split <;> simp
  · exact foundedAt_advance (by simp)

theorem Tracks.foundedAt_setMute
    (h : reader.Tracks written) (solo : Bool) (arguments : List String) :
    FoundedAt (setMute solo arguments) reader := by
  unfold setMute
  dsimp only
  split
  · exact foundedAt_throw_bind rfl
  · refine foundedAt_decide_bind ?_ fun bits => foundedAt_get_bind ?_
    · rw [muteMask, founded_map_iff]
      exact founded_mapM Argument.founded_track arguments
    · exact h.foundedAt_changeSong fun song => by simp

theorem Tracks.foundedAt_setTempo (h : reader.Tracks written) (arguments : List String) :
    FoundedAt (setTempo arguments) reader := by
  refine foundedAt_decide_bind (Argument.founded_single _ _ _) fun word => ?_
  split
  · exact foundedAt_throw rfl
  · exact h.foundedAt_changeSong fun song => song.founded_setTempo _

theorem Tracks.foundedAt_stop (h : reader.Tracks written) (arguments : List String) :
    FoundedAt (stop arguments) reader := by
  unfold stop
  split
  · exact foundedAt_throw_bind rfl
  · refine foundedAt_decide_bind (founded_mapM Argument.founded_track arguments) fun tracks => ?_
    exact h.foundedAt_changeSong fun song => founded_ok _

theorem Tracks.foundedAt_play (h : reader.Tracks written) (arguments : List String) :
    FoundedAt (play arguments) reader := by
  refine foundedAt_decide_bind (Argument.founded_named _ _ _) ?_
  rintro ⟨name, options⟩
  dsimp only
  split
  · exact foundedAt_throw_bind rfl
  · apply foundedAt_get_bind
    apply h.foundedAt_changeSong
    intro song
    unfold playOn
    dsimp only
    split <;> simp

theorem Tracks.foundedAt_patternText (h : reader.Tracks written) (words : List String) :
    FoundedAt (patternText words) reader := by
  have hholds := h.holds
  apply foundedAt_get_bind
  split
  · next index hobject =>
      rw [hobject] at hholds
      refine foundedAt_bind (hholds.foundedAt_onPattern fun pattern => ?_) fun _ _ _ => ?_
      · exact Pattern.foundedAt_addWords _ _
      · exact foundedAt_modify _
  · exact foundedAt_modify _

/-- No statement finds missing what is open. -/
theorem Tracks.foundedAt_perform
    (h : reader.Tracks written) (hholds : Holds reader.score object) (keyword : Keyword)
    (word : String) (arguments : List String) :
    FoundedAt (perform keyword word arguments object) reader := by
  cases keyword with
  | noteNames =>
      refine foundedAt_decide_bind (Argument.founded_single _ _ _) fun word => ?_
      exact foundedAt_changePitch fun pitch => pitch.founded_setLanguage word
  | octaveMarks =>
      refine foundedAt_decide_bind (Argument.founded_single _ _ _) fun word => ?_
      exact foundedAt_changePitch fun pitch => pitch.founded_setSigns word
  | durations =>
      refine foundedAt_decide_bind (Argument.founded_single _ _ _) fun word => ?_
      exact foundedAt_changeMeter fun meter => meter.founded_setSticky word
  | scale =>
      refine foundedAt_decide_bind (Argument.founded_single _ _ _) fun word => ?_
      refine foundedAt_decide_bind (Argument.founded_scale word) fun scale => ?_
      exact foundedAt_changeMeter fun meter => meter.founded_setScale scale
  | time => exact foundedAt_setTime arguments
  | sfx => exact foundedAt_defineEffect arguments
  | instrument => exact foundedAt_defineInstrument arguments
  | drum => exact foundedAt_defineDrum arguments
  | pattern => exact foundedAt_definePattern arguments
  | song => exact h.foundedAt_defineSong arguments
  | ending => exact h.foundedAt_endSong word (word :: arguments)
  | rate => exact hholds.foundedAt_setRate arguments
  | volume => exact hholds.foundedAt_setVolume arguments
  | decay => exact hholds.foundedAt_setDecay arguments
  | timbre => exact hholds.foundedAt_setTimbre arguments
  | pitch => exact hholds.foundedAt_setPitches arguments
  | detached => exact hholds.foundedAt_setDetached arguments
  | fallthrough => exact hholds.foundedAt_setFallthrough arguments
  | segno => exact h.foundedAt_setSegno arguments
  | mark => exact h.foundedAt_addMark arguments
  | attack => exact h.foundedAt_attackOn arguments
  | pickup => exact h.foundedAt_pickup arguments
  | resume => exact h.foundedAt_setResume arguments
  | mute => exact h.foundedAt_setMute false arguments
  | solo => exact h.foundedAt_setMute true arguments
  | tempo => exact h.foundedAt_setTempo arguments
  | play => exact h.foundedAt_play arguments
  | stop => exact h.foundedAt_stop arguments
  | title => exact h.foundedAt_setCredit .title arguments
  | author => exact h.foundedAt_setCredit .author arguments
  | copyright => exact h.foundedAt_setCredit .copyright arguments
  | position => exact foundedAt_throw rfl
  | inclusion => exact foundedAt_throw rfl

end Statements

/-! ## Lines -/

/-- The name that a line writes for the object which it opens behind its waits. -/
def definedName? : List String → Option String
  | [] => none
  | word :: arguments =>
    if isDefinition (word :: arguments) then none
    else
      match Keyword.ofWord? word, arguments with
      | some .position, _ :: command => definedName? command
      | some keyword, arguments => if keyword.opensObject then arguments.head? else none
      | none, _ => none

section Lines

variable {reader : Reader} {written : Option String} {word : String} {arguments : List String}

theorem definedName?_of_command
    (hdefinition : ¬isDefinition (word :: arguments) = true) {keyword : Keyword}
    (hkeyword : Keyword.ofWord? word = some keyword)
    (hwait : ∀ target command, keyword = .position → arguments = target :: command → False) :
    definedName? (word :: arguments) =
      if keyword.opensObject then arguments.head? else none := by
  unfold definedName?
  rw [if_neg hdefinition, hkeyword]
  split
  · next heq => exact (hwait _ _ (Option.some.inj heq) rfl).elim
  · next heq _ =>
      cases heq
      rfl
  · next heq => cases heq

theorem definedName?_of_wait
    {argument : String} (hdefinition : ¬isDefinition (word :: argument :: arguments) = true)
    (hkeyword : Keyword.ofWord? word = some .position) :
    definedName? (word :: argument :: arguments) = definedName? arguments := by
  conv => lhs; unfold definedName?
  rw [if_neg hdefinition, hkeyword]

/-- What is tracked after a line that was accepted, and after one that was refused. -/
def TracksAfter (accepted refused : Option String) : EStateM.Result Report Reader Unit → Prop
  | .ok _ later => later.Tracks accepted
  | .error report later => later.Tracks refused ∧ report.fault.isFounded

theorem Tracks.tracksAfter_unlocated
    (h : reader.Tracks written) {step : Step Reader Unit} (hleads : Leads Edits step reader)
    (hfounded : FoundedAt step reader) :
    TracksAfter written written (unlocated step reader) := by
  unfold unlocated EStateM.adaptExcept
  unfold Leads at hleads
  cases hrun : step reader with
  | ok _ later =>
      rw [hrun] at hleads
      exact h.edits hleads
  | error fault later =>
      rw [hrun] at hleads
      exact ⟨h.edits hleads, hfounded fault later hrun⟩

theorem Tracks.tracksAfter_perform
    {object : Option OpenObject} (h : reader.Tracks written)
    (hholds : Holds reader.score object) (keyword : Keyword) (word : String)
    (arguments : List String) :
    TracksAfter ((if keyword.opensObject then arguments.head? else none).or written) written
      (unlocated (perform keyword word arguments object) reader) := by
  have hfounded := h.foundedAt_perform hholds keyword word arguments
  by_cases hopens : keyword.opensObject
  · rw [if_pos hopens]
    unfold unlocated EStateM.adaptExcept
    cases hrun : perform keyword word arguments object reader with
    | ok _ later =>
        obtain ⟨name, hname, hopening⟩ := opening_of_perform hopens hrun
        rw [hname]
        exact h.opening hopening
    | error fault later =>
        rw [eq_of_perform_definition (Keyword.defines_of_opensObject hopens) hrun]
        exact ⟨h, hfounded fault later hrun⟩
  · rw [if_neg hopens]
    by_cases hending : keyword = .ending
    · subst hending
      rcases endSong_cases word (word :: arguments) reader with
        ⟨fault, hfails⟩ | ⟨index, song, done, ending, -, -, -, hends⟩
      · have hrun : unlocated (perform .ending word arguments object) reader =
            .error (.ofFault fault) reader := by
          simp only [unlocated, EStateM.adaptExcept, perform, hfails]
        rw [hrun]
        exact ⟨h, hfounded fault reader hfails⟩
      · have hrun : unlocated (perform .ending word arguments object) reader =
            .ok () { reader.putSong index done with scope := .topLevel } := by
          simp only [unlocated, EStateM.adaptExcept, perform, hends]
        rw [hrun]
        exact ⟨fun _ hopen => (nomatch hopen), fun _ hopen => (nomatch hopen)⟩
    · have hquiet : keyword.opensObject = false := by simpa using hopens
      exact h.tracksAfter_unlocated (perform_leads_edits hending hquiet _ _ _) hfounded

/-- What is open is tracked through every line, and no line finds it missing. -/
theorem Tracks.line (h : reader.Tracks written) (words : List String) :
    TracksAfter ((definedName? words).or written) written
      (dispatch includeNothing words reader) := by
  fun_induction dispatch includeNothing words generalizing reader with
  | case1 => exact h
  | case2 word arguments hdefinition =>
      have hnone : definedName? (word :: arguments) = none := by
        unfold definedName?
        rw [if_pos hdefinition]
      rw [hnone]
      exact h.tracksAfter_unlocated (define_leads _) (foundedAt_define _)
  | case3 word arguments hdefinition hkeyword =>
      have hnone : definedName? (word :: arguments) = none := by
        unfold definedName?
        rw [if_neg hdefinition, hkeyword]
      rw [hnone]
      exact h.tracksAfter_unlocated (patternText_leads _) (h.foundedAt_patternText _)
  | case4 word arguments hdefinition keyword hkeyword ih =>
      have hclosed := h.edits (edits_closeFor keyword reader)
      have hholds : Holds (closeFor keyword reader).score reader.scope.object := by
        have hscore : (closeFor keyword reader).score = reader.score := by
          unfold closeFor
          split <;> rfl
        rw [hscore]
        exact h.holds
      rw [get_bind_apply, modify_bind_apply]
      split
      · next target command =>
          rw [definedName?_of_wait hdefinition hkeyword]
          have hwait := hclosed.tracksAfter_unlocated (waitUntil_leads target)
            (hclosed.foundedAt_waitUntil target)
          cases hrun : unlocated (waitUntil target) (closeFor .position reader) with
          | ok _ waited =>
              rw [bind_apply_of_ok hrun]
              rw [hrun] at hwait
              exact ih hwait
          | error report waited =>
              rw [bind_apply_of_error hrun]
              rw [hrun] at hwait
              exact hwait
      · next file more =>
          rw [definedName?_of_command hdefinition hkeyword (fun _ _ heq => nomatch heq)]
          exact hclosed
      · next hwait _ =>
          rw [definedName?_of_command hdefinition hkeyword hwait]
          exact hclosed.tracksAfter_perform hholds keyword word arguments

end Lines

/-! ## States that are reached -/

/-- The states between the lines of sources. Beside the reader stands the name that the
last accepted definition wrote for its object. A line may be accepted or refused, and the
reader may go from one place to another. -/
inductive Reached : Reader → Option String → Prop where
  | initial (depthLimit : Nat) : Reached (initial depthLimit) none
  | goTo {reader : Reader} {written : Option String} (h : Reached reader written)
      (here : Location) (inclusions : List Location) (directories : List String) :
      Reached
        { reader with here := here, inclusions := inclusions, directories := directories }
        written
  | accept {reader later : Reader} {written : Option String} {words : List String}
      (h : Reached reader written)
      (hrun : dispatch includeNothing words reader = .ok () later) :
      Reached later ((definedName? words).or written)
  | refuse {reader later : Reader} {written : Option String} {words : List String}
      {report : Report} (h : Reached reader written)
      (hrun : dispatch includeNothing words reader = .error report later) :
      Reached later written

section States

variable {reader : Reader} {written : Option String}

theorem Reached.tracks (h : Reached reader written) : reader.Tracks written := by
  induction h with
  | initial depthLimit => exact tracks_initial depthLimit
  | goTo _ here inclusions directories ih => exact ih.congr rfl rfl rfl rfl rfl
  | @accept _ _ _ words _ hrun ih =>
      have hafter := ih.line words
      rw [hrun] at hafter
      exact hafter
  | @refuse _ _ _ words _ _ hrun ih =>
      have hafter := ih.line words
      rw [hrun] at hafter
      exact hafter.1

theorem line_leads (words : List String) (reader : Reader) :
    Leads Travels (dispatch includeNothing words) reader :=
  (line_leads_turns words reader).travels

theorem Reached.inOrder (h : Reached reader written) : reader.InOrder := by
  induction h with
  | initial depthLimit => exact inOrder_initial depthLimit
  | goTo _ here inclusions directories ih => exact { ih with }
  | @accept between _ _ words _ hrun ih =>
      have hleads := line_leads words between
      rw [Leads, hrun] at hleads
      exact ih.travels hleads
  | @refuse between _ _ words _ _ hrun ih =>
      have hleads := line_leads words between
      rw [Leads, hrun] at hleads
      exact ih.travels hleads

end States

/-! ## Sources -/

/-- From a state that is reached the step leads to one that is reached, and its fault, if
it fails, is founded. -/
def Faithful {α : Type} (step : Reading α) : Prop :=
  ∀ reader written, Reached reader written →
    (∃ next, Reached (left (step reader)) next) ∧
      ∀ report later, step reader = .error report later → report.fault.isFounded

section Sources

variable {α β : Type}

theorem faithful_pure (value : α) : Faithful (pure value) :=
  fun _ written h => ⟨⟨written, h⟩, fun _ _ hrun => nomatch hrun⟩

theorem faithful_throw {report : Report} (hfounded : report.fault.isFounded) :
    Faithful (throw report : Reading α) := by
  intro reader written h
  refine ⟨⟨written, h⟩, ?_⟩
  intro _ _ hrun
  cases hrun
  exact hfounded

theorem faithful_get_bind {second : Reader → Reading β} (h : ∀ reader, Faithful (second reader)) :
    Faithful (get >>= second) :=
  fun reader written hreached => h reader reader written hreached

theorem faithful_goTo
    {change : Reader → Reader}
    (hchange : ∀ reader, ∃ here inclusions directories, change reader =
      { reader with here := here, inclusions := inclusions, directories := directories }) :
    Faithful (modify change : Reading PUnit) := by
  intro reader written h
  obtain ⟨here, inclusions, directories, heq⟩ := hchange reader
  refine ⟨⟨written, ?_⟩, fun _ _ hrun => nomatch hrun⟩
  change Reached (change reader) written
  rw [heq]
  exact h.goTo here inclusions directories

theorem Faithful.bind
    {first : Reading α} {second : α → Reading β} (hfirst : Faithful first)
    (hsecond : ∀ value, Faithful (second value)) : Faithful (first >>= second) := by
  intro reader written h
  obtain ⟨⟨next, hnext⟩, hfounded⟩ := hfirst reader written h
  cases hrun : first reader with
  | ok value reached =>
      rw [hrun] at hnext
      rw [bind_apply_of_ok hrun]
      exact hsecond value reached next hnext
  | error report reached =>
      rw [hrun] at hnext
      rw [bind_apply_of_error hrun]
      refine ⟨⟨next, hnext⟩, ?_⟩
      intro _ _ heq
      cases heq
      exact hfounded report reached hrun

theorem Faithful.adaptExcept
    {step : Reading α} (h : Faithful step) {adapt : Report → Report}
    (hadapt : ∀ report, (adapt report).fault = report.fault) :
    Faithful (step.adaptExcept adapt) := by
  intro reader written hreached
  obtain ⟨hnext, hfounded⟩ := h reader written hreached
  unfold EStateM.adaptExcept
  cases hrun : step reader with
  | ok value reached =>
      rw [hrun] at hnext
      exact ⟨hnext, fun _ _ heq => nomatch heq⟩
  | error report reached =>
      rw [hrun] at hnext
      refine ⟨hnext, ?_⟩
      intro _ _ heq
      cases heq
      rw [hadapt]
      exact hfounded report reached hrun

theorem Faithful.afterwards
    {step : Reading α} (h : Faithful step) {change : Reader → Reader}
    (hchange : ∀ reader, ∃ here inclusions directories, change reader =
      { reader with here := here, inclusions := inclusions, directories := directories }) :
    Faithful (afterwards step change) := by
  intro reader written hreached
  obtain ⟨⟨next, hnext⟩, hfounded⟩ := h reader written hreached
  unfold Reader.afterwards
  cases hrun : step reader with
  | ok value reached =>
      rw [hrun] at hnext
      obtain ⟨here, inclusions, directories, heq⟩ := hchange reached
      refine ⟨⟨next, ?_⟩, fun _ _ hfails => nomatch hfails⟩
      change Reached (change reached) next
      rw [heq]
      exact hnext.goTo here inclusions directories
  | error report reached =>
      rw [hrun] at hnext
      obtain ⟨here, inclusions, directories, heq⟩ := hchange reached
      refine ⟨⟨next, ?_⟩, ?_⟩
      · change Reached (change reached) next
        rw [heq]
        exact hnext.goTo here inclusions directories
      · intro _ _ hfails
        cases hfails
        exact hfounded report reached hrun

theorem faithful_line (words : List String) : Faithful (dispatch includeNothing words) := by
  intro reader written h
  have hafter := h.tracks.line words
  cases hrun : dispatch includeNothing words reader with
  | ok _ later => exact ⟨⟨_, h.accept hrun⟩, fun _ _ heq => nomatch heq⟩
  | error report later =>
      refine ⟨⟨written, h.refuse hrun⟩, ?_⟩
      intro _ _ heq
      cases heq
      rw [hrun] at hafter
      exact hafter.2

theorem faithful_dispatch
    {onInclude : String → Reading Unit} (hinclude : ∀ file, Faithful (onInclude file))
    (words : List String) : Faithful (dispatch onInclude words) := by
  rw [dispatch_eq_including]
  refine (faithful_line words).bind fun _ => ?_
  unfold including
  split
  · exact hinclude _
  · exact faithful_pure _

theorem fault_locate (report : Report) (place : Location) (includedFrom : List Location) :
    (report.locate place includedFrom).fault = report.fault := by
  unfold Report.locate
  split <;> rfl

theorem faithful_statements
    {onInclude : String → Reading Unit} (hinclude : ∀ file, Faithful (onInclude file))
    (list : List Statement) : Faithful (statements onInclude list) := by
  induction list with
  | nil => exact faithful_pure _
  | cons statement rest ih =>
      refine (faithful_goTo fun reader => ?_).bind fun _ => faithful_get_bind fun reader => ?_
      · exact ⟨statement.place, reader.inclusions, reader.directories, rfl⟩
      · refine Faithful.bind (Faithful.adaptExcept ?_ fun report => fault_locate report _ _)
          fun _ => ih
        exact faithful_dispatch hinclude statement.words

theorem faithful_readStatements
    {onInclude : String → Reading Unit} (hinclude : ∀ file, Faithful (onInclude file))
    (source : Source) : Faithful (readStatements onInclude source) := by
  refine (faithful_goTo fun reader => ?_).bind fun _ => ?_
  · refine ⟨reader.here, reader.inclusions, (enter source reader).directories, ?_⟩
    unfold enter
    split <;> rfl
  · apply (faithful_statements hinclude _).afterwards
    intro reader
    refine ⟨reader.here, reader.inclusions, (leave source reader).directories, ?_⟩
    unfold leave
    split <;> rfl

theorem faithful_includeFile
    {files : SourceFiles} {read : Source → Reading Unit}
    (hread : ∀ source, Faithful (read source)) (file : String) :
    Faithful (includeFile files read file) := by
  refine faithful_get_bind fun reader => Faithful.bind ?_ fun source => ?_
  · unfold fileSource
    split
    · exact faithful_pure _
    · exact faithful_throw rfl
  · refine (faithful_goTo fun reader => ?_).bind fun _ => ?_
    · exact ⟨reader.here, _, reader.directories, rfl⟩
    · apply (hread source).afterwards
      exact fun next => ⟨reader.here, _, next.directories, rfl⟩

theorem faithful_readNested (files : SourceFiles) (depth : Nat) (source : Source) :
    Faithful (readNested files depth source) := by
  induction depth generalizing source with
  | zero =>
      refine faithful_readStatements (fun file => ?_) source
      exact faithful_get_bind fun reader => faithful_throw rfl
  | succ depth ih =>
      exact faithful_readStatements (fun file => faithful_includeFile ih file) source

/-- Reading a source keeps to states that are reached and comes to no fault that is not
founded. -/
theorem faithful_readSource (files : SourceFiles) (source : Source) :
    Faithful (readSource files source) :=
  faithful_get_bind fun _ => faithful_readNested files _ source

theorem Reached.feed
    {reader : Reader} {written : Option String} (h : Reached reader written)
    (sources : List (SourceFiles × Source)) :
    ∃ next, Reached (Reader.feed sources reader) next := by
  induction sources generalizing reader written with
  | nil => exact ⟨written, h⟩
  | cons source sources ih =>
      obtain ⟨⟨next, hnext⟩, -⟩ := faithful_readSource source.1 source.2 reader written h
      exact ih hnext

end Sources

/-! ## Reached states stand -/

end Reader

/-- Names are distinct, and a name finds the one entity that has it. -/
structure Registry.Indexed {α : Type} [Entity α] (registry : Registry α) : Prop where
  nodup : (registry.entries.map Entity.name).Nodup
  get?_iff : ∀ name entity, registry.get? name = some entity ↔
    entity ∈ registry.entries ∧ Entity.name entity = name

theorem Registry.Distinct.indexed
    {α : Type} [Entity α] {registry : Registry α} (h : registry.Distinct) : registry.Indexed :=
  ⟨h, fun _ _ => get?_eq_some_iff h⟩

/-- Every registry of the score is indexed by names. -/
structure Score.Indexed (score : Score) : Prop where
  sfx : score.sfx.Indexed
  instruments : score.instruments.Indexed
  drums : score.drums.Indexed
  patterns : score.patterns.Indexed
  songs : score.songs.Indexed

namespace Reader

/-- In every state that is reached the registries are indexed by their names and what is
open is tracked, and a definition that fails changes nothing. Whatever sources are read,
the reader stays in states that are reached, and it comes to no fault that is not
founded. -/
theorem standing_of_reached
    {reader : Reader} {written : Option String} (h : Reached reader written) :
    reader.score.Indexed ∧ reader.Tracks written ∧
      (∀ keyword word arguments object fault later, Keyword.defines keyword →
        perform keyword word arguments object reader = .error fault later → later = reader) ∧
      (∀ sources, ∃ next, Reached (feed sources reader) next) ∧
      ∀ files source report later, readSource files source reader = .error report later →
        report.fault.isFounded := by
  have horder := h.inOrder
  refine ⟨⟨horder.sfx.indexed, horder.instruments.indexed, horder.drums.indexed,
    horder.patterns.indexed, horder.songs.indexed⟩, h.tracks, ?_, h.feed, ?_⟩
  · intro keyword word arguments object fault later hdefines hrun
    exact eq_of_perform_definition hdefines hrun
  · intro files source
    exact (faithful_readSource files source reader written h).2

/-- A pattern is open in a song. -/
def overture : Reader :=
  left (dispatch includeNothing ["pattern", "p"]
    (left (dispatch includeNothing ["song", "aria"] (initial 8))))

/-- The pattern of the overture cannot be defined again. -/
theorem overture_standing :
    Reached overture (some "p") ∧ overture.score.Indexed ∧ overture.Tracks (some "p") ∧
      overture.scope = ⟨some 0, some (.pattern 0)⟩ ∧
      overture.score.patterns.names = ["aria::p"] ∧
      (∃ fault, perform .pattern "pattern" ["p"] none overture = .error fault overture) ∧
      ∃ report later,
        readSource (fun _ => .error .missing) ⟨"pattern p", "score", none⟩ overture =
          .error report later ∧ report.fault.isFounded := by
  have hsong := eq_ok_of_succeeded
    (show succeeded (dispatch includeNothing ["song", "aria"] (initial 8)) = true by
      decide +kernel)
  have hpattern : dispatch includeNothing ["pattern", "p"]
      (left (dispatch includeNothing ["song", "aria"] (initial 8))) = .ok () overture :=
    eq_ok_of_succeeded (by decide +kernel)
  have hreached : Reached overture (some "p") := ((Reached.initial 8).accept hsong).accept hpattern
  obtain ⟨hindexed, htracks, hunchanged, -, hfounded⟩ := standing_of_reached hreached
  obtain ⟨fault, later, hagain⟩ := exists_of_not_succeeded
    (show succeeded (perform .pattern "pattern" ["p"] none overture) = false by decide +kernel)
  obtain ⟨report, stopped, hread⟩ := exists_of_not_succeeded
    (show succeeded (readSource (fun _ => .error .missing) ⟨"pattern p", "score", none⟩
      overture) = false by decide +kernel)
  have hsame := hunchanged .pattern "pattern" ["p"] none fault later rfl hagain
  rw [hsame] at hagain
  exact ⟨hreached, hindexed, htracks, by decide +kernel, by decide +kernel, ⟨fault, hagain⟩,
    report, stopped, hread, hfounded _ _ report stopped hread⟩

end Reader

end Chiptune
