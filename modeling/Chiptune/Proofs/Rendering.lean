import Chiptune.Proofs.Assembly
import Chiptune.Proofs.Reader.Erasing
import Mathlib.Data.List.Nodup

/-!
# Rendering in any order

An entity is rendered from what it holds and from what the names in it stand for. Its
place does not matter, nor does the order in which entities were defined. So two scores
that hold the same entities in different orders have the same entries.
-/

namespace Chiptune

/-! ## Entities without places -/

/-- Pitch settings without the layers in which chord names are looked up. -/
def PitchState.bare (pitch : PitchState) : PitchState := { pitch with lineage := [] }

/-- A sound effect without its places and layers of chord names. -/
def SoundEffect.bare (effect : SoundEffect) : SoundEffect :=
  { Frame.erasing.effect effect with pitch := effect.pitch.bare }

/-- A pattern without its place and layers of chord names. -/
def Pattern.bare (pattern : Pattern) : Pattern :=
  { Frame.erasing.pattern pattern with pitch := pattern.pitch.bare }

/-- A song without its places and layers of chord names. -/
def Song.bare (song : Song) : Song :=
  { Frame.erasing.song song with pitch := song.pitch.bare }

/-- An instrument without its places. -/
def Instrument.bare (instrument : Instrument) : Instrument :=
  Frame.erasing.instrument instrument

/-- A drum without its place. -/
def Drum.bare (drum : Drum) : Drum := Frame.erasing.drum drum

namespace Frame

variable (frame : Frame)

theorem erasing_field {α : Type} (field : Field α) :
    erasing.field (frame.field field) = erasing.field field := by
  simp [Frame.field, Function.comp_def]

theorem erasing_envelope (envelope : Envelope) :
    erasing.envelope (frame.envelope envelope) = erasing.envelope envelope := by
  simp [Frame.envelope, erasing_field]

theorem erasing_event (event : ConductorEvent) :
    erasing.event (frame.event event) = erasing.event event := by
  cases event <;> rfl

theorem bare_effect (effect : SoundEffect) : (frame.effect effect).bare = effect.bare := by
  simp [SoundEffect.bare, Frame.effect, erasing_field, erasing_envelope, Frame.pitch,
    PitchState.bare]

theorem bare_pattern (pattern : Pattern) : (frame.pattern pattern).bare = pattern.bare := rfl

theorem bare_song (song : Song) : (frame.song song).bare = song.bare := by
  simp [Song.bare, Frame.song, erasing_field, erasing_event, Frame.pitch, PitchState.bare]

theorem bare_instrument (instrument : Instrument) :
    (frame.instrument instrument).bare = instrument.bare := by
  simp [Instrument.bare, Frame.instrument, erasing_field, erasing_envelope]

theorem bare_drum (drum : Drum) : (frame.drum drum).bare = drum.bare := rfl

end Frame

/-! ## Names in any order -/

namespace Registry

variable {α : Type}

/-- The registries hold entities with the same images, in any order. -/
def Alike (image : α → α) (registry other : Registry α) : Prop :=
  (registry.entries.map image).Perm (other.entries.map image)

variable [Entity α] {registry other : Registry α} {image : α → α}

theorem get?_eq_of_perm
    (h : registry.Distinct) (hperm : registry.entries.Perm other.entries) (name : String) :
    registry.get? name = other.get? name := by
  have hother : other.Distinct := (hperm.map Entity.name).nodup_iff.mp h
  apply Option.ext
  intro entity
  rw [get?_eq_some_iff h, get?_eq_some_iff hother, hperm.mem_iff]

variable (hname : ∀ entity, Entity.name (image entity) = Entity.name entity)
include hname

theorem distinct_map (h : registry.Distinct) :
    (⟨registry.entries.map image⟩ : Registry α).Distinct := by
  have hnames : (⟨registry.entries.map image⟩ : Registry α).names = registry.names := by
    simp [names, hname]
  rw [Distinct, hnames]
  exact h

/-- A name stands for entities with the same image. -/
theorem resolve?_of_alike
    (h : registry.Distinct) (halike : Alike image registry other) (name scope : String) :
    (registry.resolve? name scope).map image = (other.resolve? name scope).map image := by
  have hget : ∀ candidate,
      (registry.get? candidate).map image = (other.get? candidate).map image := by
    intro candidate
    rw [← get?_map hname, ← get?_map hname]
    exact get?_eq_of_perm (distinct_map hname h) halike candidate
  unfold resolve?
  induction Name.candidates name scope with
  | nil => rfl
  | cons candidate rest ih =>
      have hhead := hget candidate
      cases hfirst : registry.get? candidate with
      | none =>
          rw [hfirst] at hhead
          have hsecond : other.get? candidate = none := Option.map_eq_none_iff.mp hhead.symm
          simpa [hfirst, hsecond] using ih
      | some entity =>
          rw [hfirst] at hhead
          obtain ⟨found, hfound, himage⟩ := Option.map_eq_some_iff.mp hhead.symm
          simp [hfirst, hfound, himage]

end Registry

/-! ## Scores that hold the same -/

namespace Score

/-- The scores hold the same entities in any order, at any places, and the same is said
about the album and the resume point. -/
structure Alike (score other : Score) : Prop where
  sfx : score.sfx.Alike SoundEffect.bare other.sfx
  instruments : score.instruments.Alike Instrument.bare other.instruments
  drums : score.drums.Alike Drum.bare other.drums
  patterns : score.patterns.Alike Pattern.bare other.patterns
  songs : score.songs.Alike Song.bare other.songs
  album : Frame.erasing.album score.album = Frame.erasing.album other.album
  resume : score.resume.value? = other.resume.value?

/-- What names stand for is the same in both scores. -/
structure ResolvesAlike (score other : Score) : Prop where
  sfx : ∀ name scope, (score.sfx.resolve? name scope).map SoundEffect.bare =
    (other.sfx.resolve? name scope).map SoundEffect.bare
  instruments : ∀ name scope, (score.instruments.resolve? name scope).map Instrument.bare =
    (other.instruments.resolve? name scope).map Instrument.bare
  drums : ∀ name scope, (score.drums.resolve? name scope).map Drum.bare =
    (other.drums.resolve? name scope).map Drum.bare
  patterns : ∀ name scope, (score.patterns.resolve? name scope).map Pattern.bare =
    (other.patterns.resolve? name scope).map Pattern.bare

end Score

theorem Score.Alike.resolvesAlike
    {reader : Reader} {other : Score} (h : reader.score.Alike other) (horder : reader.InOrder) :
    reader.score.ResolvesAlike other where
  sfx := Registry.resolve?_of_alike (fun _ => rfl) horder.sfx h.sfx
  instruments := Registry.resolve?_of_alike (fun _ => rfl) horder.instruments h.instruments
  drums := Registry.resolve?_of_alike (fun _ => rfl) horder.drums h.drums
  patterns := Registry.resolve?_of_alike (fun _ => rfl) horder.patterns h.patterns

/-! ## Entries -/

theorem value?_erasing {α : Type} (field : Field α) :
    (Frame.erasing.field field).value? = field.value? := by
  simp [Frame.field, Field.value?, Function.comp_def]

theorem frames_erasing (envelope : Envelope) :
    (Frame.erasing.envelope envelope).frames = envelope.frames := by
  funext timbre
  simp [Frame.envelope, Envelope.frames, Envelope.volumes, value?_erasing]

theorem SoundEffect.entry_bare (effect : SoundEffect) : effect.bare.entry = effect.entry := by
  have hwords : effect.bare.stepWords = effect.stepWords := by
    simp [stepWords, frames, bare, Frame.effect, frames_erasing]
  have hrate : effect.bare.rate.value? = effect.rate.value? := value?_erasing effect.rate
  simp only [entry, hwords, hrate]
  rfl

theorem Instrument.entry_bare (instrument : Instrument) :
    instrument.bare.entry = instrument.entry := by
  have hframes : instrument.bare.frames = instrument.frames := by
    simp [frames, bare, Frame.instrument, frames_erasing]
  have hdecay : instrument.bare.decay.value? = instrument.decay.value? :=
    value?_erasing instrument.decay
  simp only [entry, attackBytes, attack, sustain, hframes, hdecay]
  rfl

/-- Either nothing is found twice, or what is found has the same image. -/
theorem both_of_map_eq
    {α β : Type} {image : α → β} {first second : Option α}
    (h : first.map image = second.map image) :
    first = none ∧ second = none ∨
      ∃ found other, first = some found ∧ second = some other ∧ image found = image other := by
  cases first with
  | none => exact .inl ⟨rfl, Option.map_eq_none_iff.mp h.symm⟩
  | some found =>
      obtain ⟨other, hother, himage⟩ := Option.map_eq_some_iff.mp h.symm
      exact .inr ⟨found, other, rfl, hother, himage.symm⟩

section Entries

variable {score other : Score} (h : score.ResolvesAlike other)
include h

theorem Drum.entry_alike (drum : Drum) : drum.entry score.sfx = drum.bare.entry other.sfx := by
  have hlabel : drum.effectLabel score.sfx = drum.bare.effectLabel other.sfx := by
    funext name
    unfold effectLabel
    have hown : drum.bare.name = drum.name := rfl
    rw [hown]
    rcases both_of_map_eq (h.sfx name drum.name) with
      ⟨hnone, hnone'⟩ | ⟨effect, found, hsome, hsome', hbare⟩
    · rw [hnone, hnone']
    · have hname : effect.bare.name = found.bare.name := congrArg SoundEffect.name hbare
      rw [hsome, hsome']
      exact congrArg (fun name => Except.ok (SoundEffect.labelOf name)) hname
  unfold entry
  rw [hlabel]
  rfl

theorem Orchestra.sound_alike : score.orchestra.sound = other.orchestra.sound := by
  funext pattern transpose note
  cases note with
  | drum name =>
      simp only [sound, Score.orchestra]
      rcases both_of_map_eq (h.drums name pattern) with
        ⟨hnone, hnone'⟩ | ⟨drum, found, hsome, hsome', hbare⟩
      · rw [hnone, hnone']
      · have hname : drum.bare.name = found.bare.name := congrArg Drum.name hbare
        rw [hsome, hsome']
        exact congrArg (fun name => Except.ok (Sound.drum (Drum.labelOf name))) hname
  | pitch | rest | wait => rfl

theorem Orchestra.effectCode_alike :
    score.orchestra.effectCode = other.orchestra.effectCode := by
  funext pattern effect
  cases effect with
  | instrument name =>
      simp only [effectCode, Score.orchestra]
      rcases both_of_map_eq (h.instruments name pattern) with
        ⟨hnone, hnone'⟩ | ⟨instrument, found, hsome, hsome', hbare⟩
      · rw [hnone, hnone']
      · have hname : instrument.bare.name = found.bare.name := congrArg Instrument.name hbare
        rw [hsome, hsome']
        exact congrArg (fun name => Except.ok (PatternCode.instrument (Instrument.labelOf name)))
          hname
  | fastArpeggio | slowArpeggio | bend | vibrato | channelVolume => rfl

theorem Orchestra.encodeFrom_alike
    (pattern : String) (index : Nat) (encoder : Encoder) (items : List TiedItem) :
    score.orchestra.encodeFrom pattern index encoder items =
      other.orchestra.encodeFrom pattern index encoder items := by
  have hitem : score.orchestra.encodeItem = other.orchestra.encodeItem := by
    funext pattern encoder item
    cases item <;> simp only [encodeItem, sound_alike h, effectCode_alike h]
  induction items generalizing index encoder with
  | nil => rfl
  | cons item items ih => simp only [encodeFrom, hitem, ih]

theorem Pattern.entry_alike (pattern : Pattern) :
    pattern.entry score.orchestra = pattern.bare.entry other.orchestra := by
  have hencode : pattern.encode score.orchestra = pattern.bare.encode other.orchestra := by
    unfold encode
    simp only [Orchestra.encodeFrom_alike h]
    rfl
  unfold entry
  rw [hencode]
  rfl

end Entries

namespace Song

open Step

/-- Both steps give the same, whatever was warned about before. -/
def SameOutput {ε α : Type} [HasKind ε] (step step' : EStateM ε Diagnostics α) : Prop :=
  ∀ diagnostics diagnostics',
    Lockstep False step step' diagnostics diagnostics' fun value value' _ _ => value = value'

theorem sameOutput_self {ε α : Type} [HasKind ε] (value : α) :
    SameOutput (pure value : EStateM ε Diagnostics α) (pure value) :=
  fun _ _ => lockstep_pure rfl

variable {score other : Score} (h : score.ResolvesAlike other) (song : Song)

theorem playedTrack_alike
    (asked : Option Track) (pattern : Pattern) (name : String) (place place' : Location) :
    SameOutput (playedTrack asked pattern name place) (playedTrack asked pattern name place') := by
  intro diagnostics diagnostics'
  unfold playedTrack
  split
  · exact lockstep_pure rfl
  · exact lockstep_modify_bind (lockstep_pure rfl)

include h

theorem instrumentLabel_alike (name scope : String) :
    instrumentLabel score name scope = instrumentLabel other name scope := by
  unfold instrumentLabel
  rcases both_of_map_eq (h.instruments name scope) with
    ⟨hnone, hnone'⟩ | ⟨instrument, found, hsome, hsome', hbare⟩
  · rw [hnone, hnone']
  · have hname : instrument.bare.name = found.bare.name := congrArg Instrument.name hbare
    rw [hsome, hsome']
    exact congrArg (fun name => Except.ok (Instrument.labelOf name)) hname

theorem playedInstrument_alike
    (asked : Option String) (pattern : Pattern) (name : String) (place place' : Location) :
    SameOutput (song.playedInstrument score asked pattern name place)
      (song.bare.playedInstrument other asked pattern name place') := by
  intro diagnostics diagnostics'
  have hlabel : ∀ name scope, Lockstep False
      (Step.decide (instrumentLabel score name scope) : Rendering String)
      (Step.decide (instrumentLabel other name scope) : Rendering String)
      diagnostics diagnostics' fun value value' _ _ => value = value' := by
    intro name scope
    rw [instrumentLabel_alike h]
    exact lockstep_decide (agree_self _) fun _ _ hvalue => hvalue
  unfold playedInstrument
  split
  · exact hlabel _ _
  · exact hlabel _ _
  · exact lockstep_modify_bind (lockstep_pure rfl)

theorem pitchedCommand_alike
    (pattern : Pattern) (name : String) (track : Track) (instrument : Option String)
    (transpose : Int) (place place' : Location) :
    SameOutput (song.pitchedCommand score pattern name track instrument transpose place)
      (song.bare.pitchedCommand other pattern name track instrument transpose place') := by
  intro diagnostics diagnostics'
  unfold pitchedCommand
  dsimp only
  by_cases hdrum : pattern.isDrum = true
  · rw [if_pos hdrum, if_pos hdrum]
    exact lockstep_throw_bind rfl
  · rw [if_neg hdrum, if_neg hdrum]
    cases pattern.baseTranspose with
    | none => exact lockstep_throw rfl
    | some base =>
        dsimp only
        split
        · exact lockstep_throw_bind rfl
        · apply (playedInstrument_alike h song instrument pattern name place place' _ _).bind
          rintro label _ next next' rfl
          exact lockstep_pure rfl

theorem playCommand_alike
    (name : String) (track : Option Track) (instrument : Option String) (transpose : Int)
    (place place' : Location) :
    SameOutput (song.playCommand score name track instrument transpose place)
      (song.bare.playCommand other name track instrument transpose place') := by
  intro diagnostics diagnostics'
  unfold playCommand
  have hsong : song.bare.name = song.name := rfl
  rw [hsong]
  rcases both_of_map_eq (h.patterns name song.name) with
    ⟨hnone, hnone'⟩ | ⟨pattern, found, hsome, hsome', hbare⟩
  · rw [hnone, hnone']
    exact lockstep_throw rfl
  · rw [hsome, hsome']
    dsimp only
    -- the track, the notes and the names are those of the bare pattern
    have htrack : playedTrack track found name place' = playedTrack track pattern name place' := by
      change playedTrack track found.bare name place' = playedTrack track pattern.bare name place'
      rw [hbare]
    have hdrum : found.isDrum = pattern.isDrum := by
      change found.bare.isDrum = pattern.bare.isDrum
      rw [hbare]
    have hname : found.name = pattern.name := by
      change found.bare.name = pattern.bare.name
      rw [hbare]
    have hpitched : ∀ track,
        song.bare.pitchedCommand other found name track instrument transpose place' =
          song.bare.pitchedCommand other pattern name track instrument transpose place' := by
      intro track
      change song.bare.pitchedCommand other found.bare name track instrument transpose place' =
        song.bare.pitchedCommand other pattern.bare name track instrument transpose place'
      rw [hbare]
    simp only [htrack, hdrum, hname, hpitched]
    apply (playedTrack_alike track pattern name place place' _ _).bind
    rintro track _ next next' rfl
    by_cases hnoise : track = .drum
    · rw [if_pos hnoise, if_pos hnoise]
      by_cases hdrums : pattern.isDrum = true
      · rw [if_pos hdrums, if_pos hdrums]
        exact lockstep_pure rfl
      · rw [if_neg hdrums, if_neg hdrums]
        exact lockstep_throw_bind rfl
    · rw [if_neg hnoise, if_neg hnoise]
      exact pitchedCommand_alike h song pattern name track instrument transpose place place' _ _

theorem command_alike (event : ConductorEvent) :
    SameOutput (song.command score event)
      (song.bare.command other (Frame.erasing.event event)) := by
  cases event with
  | play pattern track instrument transpose place =>
      exact playCommand_alike h song pattern track instrument transpose place _
  | noteOn track pitch instrument place =>
      intro diagnostics diagnostics'
      change Lockstep False (Step.decide (instrumentLabel score instrument song.name) >>= _)
        (Step.decide (instrumentLabel other instrument song.name) >>= _) _ _ _
      rw [instrumentLabel_alike h]
      exact lockstep_decide_bind fun label _ => lockstep_pure rfl
  | setTempo | setBeat | waitRows | stop | attackOn | segno | fine | dalSegno =>
      exact sameOutput_self _

theorem commands_alike (events : List ConductorEvent) :
    SameOutput (song.commands score events)
      (song.bare.commands other (events.map Frame.erasing.event)) := by
  induction events with
  | nil => exact sameOutput_self _
  | cons event events ih =>
      intro diagnostics diagnostics'
      have hkind : ∀ event fault, HasKind.kind (located event fault) = HasKind.kind fault := by
        intro event fault
        unfold located
        split <;> rfl
      rw [commands_cons, List.map_cons, commands_cons]
      apply (((command_alike h song event _ _).adaptExcept_left (hkind event)).adaptExcept_right
        (hkind (Frame.erasing.event event))).bind
      rintro line _ next next' rfl
      apply (ih next next').bind
      rintro lines _ last last' rfl
      exact lockstep_pure rfl

/-- A song without places is rendered to the same entry. -/
theorem entry_alike : SameOutput (song.entry score) (song.bare.entry other) := by
  intro diagnostics diagnostics'
  apply (commands_alike h song song.events diagnostics diagnostics').bind
  rintro lines _ next next' rfl
  exact lockstep_pure rfl

end Song

/-! ## Tables -/

theorem Score.ResolvesAlike.refl (score : Score) : score.ResolvesAlike score :=
  ⟨fun _ _ => rfl, fun _ _ => rfl, fun _ _ => rfl, fun _ _ => rfl⟩

theorem Score.Alike.symm {score other : Score} (h : score.Alike other) : other.Alike score :=
  ⟨h.sfx.symm, h.instruments.symm, h.drums.symm, h.patterns.symm, h.songs.symm, h.album.symm,
    h.resume.symm⟩

namespace Assembly

/-- The entries of a table. -/
def entriesOf (assembly : Assembly) (directory : Directory) : List Entry :=
  (assembly.tables.filter (·.directory = directory)).flatMap (·.entries)

/-- The entries of both tables come from one way of rendering entities. -/
def RenderedAlike {α : Type} (bare : α → α) (entities others : Registry α)
    (entries entries' : List Entry) : Prop :=
  ∃ render : α → Entry, entries = entities.entries.map (fun entity => render (bare entity)) ∧
    entries' = others.entries.map (fun entity => render (bare entity))

/-- The assemblies hold the same entities in any order, and the same entry for each. -/
structure Alike (assembly other : Assembly) : Prop where
  score : assembly.score.Alike other.score
  sfx : RenderedAlike SoundEffect.bare assembly.score.sfx other.score.sfx
    (assembly.entriesOf .sfx) (other.entriesOf .sfx)
  instruments : RenderedAlike Instrument.bare assembly.score.instruments
    other.score.instruments (assembly.entriesOf .instruments) (other.entriesOf .instruments)
  drums : RenderedAlike Drum.bare assembly.score.drums other.score.drums
    (assembly.entriesOf .drums) (other.entriesOf .drums)
  patterns : RenderedAlike Pattern.bare assembly.score.patterns other.score.patterns
    (assembly.entriesOf .patterns) (other.entriesOf .patterns)
  songs : RenderedAlike Song.bare assembly.score.songs other.score.songs
    (assembly.entriesOf .songs) (other.entriesOf .songs)

theorem eq_map_of_forall₂
    {α β : Type} {render : α → β} {entities : List α} {entries : List β}
    (h : List.Forall₂ (fun entity entry => render entity = entry) entities entries) :
    entries = entities.map render := by
  induction h with
  | nil => rfl
  | cons hentry _ ih => rw [List.map_cons, hentry, ih]

section Tables

variable {score other : Score} {diagnostics later : Diagnostics} {entries : List Entry}
  (h : other.ResolvesAlike score)
include h

theorem drumEntries_alike (hentries : drumEntries other = .ok entries) :
    entries = other.drums.entries.map fun drum =>
      ((drum.bare.entry score.sfx).toOption).getD default := by
  apply eq_map_of_forall₂
  refine (forall₂_of_mapM hentries).imp fun drum entry hentry => ?_
  rw [← drum.entry_alike h, eq_ok_of_faultAt hentry]
  rfl

theorem patternEntries_alike (hentries : patternEntries other = .ok entries) :
    entries = other.patterns.entries.map fun pattern =>
      ((pattern.bare.entry score.orchestra).toOption).getD default := by
  apply eq_map_of_forall₂
  refine (forall₂_of_mapM hentries).imp fun pattern entry hentry => ?_
  rw [← pattern.entry_alike h, eq_ok_of_faultAt hentry]
  rfl

/-- The entry that a song is rendered to, if it is. -/
def songEntry (score : Score) (song : Song) : Entry :=
  match song.entry score .empty with
  | .ok entry _ => entry
  | .error _ _ => default

theorem songEntries_alike
    (hentries : songEntries other other.songs.entries diagnostics = .ok entries later) :
    entries = other.songs.entries.map fun song => songEntry score song.bare := by
  apply eq_map_of_forall₂
  refine (forall₂_of_songEntries hentries).imp fun song entry hentry => ?_
  obtain ⟨before, after, hrun⟩ := hentry
  obtain ⟨_, _, hbare, rfl⟩ := (song.entry_alike h before .empty).ok_right hrun
  rw [songEntry, hbare]

end Tables

/-- Scores that hold the same entities are assembled alike. -/
theorem alike_of_ofScore
    {reader reader' : Reader} {diagnostics diagnostics' : Diagnostics}
    {assembly assembly' : Assembly} (horder' : reader'.InOrder)
    (halike : reader.score.Alike reader'.score)
    (h : ofScore reader.score diagnostics = .ok assembly)
    (h' : ofScore reader'.score diagnostics' = .ok assembly') : assembly.Alike assembly' := by
  obtain ⟨drums, patterns, songs, hdrums, hpatterns, hsongs, hscore, htables⟩ :=
    ofScore_eq_ok h
  obtain ⟨drums', patterns', songs', hdrums', hpatterns', hsongs', hscore', htables'⟩ :=
    ofScore_eq_ok h'
  have hself := Score.ResolvesAlike.refl reader.score
  have hother := halike.symm.resolvesAlike horder'
  constructor
  · rw [hscore, hscore']
    exact halike
  · refine ⟨SoundEffect.entry, ?_, ?_⟩
    · simp [entriesOf, htables, hscore, SoundEffect.entry_bare]
    · simp [entriesOf, htables', hscore', SoundEffect.entry_bare]
  · refine ⟨Instrument.entry, ?_, ?_⟩
    · simp [entriesOf, htables, hscore, Instrument.entry_bare]
    · simp [entriesOf, htables', hscore', Instrument.entry_bare]
  · refine ⟨fun drum => ((drum.entry reader.score.sfx).toOption).getD default, ?_, ?_⟩
    · simp [entriesOf, htables, hscore, drumEntries_alike hself hdrums]
    · simp [entriesOf, htables', hscore', drumEntries_alike hother hdrums']
  · refine ⟨fun pattern => ((pattern.entry reader.score.orchestra).toOption).getD default, ?_, ?_⟩
    · simp [entriesOf, htables, hscore, patternEntries_alike hself hpatterns]
    · simp [entriesOf, htables', hscore', patternEntries_alike hother hpatterns']
  · refine ⟨songEntry reader.score, ?_, ?_⟩
    · simp [entriesOf, htables, hscore, songEntries_alike hself hsongs]
    · simp [entriesOf, htables', hscore', songEntries_alike hother hsongs']

end Assembly

end Chiptune
