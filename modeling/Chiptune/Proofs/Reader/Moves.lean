import Chiptune.Proofs.Chord.Naming
import Chiptune.Proofs.Song.Strokes
import Chiptune.Proofs.Versions
import Chiptune.Proofs.Voice.Revisions
import Chiptune.Reader.Statements

/-!
# Moves of the reader

Whatever a statement does to the reader, by success or by failure, is a run of a few
kinds of moves. What holds of all moves holds of all readings. Most moves are edits,
which open no object. To end a song is a change of its own kind, which no statement but
the ending makes, and so is to go from one place to another, which no statement but an
inclusion does.
-/

namespace Chiptune

open Step

namespace Registry

variable {α : Type} [Entity α]

/-- A registry with one more entity. -/
def add (registry : Registry α) (entity : α) : Registry α := ⟨registry.entries ++ [entity]⟩

theorem insert_eq_ok
    {registry next : Registry α} {kind : String} {entity : α} {index : Nat}
    (h : registry.insert kind entity = .ok (index, next)) :
    registry.get? (Entity.name entity) = none ∧ index = registry.size ∧
      next = registry.add entity := by
  unfold insert at h
  split at h
  · cases h
  · next hnew =>
      cases h
      exact ⟨hnew, rfl, rfl⟩

omit [Entity α] in
theorem at?_add_eq_some
    {registry : Registry α} {entity found : α} {index : Nat}
    (h : (registry.add entity).at? index = some found) :
    index < registry.size ∧ registry.at? index = some found ∨
      index = registry.size ∧ found = entity := by
  by_cases hlt : index < registry.entries.length
  · rw [at?, add, List.getElem?_append_left hlt] at h
    exact .inl ⟨hlt, h⟩
  · rw [at?, add, List.getElem?_append_right (Nat.le_of_not_lt hlt),
      List.getElem?_singleton] at h
    split at h
    · next hfirst =>
        cases h
        refine .inr ⟨?_, rfl⟩
        rw [size]
        omega
    · cases h

omit [Entity α] in
theorem at?_put_eq_some
    {registry : Registry α} {later found : α} {number index : Nat}
    (h : (registry.put number later).at? index = some found) :
    index = number ∧ found = later ∨ index ≠ number ∧ registry.at? index = some found := by
  rw [at?, put, List.getElem?_set] at h
  by_cases hindex : number = index
  · rw [if_pos hindex] at h
    split at h
    · cases h
      exact .inl ⟨hindex.symm, rfl⟩
    · cases h
  · rw [if_neg hindex] at h
    exact .inr ⟨Ne.symm hindex, h⟩

end Registry

namespace Argument

theorem eq_of_single
    {keyword form argument : String} {arguments : List String}
    (h : single keyword arguments form = .ok argument) : arguments = [argument] := by
  unfold single at h
  split at h
  · cases h
    rfl
  · cases h

theorem head?_of_named
    {moves : Bool} {form name : String} {arguments : List String} {options : Options}
    (h : named moves form arguments = .ok (name, options)) : arguments.head? = some name := by
  unfold named at h
  split at h
  · cases h
  · split at h
    · cases h
    · obtain ⟨_, -, heq⟩ := map_eq_ok h
      cases heq
      rfl

end Argument

namespace Keyword

/-- Whether the statement defines an entity. -/
def defines : Keyword → Bool
  | sfx | instrument | drum | pattern | song => true
  | _ => false

/-- Whether the statement defines an object and opens it. -/
def opensObject : Keyword → Bool
  | sfx | instrument | pattern => true
  | _ => false

theorem defines_of_opensObject {keyword : Keyword} (h : keyword.opensObject) :
    keyword.defines := by
  cases keyword with
  | sfx | instrument | pattern => rfl
  | _ => cases h

end Keyword

namespace Reader

/-- One elementary change of what is read that opens no object. -/
inductive Edit : Reader → Reader → Prop where
  | remark (reader : Reader) (diagnostics : Diagnostics) :
      Edit reader { reader with diagnostics := diagnostics }
  | closeObject (reader : Reader) :
      Edit reader { reader with scope := reader.scope.closeObject }
  | setPitch {reader : Reader} {pitch : PitchState} (hpattern : reader.openPattern? = none)
      (hsong : reader.numberedSong? = none) (hlineage : pitch.lineage = reader.pitch.lineage) :
      Edit reader { reader with pitch := pitch }
  | setMeter {reader : Reader} {meter : Meter} (hpattern : reader.openPattern? = none)
      (hsong : reader.numberedSong? = none) : Edit reader { reader with meter := meter }
  | defineChord (reader : Reader) (name : String) (code : ChordCode) :
      Edit reader
        { reader with
          chords := reader.chords.record reader.pitchSettings.lineage name code }
  | creditAlbum {reader : Reader} {album : AlbumNotes} (hsong : reader.scope.song = none) :
      Edit reader { reader with score := { reader.score with album := album } }
  | setResume (reader : Reader) (resume : Field ResumePoint) :
      Edit reader { reader with score := { reader.score with resume := resume } }
  | addDrum {reader : Reader} {name : String} {effects : List String}
      (hnew : reader.score.drums.get? (reader.qualified name) = none) :
      Edit reader
        { reader with
          score := { reader.score with
            drums := reader.score.drums.add ⟨reader.qualified name, reader.here, effects⟩ } }
  | addSong {reader : Reader} {name : String} (hclosed : reader.scope.song = none)
      (hnew : reader.score.songs.get? name = none) :
      Edit reader
        { reader with
          score := { reader.score with
            songs := reader.score.songs.add
              (.blank name reader.here (reader.pitch.child reader.chords).1 reader.meter) }
          chords := (reader.pitch.child reader.chords).2
          scope := ⟨some reader.score.songs.size, none⟩ }
  | changeEffect {reader : Reader} {index : Nat} {effect later : SoundEffect}
      (hat : reader.score.sfx.at? index = some effect) (hrevision : effect.Revision later) :
      Edit reader (reader.putEffect index later)
  | changeInstrument {reader : Reader} {index : Nat} {instrument later : Instrument}
      (hat : reader.score.instruments.at? index = some instrument)
      (hrevision : instrument.Revision later) : Edit reader (reader.putInstrument index later)
  | changePattern {reader : Reader} {index : Nat} {pattern later : Pattern}
      (hat : reader.score.patterns.at? index = some pattern)
      (hversion : pattern.VersionOf later) : Edit reader (reader.putPattern index later)
  | changeSong {reader : Reader} {index : Nat} {song later : Song}
      (hopen : reader.scope.song = some index)
      (hat : reader.score.songs.at? index = some song)
      (hstrokes : song.Strokes later) : Edit reader (reader.putSong index later)

/-- A run of edits. -/
abbrev Edits : Reader → Reader → Prop := Relation.ReflTransGen Edit

/-- An object is added under a name and opened. -/
inductive Opening (name : String) : Reader → Reader → Prop where
  | effect {reader : Reader} {channel : Channel}
      (hnew : reader.score.sfx.get? (reader.qualified name) = none) :
      Opening name reader
        { reader with
          score := { reader.score with
            sfx := reader.score.sfx.add
              (.blank (reader.qualified name) reader.here channel reader.parentPitch) }
          scope := reader.scope.openObject (.sfx reader.score.sfx.size) }
  | instrument {reader : Reader}
      (hnew : reader.score.instruments.get? (reader.qualified name) = none) :
      Opening name reader
        { reader with
          score := { reader.score with
            instruments :=
              reader.score.instruments.add (.blank (reader.qualified name) reader.here) }
          scope := reader.scope.openObject (.instrument reader.score.instruments.size) }
  | pattern {reader : Reader} {track : Option Track} {instrument : Option String}
      (hnew : reader.score.patterns.get? (reader.qualified name) = none) :
      Opening name reader
        { reader with
          score := { reader.score with
            patterns := reader.score.patterns.add
              (.blank (reader.qualified name) reader.here track instrument
                (reader.parentPitch.child reader.chords).1 reader.parentMeter) }
          chords := (reader.parentPitch.child reader.chords).2
          scope := reader.scope.openObject (.pattern reader.score.patterns.size) }

/-- An edit, or an object is opened. -/
inductive Move : Reader → Reader → Prop where
  | edit {reader later : Reader} (h : Edit reader later) : Move reader later
  | opening {name : String} {reader later : Reader} (h : Opening name reader later) :
      Move reader later

/-- A run of moves. -/
abbrev Moves : Reader → Reader → Prop := Relation.ReflTransGen Move

/-- A move, or the open song ends and is closed with the object in it. -/
inductive Turn : Reader → Reader → Prop where
  | move {reader later : Reader} (h : Move reader later) : Turn reader later
  | endSong {reader : Reader} {index : Nat} {song done : Song} {ending : Ending}
      (hopen : reader.scope.song = some index)
      (hat : reader.score.songs.at? index = some song)
      (hfinish : song.finish ending = .ok done) :
      Turn reader { reader.putSong index done with scope := .topLevel }

/-- A run of turns, as statements make them. -/
abbrev Turns : Reader → Reader → Prop := Relation.ReflTransGen Turn

/-- A turn, or the reader goes to another place. -/
inductive Travel : Reader → Reader → Prop where
  | turn {reader later : Reader} (h : Turn reader later) : Travel reader later
  | goTo (reader : Reader) (here : Location) (inclusions : List Location)
      (directories : List String) :
      Travel reader
        { reader with here := here, inclusions := inclusions, directories := directories }

/-- A run of turns from place to place, as sources make them. -/
abbrev Travels : Reader → Reader → Prop := Relation.ReflTransGen Travel

theorem Edit.edits {reader later : Reader} (h : Edit reader later) : Edits reader later :=
  .single h

theorem Edits.moves {reader later : Reader} (h : Edits reader later) : Moves reader later :=
  Relation.ReflTransGen.mono (fun _ _ hedit => Move.edit hedit) _ _ h

theorem Moves.turns {reader later : Reader} (h : Moves reader later) : Turns reader later :=
  Relation.ReflTransGen.mono (fun _ _ hmove => Turn.move hmove) _ _ h

theorem Turns.travels {reader later : Reader} (h : Turns reader later) :
    Travels reader later :=
  Relation.ReflTransGen.mono (fun _ _ hturn => Travel.turn hturn) _ _ h

/-! ## Changes of parts -/

section Parts

variable {α : Type} {reader : Reader}

theorem onSong_leads
    {step : Step Song α} (keyword : String) (h : ∀ song, Leads Song.Strokes step song) :
    Leads Edits (onSong keyword step) reader := by
  apply leads_get_bind
  split
  · exact leads_throw _
  · next index hopen =>
      split
      · exact leads_throw _
      · next song hat =>
          apply leads_on
          exact (Edit.changeSong hopen hat (h song)).edits

theorem changeSong_leads
    {change : Song → Except Fault Song} (keyword : String)
    (h : ∀ song next, change song = .ok next → song.Strokes next) :
    Leads Edits (changeSong keyword change) reader := by
  apply onSong_leads
  intro song
  apply leads_advance
  intro _ next hrun
  obtain ⟨_, hchange, hnext⟩ := map_eq_ok hrun
  cases hnext
  exact h song next hchange

theorem putSong_self
    {index : Nat} {song : Song} (hat : reader.score.songs.at? index = some song) :
    reader.putSong index song = reader := by
  obtain ⟨hlt, hsong⟩ := List.getElem?_eq_some_iff.mp hat
  rw [putSong, Registry.put, ← hsong, List.set_getElem_self]

theorem onSong_of_closed
    {step : Step Song α} {keyword : String} (hclosed : reader.scope.song = none) :
    onSong keyword step reader = .error (.outsideSong keyword) reader := by
  simp only [onSong, get_bind_apply, hclosed]
  rfl

theorem onSong_of_open
    {step : Step Song α} {keyword : String} {index : Nat} {song : Song}
    (hopen : reader.scope.song = some index)
    (hat : reader.score.songs.at? index = some song) :
    onSong keyword step reader =
      Step.on (fun _ => song) (fun song reader => reader.putSong index song) step reader := by
  simp only [onSong, get_bind_apply, hopen, hat]

/-- A change of the open song succeeds on it as a whole or leaves the reader. -/
theorem changeSong_cases
    (keyword : String) (change : Song → Except Fault Song) (reader : Reader) :
    (∃ fault, changeSong keyword change reader = .error fault reader) ∨
      ∃ index song changed, reader.scope.song = some index ∧
        reader.score.songs.at? index = some song ∧ change song = .ok changed ∧
        changeSong keyword change reader = .ok () (reader.putSong index changed) := by
  cases hopen : reader.scope.song with
  | none => exact .inl ⟨_, onSong_of_closed hopen⟩
  | some index =>
      cases hat : reader.score.songs.at? index with
      | none =>
          refine .inl ⟨.openMissing "song", ?_⟩
          simp only [changeSong, onSong, get_bind_apply, hopen, hat]
          rfl
      | some song =>
          cases hchange : change song with
          | error fault =>
              refine .inl ⟨fault, ?_⟩
              rw [changeSong, onSong_of_open hopen hat]
              simp only [Step.on, Step.advance, hchange, Except.map, putSong_self hat]
          | ok changed =>
              refine .inr ⟨index, song, changed, rfl, hat, hchange, ?_⟩
              rw [changeSong, onSong_of_open hopen hat]
              simp only [Step.on, Step.advance, hchange, Except.map]

theorem changeInstrument_leads
    {index : Nat} {change : Instrument → Except Fault Instrument}
    (h : ∀ instrument next, change instrument = .ok next → instrument.Revision next) :
    Leads Edits (changeInstrument index change) reader := by
  apply leads_advance
  intro _ next hrun
  split at hrun
  · cases hrun
  · next instrument hat =>
      obtain ⟨changed, hchange, hnext⟩ := map_eq_ok hrun
      cases hnext
      exact (Edit.changeInstrument hat (h instrument changed hchange)).edits

theorem changeEffect_leads
    {index : Nat} {change : SoundEffect → Except Fault SoundEffect}
    (h : ∀ effect next, change effect = .ok next → effect.Revision next) :
    Leads Edits (changeEffect index change) reader := by
  apply leads_advance
  intro _ next hrun
  split at hrun
  · cases hrun
  · next effect hat =>
      obtain ⟨changed, hchange, hnext⟩ := map_eq_ok hrun
      cases hnext
      exact (Edit.changeEffect hat (h effect changed hchange)).edits

theorem onPattern_leads
    {step : Step Pattern α} (index : Nat) (h : ∀ pattern, Leads Pattern.VersionOf step pattern) :
    Leads Edits (onPattern index step) reader := by
  apply leads_get_bind
  split
  · exact leads_throw _
  · next pattern hat =>
      apply leads_on
      exact (Edit.changePattern hat (h pattern)).edits

theorem at?_of_openPattern?
    {index : Nat} {pattern : Pattern} (h : reader.openPattern? = some (index, pattern)) :
    reader.scope.object = some (.pattern index) ∧
      reader.score.patterns.at? index = some pattern := by
  unfold openPattern? at h
  split at h
  · next hobject =>
      obtain ⟨found, hfound, heq⟩ := Option.map_eq_some_iff.mp h
      cases heq
      exact ⟨hobject, hfound⟩
  · cases h

theorem at?_of_numberedSong?
    {index : Nat} {song : Song} (h : reader.numberedSong? = some (index, song)) :
    reader.scope.song = some index ∧ reader.score.songs.at? index = some song := by
  obtain ⟨number, hscope, hsong⟩ := Option.bind_eq_some_iff.mp h
  obtain ⟨found, hfound, heq⟩ := Option.map_eq_some_iff.mp hsong
  cases heq
  exact ⟨hscope, hfound⟩

theorem changePitch_leads
    {change : PitchState → Except Fault PitchState}
    (h : ∀ pitch next, change pitch = .ok next → next.lineage = pitch.lineage) :
    Leads Edits (changePitch change) reader := by
  apply leads_advance
  intro _ next hrun
  obtain ⟨pitch, hpitch, hnext⟩ := map_eq_ok hrun
  cases hnext
  have hlineage := h _ _ hpitch
  unfold pitchSettings at hlineage
  unfold putPitch
  split at hlineage
  · next pattern hpattern =>
      have hversion : pattern.VersionOf { pattern with pitch := pitch } := ⟨rfl, hlineage⟩
      exact (Edit.changePattern (at?_of_openPattern? hpattern).2 hversion).edits
  · next index song _ hsong =>
      obtain ⟨hopen, hat⟩ := at?_of_numberedSong? hsong
      have hstroke : song.Stroke { song with pitch := pitch } :=
        .settings song.tempo song.meter hlineage
      exact (Edit.changeSong hopen hat hstroke.strokes).edits
  · next hpattern hsong => exact (Edit.setPitch hpattern hsong hlineage).edits

theorem changeMeter_leads (change : Meter → Except Fault Meter) :
    Leads Edits (changeMeter change) reader := by
  apply leads_advance
  intro _ next hrun
  obtain ⟨meter, -, hnext⟩ := map_eq_ok hrun
  cases hnext
  unfold putMeter
  split
  · next index pattern hpattern =>
      have hversion : pattern.VersionOf { pattern with meter := meter } := ⟨rfl, rfl⟩
      exact (Edit.changePattern (at?_of_openPattern? hpattern).2 hversion).edits
  · next index song _ hsong =>
      obtain ⟨hopen, hat⟩ := at?_of_numberedSong? hsong
      have hstroke : song.Stroke { song with meter := meter } := .settings song.tempo meter rfl
      exact (Edit.changeSong hopen hat hstroke.strokes).edits
  · next hpattern hsong => exact (Edit.setMeter hpattern hsong).edits

theorem warn_leads (messages : List String) : Leads Edits (warn messages) reader :=
  leads_modify (Edit.remark reader _).edits

end Parts

/-! ## Statements -/

section Statements

variable {reader : Reader}

theorem setLanguage_leads (arguments : List String) :
    Leads Edits (setLanguage arguments) reader := by
  apply leads_decide_bind
  intro word _
  exact changePitch_leads fun _ _ h => (PitchState.setLanguage_kept h).lineage

theorem setSigns_leads (arguments : List String) :
    Leads Edits (setSigns arguments) reader := by
  apply leads_decide_bind
  intro word _
  exact changePitch_leads fun _ _ h => (PitchState.setSigns_kept h).lineage

theorem setDurations_leads (arguments : List String) :
    Leads Edits (setDurations arguments) reader :=
  leads_decide_bind fun _ _ => changeMeter_leads _

theorem setScale_leads (arguments : List String) :
    Leads Edits (setScale arguments) reader :=
  leads_decide_bind fun _ _ => leads_decide_bind fun _ _ => changeMeter_leads _

theorem setTime_leads (arguments : List String) :
    Leads Edits (setTime arguments) reader := by
  apply leads_decide_bind
  intro _ _
  split
  · exact leads_throw _
  · refine leads_decide_bind fun signature _ => leads_decide_bind fun scale _ => ?_
    refine leads_bind (changeMeter_leads _) fun _ next _ => ?_
    split
    · exact changeMeter_leads _
    · exact leads_pure _

theorem define_leads (words : List String) : Leads Edits (define words) reader := by
  apply leads_advance
  intro _ next hrun
  split at hrun
  · cases hrun
  · dsimp only at hrun
    split at hrun
    · cases hrun
    · obtain ⟨chords, hchords, hnext⟩ := map_eq_ok hrun
      cases hnext
      obtain ⟨-, -, -, arpeggio, -, rfl⟩ := ChordBook.define_eq_ok hchords
      exact (Edit.defineChord reader _ arpeggio.code).edits

theorem setCredit_leads (credit : Credit) (arguments : List String) :
    Leads Edits (setCredit credit arguments) reader := by
  unfold setCredit
  dsimp only
  split
  · exact leads_bind (leads_throw _) fun _ _ h => nomatch h
  · apply leads_get_bind
    split
    · apply changeSong_leads
      intro song next h
      unfold creditSong at h
      split at h
      · obtain ⟨title, -, rfl⟩ := map_eq_ok h
        exact (Song.Stroke.credits song song.mute title song.author).strokes
      · obtain ⟨author, -, rfl⟩ := map_eq_ok h
        exact (Song.Stroke.credits song song.mute song.title author).strokes
      · cases h
    · next hsong =>
        apply leads_advance
        intro _ next hrun
        obtain ⟨album, -, hnext⟩ := map_eq_ok hrun
        cases hnext
        have hclosed : reader.scope.song = none := by simpa using hsong
        exact (Edit.creditAlbum hclosed).edits

theorem outside_leads (keyword allowed : String) :
    Leads Edits (outside keyword allowed) reader :=
  leads_get_bind (leads_throw _)

theorem opening_of_defineEffect
    {arguments : List String} {later : Reader}
    (h : defineEffect arguments reader = .ok () later) :
    ∃ name, arguments.head? = some name ∧ Opening name reader later := by
  have hrun := advance_eq_ok h
  split at hrun
  · obtain ⟨channel, -, hinsert⟩ := outcome_bind_eq_ok hrun
    obtain ⟨⟨index, sfx⟩, hsfx, hlater⟩ := outcome_bind_eq_ok hinsert
    obtain ⟨hnew, rfl, rfl⟩ := Registry.insert_eq_ok hsfx
    cases hlater
    exact ⟨_, rfl, .effect hnew⟩
  · cases hrun

theorem opening_of_defineInstrument
    {arguments : List String} {later : Reader}
    (h : defineInstrument arguments reader = .ok () later) :
    ∃ name, arguments.head? = some name ∧ Opening name reader later := by
  have hrun := advance_eq_ok h
  obtain ⟨name, hname, hinsert⟩ := outcome_bind_eq_ok hrun
  obtain ⟨⟨index, instruments⟩, hinstruments, hlater⟩ := outcome_bind_eq_ok hinsert
  obtain ⟨hnew, rfl, rfl⟩ := Registry.insert_eq_ok hinstruments
  cases hlater
  rw [Argument.eq_of_single hname]
  exact ⟨name, rfl, .instrument hnew⟩

theorem opening_of_definePattern
    {arguments : List String} {later : Reader}
    (h : definePattern arguments reader = .ok () later) :
    ∃ name, arguments.head? = some name ∧ Opening name reader later := by
  have hrun := advance_eq_ok h
  obtain ⟨⟨name, options⟩, hname, hinsert⟩ := outcome_bind_eq_ok hrun
  obtain ⟨⟨index, patterns⟩, hpatterns, hlater⟩ := outcome_bind_eq_ok hinsert
  obtain ⟨hnew, rfl, rfl⟩ := Registry.insert_eq_ok hpatterns
  cases hlater
  exact ⟨name, Argument.head?_of_named hname, .pattern hnew⟩

theorem defineDrum_leads (arguments : List String) :
    Leads Edits (defineDrum arguments) reader := by
  apply leads_advance
  intro _ next hrun
  obtain ⟨_, -, hdefine⟩ := outcome_bind_eq_ok hrun
  split at hdefine
  · cases hdefine
  · obtain ⟨drum, hdrum, hinsert⟩ := outcome_bind_eq_ok hdefine
    obtain ⟨⟨index, drums⟩, hdrums, hnext⟩ := outcome_bind_eq_ok hinsert
    obtain ⟨hnew, rfl, rfl⟩ := Registry.insert_eq_ok hdrums
    cases hnext
    unfold Drum.define at hdrum
    split at hdrum
    · cases hdrum
    · split at hdrum
      · cases hdrum
        exact (Edit.addDrum hnew).edits
      · cases hdrum

theorem setFallthrough_leads (object : Option OpenObject) (arguments : List String) :
    Leads Edits (setFallthrough object arguments) reader := by
  apply leads_decide_bind
  intro _ _
  split
  · exact onPattern_leads _ fun _ => leads_modify ⟨rfl, rfl⟩
  · exact leads_throw _

theorem setRate_leads (object : Option OpenObject) (arguments : List String) :
    Leads Edits (setRate object arguments) reader := by
  refine leads_decide_bind fun word _ => leads_decide_bind fun rate _ => leads_get_bind ?_
  split
  · exact changeEffect_leads fun _ _ h => .rate h
  · exact outside_leads _ _

theorem setDecay_leads (object : Option OpenObject) (arguments : List String) :
    Leads Edits (setDecay object arguments) reader := by
  refine leads_decide_bind fun word _ => leads_decide_bind fun rate _ => leads_get_bind ?_
  split
  · exact changeInstrument_leads fun _ _ h => .decay h
  · exact outside_leads _ _

theorem setDetached_leads (object : Option OpenObject) (arguments : List String) :
    Leads Edits (setDetached object arguments) reader := by
  apply leads_decide_bind
  intro _ _
  split
  · exact changeInstrument_leads fun _ _ h => .detached (Except.ok.inj h)
  · exact outside_leads _ _

theorem setEnvelope_leads
    {keyword : String} {object : Option OpenObject}
    {changeE : SoundEffect → Location → Except Fault SoundEffect}
    {changeI : Instrument → Location → Except Fault Instrument}
    (hE : ∀ effect place next, changeE effect place = .ok next → effect.Revision next)
    (hI : ∀ instrument place next,
      changeI instrument place = .ok next → instrument.Revision next) :
    Leads Edits (setEnvelope keyword object changeE changeI) reader := by
  apply leads_get_bind
  split
  · exact changeEffect_leads fun effect next h => hE effect _ next h
  · exact changeInstrument_leads fun instrument next h => hI instrument _ next h
  · exact outside_leads _ _

theorem setVolume_leads (object : Option OpenObject) (arguments : List String) :
    Leads Edits (setVolume object arguments) reader :=
  setEnvelope_leads (fun _ _ _ h => .volume h) (fun _ _ _ h => .volume h)

theorem setTimbre_leads (object : Option OpenObject) (arguments : List String) :
    Leads Edits (setTimbre object arguments) reader :=
  setEnvelope_leads (fun _ _ _ h => .timbre h) (fun _ _ _ h => .timbre h)

theorem setPitches_leads (object : Option OpenObject) (arguments : List String) :
    Leads Edits (setPitches object arguments) reader :=
  setEnvelope_leads (fun _ _ _ h => .pitch h) (fun _ _ _ h => .pitch h)

theorem defineSong_leads (arguments : List String) :
    Leads Edits (defineSong arguments) reader := by
  apply leads_advance
  intro _ next hrun
  obtain ⟨name, -, hdefine⟩ := outcome_bind_eq_ok hrun
  split at hdefine
  · cases hdefine
  · obtain ⟨⟨index, songs⟩, hsongs, hopen⟩ := outcome_bind_eq_ok hdefine
    obtain ⟨scope, hscope, hnext⟩ := outcome_bind_eq_ok hopen
    obtain ⟨hnew, rfl, rfl⟩ := Registry.insert_eq_ok hsongs
    cases hnext
    unfold Scope.openSong at hscope
    split at hscope
    · cases hscope
    · next hclosed =>
        cases hscope
        exact (Edit.addSong hclosed hnew).edits

theorem setSegno_leads (arguments : List String) :
    Leads Edits (setSegno arguments) reader := by
  refine leads_decide_bind fun _ _ => leads_get_bind ?_
  apply changeSong_leads
  exact fun song next h => Song.strokes_of_setSegno h

theorem addMark_leads (arguments : List String) :
    Leads Edits (addMark arguments) reader := by
  apply leads_decide_bind
  intro name _
  refine leads_bind (onSong_leads _ fun song => leads_advance ?_) fun _ _ _ => warn_leads _
  exact fun _ next h => Song.strokes_of_addMark h

theorem attackOn_leads (arguments : List String) :
    Leads Edits (attackOn arguments) reader := by
  unfold attackOn
  split
  · apply leads_decide_bind
    intro track _
    apply changeSong_leads
    exact fun song next h => Song.strokes_of_attackOn h
  · exact leads_throw _

theorem waitUntil_leads (word : String) : Leads Edits (waitUntil word) reader := by
  apply leads_decide_bind
  intro _ _
  exact onSong_leads _ fun _ => Song.waitUntil_leads _ _ _

theorem pickup_leads (arguments : List String) : Leads Edits (pickup arguments) reader := by
  refine leads_decide_bind fun word _ => leads_decide_bind fun _ _ => ?_
  apply changeSong_leads
  exact fun song next h => Song.strokes_of_pickup h

theorem setResume_leads (arguments : List String) :
    Leads Edits (setResume arguments) reader := by
  apply leads_decide_bind
  intro _ _
  refine leads_bind (onSong_leads _ fun song => ?_) fun point next _ => ?_
  · exact leads_get_bind (leads_decide_bind fun _ _ => leads_pure _)
  · apply leads_advance
    intro _ later h
    obtain ⟨resume, -, hlater⟩ := map_eq_ok h
    cases hlater
    exact (Edit.setResume next resume).edits

theorem setMute_leads (solo : Bool) (arguments : List String) :
    Leads Edits (setMute solo arguments) reader := by
  unfold setMute
  dsimp only
  split
  · exact leads_bind (leads_throw _) fun _ _ h => nomatch h
  · refine leads_decide_bind fun bits _ => leads_get_bind ?_
    apply changeSong_leads
    intro song next h
    obtain ⟨mute, -, rfl⟩ := map_eq_ok h
    exact (Song.Stroke.credits song mute song.title song.author).strokes

theorem setTempo_leads (arguments : List String) :
    Leads Edits (setTempo arguments) reader := by
  apply leads_decide_bind
  intro word _
  split
  · exact leads_throw _
  · apply changeSong_leads
    exact fun song next h => Song.strokes_of_setTempo h

theorem stop_leads (arguments : List String) : Leads Edits (stop arguments) reader := by
  unfold stop
  split
  · exact leads_bind (leads_throw _) fun _ _ h => nomatch h
  · apply leads_decide_bind
    intro tracks _
    apply changeSong_leads
    intro song next h
    cases h
    exact Song.strokes_stop tracks song

theorem strokes_of_playOn
    {name : String} {options : Argument.Options} {place : Location} {song next : Song}
    (h : playOn name options place song = .ok next) : song.Strokes next := by
  unfold playOn at h
  dsimp only at h
  split at h
  · cases h
  · cases h
    exact (Song.Stroke.cue song rfl).strokes
  · cases h
    exact (Song.Stroke.cue song rfl).strokes

theorem play_leads (arguments : List String) : Leads Edits (play arguments) reader := by
  apply leads_decide_bind
  rintro ⟨name, options⟩ _
  dsimp only
  split
  · exact leads_bind (leads_throw _) fun _ _ h => nomatch h
  · apply leads_get_bind
    exact changeSong_leads _ fun song next h => strokes_of_playOn h

theorem patternText_leads (words : List String) :
    Leads Edits (patternText words) reader := by
  apply leads_get_bind
  split
  · refine leads_bind (onPattern_leads _ fun _ => Pattern.addWords_leads _ _) ?_
    intro warnings next _
    exact warn_leads _
  · exact leads_modify (Edit.remark reader _).edits

/-- A song that ends is closed, so the ending fails as a whole or not at all. -/
theorem endSong_cases (keyword : String) (words : List String) (reader : Reader) :
    (∃ fault, endSong keyword words reader = .error fault reader) ∨
      ∃ index song done ending, reader.scope.song = some index ∧
        reader.score.songs.at? index = some song ∧ Song.finish song ending = .ok done ∧
        endSong keyword words reader =
          .ok () { reader.putSong index done with scope := .topLevel } := by
  unfold endSong
  cases hending : Ending.ofWords words with
  | error fault => exact .inl ⟨fault, rfl⟩
  | ok ending =>
      rcases changeSong_cases keyword (fun song => song.finish ending) reader with
        ⟨fault, hfails⟩ | ⟨index, song, done, hopen, hat, hfinish, hdone⟩
      · refine .inl ⟨fault, ?_⟩
        simp only [decide_bind_apply, bind_apply_of_error hfails]
      · have hclosed : (reader.putSong index done).scope.closeSong = .ok .topLevel := by
          simp only [Scope.closeSong, putSong, hopen]
        refine .inr ⟨index, song, done, ending, hopen, hat, hfinish, ?_⟩
        simp only [decide_bind_apply, bind_apply_of_ok hdone, Step.advance, hclosed, Except.map]

theorem endSong_leads (keyword : String) (words : List String) :
    Leads Turns (endSong keyword words) reader := by
  unfold Leads
  rcases endSong_cases keyword words reader with
    ⟨fault, hfails⟩ | ⟨index, song, done, ending, hopen, hat, hfinish, hends⟩
  · rw [hfails]
    exact .refl
  · rw [hends]
    exact .single (.endSong hopen hat hfinish)

/-- A statement that neither opens an object nor ends a song is a run of edits. -/
theorem perform_leads_edits
    {keyword : Keyword} (hending : keyword ≠ .ending) (hopens : keyword.opensObject = false)
    (word : String) (arguments : List String) (object : Option OpenObject) :
    Leads Edits (perform keyword word arguments object) reader := by
  cases keyword with
  | ending => exact absurd rfl hending
  | sfx | instrument | pattern => cases hopens
  | noteNames => exact setLanguage_leads _
  | durations => exact setDurations_leads _
  | octaveMarks => exact setSigns_leads _
  | rate => exact setRate_leads _ _
  | volume => exact setVolume_leads _ _
  | decay => exact setDecay_leads _ _
  | timbre => exact setTimbre_leads _ _
  | pitch => exact setPitches_leads _ _
  | detached => exact setDetached_leads _ _
  | drum => exact defineDrum_leads _
  | song => exact defineSong_leads _
  | segno => exact setSegno_leads _
  | mark => exact addMark_leads _
  | time => exact setTime_leads _
  | scale => exact setScale_leads _
  | attack => exact attackOn_leads _
  | fallthrough => exact setFallthrough_leads _ _
  | pickup => exact pickup_leads _
  | resume => exact setResume_leads _
  | mute => exact setMute_leads _ _
  | solo => exact setMute_leads _ _
  | tempo => exact setTempo_leads _
  | play => exact play_leads _
  | stop => exact stop_leads _
  | title => exact setCredit_leads _ _
  | author => exact setCredit_leads _ _
  | copyright => exact setCredit_leads _ _
  | position => exact leads_throw _
  | inclusion => exact leads_throw _

/-- A statement that opens an object takes its first argument for the name. -/
theorem opening_of_perform
    {keyword : Keyword} (hopens : keyword.opensObject) {word : String}
    {arguments : List String} {object : Option OpenObject} {later : Reader}
    (h : perform keyword word arguments object reader = .ok () later) :
    ∃ name, arguments.head? = some name ∧ Opening name reader later := by
  cases keyword with
  | sfx => exact opening_of_defineEffect h
  | instrument => exact opening_of_defineInstrument h
  | pattern => exact opening_of_definePattern h
  | _ => cases hopens

/-- A definition that fails changes nothing. -/
theorem eq_of_perform_definition
    {keyword : Keyword} (hdefines : keyword.defines) {word : String}
    {arguments : List String} {object : Option OpenObject} {fault : Fault} {later : Reader}
    (h : perform keyword word arguments object reader = .error fault later) :
    later = reader := by
  cases keyword with
  | sfx | instrument | drum | song | pattern =>
      dsimp only [perform] at h
      exact (advance_eq_error h).2
  | _ => cases hdefines

/-- Every statement but the ending of a song is a run of moves. -/
theorem perform_leads
    {keyword : Keyword} (hending : keyword ≠ .ending) (word : String) (arguments : List String)
    (object : Option OpenObject) :
    Leads Moves (perform keyword word arguments object) reader := by
  by_cases hopens : keyword.opensObject
  · unfold Leads
    cases hrun : perform keyword word arguments object reader with
    | ok _ later =>
        obtain ⟨name, -, hopening⟩ := opening_of_perform hopens hrun
        exact .single (.opening hopening)
    | error fault later =>
        rw [eq_of_perform_definition (Keyword.defines_of_opensObject hopens) hrun]
        exact .refl
  · have hquiet : keyword.opensObject = false := by simpa using hopens
    exact (perform_leads_edits hending hquiet word arguments object).moves

end Statements

/-! ## Sources -/

/-- The keyword of the command that a statement comes to behind its waits. -/
def commandKeyword? : List String → Option Keyword
  | [] => none
  | word :: arguments =>
    if isDefinition (word :: arguments) then none
    else
      match Keyword.ofWord? word, arguments with
      | some .position, _ :: command => commandKeyword? command
      | keyword?, _ => keyword?

/-- The file that a statement includes behind its waits. -/
def includedFile? : List String → Option String
  | [] => none
  | word :: arguments =>
    if isDefinition (word :: arguments) then none
    else
      match Keyword.ofWord? word, arguments with
      | some .position, _ :: command => includedFile? command
      | some .inclusion, file :: more => some (Text.unwords (file :: more))
      | _, _ => none

section Commands

variable {word : String} {arguments : List String} {keyword : Keyword}

/-- A statement that is no wait has its own keyword. -/
theorem commandKeyword?_of_not_wait
    (hdefinition : ¬ isDefinition (word :: arguments) = true)
    (hkeyword : Keyword.ofWord? word = some keyword)
    (hwait : ∀ target command, keyword = .position → arguments = target :: command → False) :
    commandKeyword? (word :: arguments) = some keyword := by
  unfold commandKeyword?
  rw [if_neg hdefinition, hkeyword]
  split
  · next heq => exact (hwait _ _ (Option.some.inj heq) rfl).elim
  · rfl

variable {argument : String}
  (hdefinition : ¬ isDefinition (word :: argument :: arguments) = true)
include hdefinition

theorem commandKeyword?_of_wait (hkeyword : Keyword.ofWord? word = some .position) :
    commandKeyword? (word :: argument :: arguments) = commandKeyword? arguments := by
  conv => lhs; unfold commandKeyword?
  rw [if_neg hdefinition, hkeyword]

theorem includedFile?_of_wait (hkeyword : Keyword.ofWord? word = some .position) :
    includedFile? (word :: argument :: arguments) = includedFile? arguments := by
  conv => lhs; unfold includedFile?
  rw [if_neg hdefinition, hkeyword]

theorem includedFile?_of_inclusion (hkeyword : Keyword.ofWord? word = some .inclusion) :
    includedFile? (word :: argument :: arguments) =
      some (Text.unwords (argument :: arguments)) := by
  unfold includedFile?
  rw [if_neg hdefinition, hkeyword]

end Commands

theorem edits_closeFor (keyword : Keyword) (reader : Reader) :
    Edits reader (closeFor keyword reader) := by
  unfold closeFor
  split
  · exact (Edit.closeObject reader).edits
  · exact .refl

section Sources

variable {rel : Reader → Reader → Prop} [IsPreorder Reader rel] {reader : Reader}

/-- A statement does what moves do, what its ending does and what its inclusion does. -/
theorem dispatch_leads
    {onInclude : String → Reading Unit} {words : List String}
    (hmoves : ∀ reader later, Moves reader later → rel reader later)
    (hending : commandKeyword? words = some .ending →
      ∀ word arguments reader, Leads rel (endSong word arguments) reader)
    (hinclude : ∀ file, includedFile? words = some file →
      ∀ reader, Leads rel (onInclude file) reader) :
    Leads rel (dispatch onInclude words) reader := by
  fun_induction dispatch onInclude words generalizing reader with
  | case1 => exact leads_pure _
  | case2 word arguments => exact leads_adaptExcept (hmoves _ _ (Edits.moves (define_leads _)))
  | case3 word arguments => exact leads_adaptExcept (hmoves _ _ (Edits.moves (patternText_leads _)))
  | case4 word arguments hdefinition keyword hkeyword ih =>
      apply leads_get_bind
      refine leads_bind (leads_modify (hmoves _ _ (edits_closeFor keyword reader).moves)) ?_
      rintro _ closed -
      split
      · next target command =>
          rw [commandKeyword?_of_wait hdefinition hkeyword] at hending
          rw [includedFile?_of_wait hdefinition hkeyword] at hinclude
          refine leads_bind (leads_adaptExcept (hmoves _ _ (Edits.moves (waitUntil_leads _)))) ?_
          intro _ next _
          exact ih hending hinclude
      · next file more => exact hinclude _ (includedFile?_of_inclusion hdefinition hkeyword) _
      · next hwait _ =>
          by_cases hend : keyword = .ending
          · subst hend
            apply leads_adaptExcept
            apply hending
            exact commandKeyword?_of_not_wait hdefinition hkeyword hwait
          · exact leads_adaptExcept (hmoves _ _ (perform_leads hend _ _ _))

omit [IsPreorder Reader rel] in
theorem leads_afterwards
    {α : Type} {step : Reading α} {change : Reader → Reader} (hstep : Leads rel step reader)
    (htrans : ∀ between, rel reader between → rel reader (change between)) :
    Leads rel (afterwards step change) reader := by
  unfold Leads afterwards
  unfold Leads at hstep
  cases hrun : step reader with
  | ok value next =>
      rw [hrun] at hstep
      exact htrans next hstep
  | error report next =>
      rw [hrun] at hstep
      exact htrans next hstep

end Sources

/-! ## Lines on their own -/

/-- Pass over the file that a line includes. -/
def includeNothing (_file : String) : Reading Unit := pure ()

/-- Include the file that a line names, if it names one. -/
def including (onInclude : String → Reading Unit) (words : List String) : Reading Unit :=
  match includedFile? words with
  | some file => onInclude file
  | none => pure ()

theorem includedFile?_of_command
    {word : String} {arguments : List String} {keyword : Keyword}
    (hdefinition : ¬isDefinition (word :: arguments) = true)
    (hkeyword : Keyword.ofWord? word = some keyword)
    (hwait : ∀ target command, keyword = .position → arguments = target :: command → False)
    (hfile : ∀ file more, keyword = .inclusion → arguments = file :: more → False) :
    includedFile? (word :: arguments) = none := by
  unfold includedFile?
  rw [if_neg hdefinition, hkeyword]
  split
  · next heq => exact (hwait _ _ (Option.some.inj heq) rfl).elim
  · next heq => exact (hfile _ _ (Option.some.inj heq) rfl).elim
  · rfl

section Keywords

variable {onInclude : String → Reading Unit} {word : String} {arguments : List String}

theorem dispatch_wait
    {target : String} (hdefinition : ¬isDefinition (word :: target :: arguments) = true)
    (hkeyword : Keyword.ofWord? word = some .position) (reader : Reader) :
    dispatch onInclude (word :: target :: arguments) reader =
      (do unlocated (waitUntil target); dispatch onInclude arguments)
        (closeFor .position reader) := by
  conv => lhs; unfold dispatch
  rw [if_neg hdefinition, hkeyword]
  rfl

theorem dispatch_file
    {file : String} (hdefinition : ¬isDefinition (word :: file :: arguments) = true)
    (hkeyword : Keyword.ofWord? word = some .inclusion) (reader : Reader) :
    dispatch onInclude (word :: file :: arguments) reader =
      onInclude (Text.unwords (file :: arguments)) (closeFor .inclusion reader) := by
  unfold dispatch
  rw [if_neg hdefinition, hkeyword]
  rfl

theorem dispatch_command
    {keyword : Keyword} (hdefinition : ¬isDefinition (word :: arguments) = true)
    (hkeyword : Keyword.ofWord? word = some keyword)
    (hwait : ∀ target command, keyword = .position → arguments = target :: command → False)
    (hfile : ∀ file more, keyword = .inclusion → arguments = file :: more → False)
    (reader : Reader) :
    dispatch onInclude (word :: arguments) reader =
      unlocated (perform keyword word arguments reader.scope.object)
        (closeFor keyword reader) := by
  unfold dispatch
  rw [if_neg hdefinition, hkeyword]
  dsimp only
  rw [get_bind_apply, modify_bind_apply]
  split
  · exact (hwait _ _ rfl rfl).elim
  · exact (hfile _ _ rfl rfl).elim
  · rfl

end Keywords

/-- A line includes its file last. -/
theorem dispatch_eq_including
    (onInclude : String → Reading Unit) (words : List String) :
    dispatch onInclude words =
      (do dispatch includeNothing words; including onInclude words) := by
  fun_induction dispatch onInclude words with
  | case1 => rfl
  | case2 word arguments hdefinition =>
      have hnone : includedFile? (word :: arguments) = none := by
        unfold includedFile?
        rw [if_pos hdefinition]
      have hline : dispatch includeNothing (word :: arguments) =
          unlocated (define (word :: arguments)) := by
        unfold dispatch
        rw [if_pos hdefinition]
      rw [hline, including, hnone]
      exact (bind_pure _).symm
  | case3 word arguments hdefinition hkeyword =>
      have hnone : includedFile? (word :: arguments) = none := by
        unfold includedFile?
        rw [if_neg hdefinition, hkeyword]
      have hline : dispatch includeNothing (word :: arguments) =
          unlocated (patternText (word :: arguments)) := by
        unfold dispatch
        rw [if_neg hdefinition, hkeyword]
      rw [hline, including, hnone]
      exact (bind_pure _).symm
  | case4 word arguments hdefinition keyword hkeyword ih =>
      funext reader
      rw [get_bind_apply, modify_bind_apply]
      split
      · next target command =>
          have hincluding : including onInclude (word :: target :: command) =
              including onInclude command := by
            unfold including
            rw [includedFile?_of_wait hdefinition hkeyword]
          rw [hincluding, bind_apply_congr (dispatch_wait hdefinition hkeyword reader),
            bind_assoc, ih]
      · next file more =>
          have hincluding : including onInclude (word :: file :: more) =
              onInclude (Text.unwords (file :: more)) := by
            unfold including
            rw [includedFile?_of_inclusion hdefinition hkeyword]
          rw [hincluding, bind_apply_congr (dispatch_file hdefinition hkeyword reader)]
          rfl
      · next hwait hfile =>
          rw [including, includedFile?_of_command hdefinition hkeyword hwait hfile, bind_pure,
            dispatch_command hdefinition hkeyword hwait hfile]

theorem line_leads_turns (words : List String) (reader : Reader) :
    Leads Turns (dispatch includeNothing words) reader := by
  apply dispatch_leads
  · exact fun _ _ hmoves => hmoves.turns
  · exact fun _ word arguments _ => endSong_leads word arguments
  · exact fun _ _ _ => leads_pure _

/-! ## Sources -/

section Reading

variable {reader : Reader}

/-- A statement that includes nothing stays at its place. -/
theorem dispatch_leads_turns
    {onInclude : String → Reading Unit} {words : List String}
    (hwords : includedFile? words = none) :
    Leads Turns (dispatch onInclude words) reader := by
  apply dispatch_leads
  · exact fun _ _ h => h.turns
  · exact fun _ word arguments _ => endSong_leads word arguments
  · intro file hfile
    rw [hwords] at hfile
    cases hfile

theorem statements_leads
    {onInclude : String → Reading Unit}
    (hinclude : ∀ file reader, Leads Travels (onInclude file) reader)
    (list : List Statement) : Leads Travels (statements onInclude list) reader := by
  induction list generalizing reader with
  | nil => exact leads_pure _
  | cons statement rest ih =>
      refine leads_bind (leads_modify ?_) fun _ next _ => leads_get_bind ?_
      · exact .single (.goTo reader statement.place reader.inclusions reader.directories)
      · refine leads_bind (leads_adaptExcept ?_) fun _ _ _ => ih
        apply dispatch_leads
        · exact fun _ _ h => h.turns.travels
        · exact fun _ word arguments _ => (endSong_leads word arguments).travels
        · exact fun file _ => hinclude file

theorem travels_enter (source : Source) (reader : Reader) :
    Travels reader (enter source reader) := by
  unfold enter
  split
  · exact .single (.goTo reader reader.here reader.inclusions _)
  · exact .refl

theorem travels_leave (source : Source) (reader : Reader) :
    Travels reader (leave source reader) := by
  unfold leave
  split
  · exact .single (.goTo reader reader.here reader.inclusions _)
  · exact .refl

theorem readStatements_leads
    {onInclude : String → Reading Unit}
    (hinclude : ∀ file reader, Leads Travels (onInclude file) reader) (source : Source) :
    Leads Travels (readStatements onInclude source) reader := by
  refine leads_bind (leads_modify (travels_enter source reader)) fun _ next _ => ?_
  apply leads_afterwards (statements_leads hinclude _)
  intro between h
  exact h.trans (travels_leave source between)

theorem includeFile_leads
    {files : SourceFiles} {read : Source → Reading Unit}
    (hread : ∀ source reader, Leads Travels (read source) reader) (file : String) :
    Leads Travels (includeFile files read file) reader := by
  apply leads_get_bind
  refine leads_bind (leads_adaptExcept (leads_decide _)) fun source next _ => ?_
  refine leads_bind (leads_modify ?_) fun _ entered _ => ?_
  · exact .single (.goTo next next.here _ next.directories)
  · apply leads_afterwards (hread source entered)
    intro between h
    exact h.tail (.goTo between _ _ between.directories)

theorem readNested_leads
    (files : SourceFiles) (depth : Nat) (source : Source) :
    Leads Travels (readNested files depth source) reader := by
  induction depth generalizing source reader with
  | zero => exact readStatements_leads (fun _ _ => leads_get_bind (leads_throw _)) source
  | succ depth ih =>
      exact readStatements_leads (fun file _ => includeFile_leads (fun _ _ => ih _) file) source

/-- Reading a source is a run of turns from place to place. -/
theorem readSource_leads (files : SourceFiles) (source : Source) :
    Leads Travels (readSource files source) reader :=
  leads_get_bind (readNested_leads files _ source)

/-- The reader after sources, each of which is read to its end or to its first fault. Each
comes with the files that it may include. -/
def feed (sources : List (SourceFiles × Source)) (reader : Reader) : Reader :=
  sources.foldl (fun reader source => left (readSource source.1 source.2 reader)) reader

end Reading

end Reader

end Chiptune
