import Chiptune.Proofs.Frame.Pattern
import Chiptune.Proofs.Frame.Song
import Chiptune.Proofs.Reader.Order

/-!
# Readers that fit a frame

A reader that fits a frame holds what another reader holds, behind what was there
before. The two find the same entities, add and change them alike, and give the same
warnings.
-/

namespace Chiptune

open Step

/-! ## Registries -/

namespace Registry

variable {α : Type}

/-- Images of entities behind the entities of another registry. -/
def behind (before : Registry α) (image : α → α) (own : Registry α) : Registry α :=
  ⟨before.entries ++ own.entries.map image⟩

variable (before own : Registry α) (image : α → α)

theorem at?_behind (index : Nat) :
    (behind before image own).at? (before.size + index) = (own.at? index).map image := by
  simp [behind, at?, size, List.getElem?_append_right]

theorem put_behind (index : Nat) (entity : α) :
    (behind before image own).put (before.size + index) (image entity) =
      behind before image (own.put index entity) := by
  simp [behind, put, size, List.set_append_right, List.map_set]

variable [Entity α]

theorem get?_map {image : α → α}
    (hname : ∀ entity, Entity.name (image entity) = Entity.name entity)
    (registry : Registry α) (name : String) :
    (⟨registry.entries.map image⟩ : Registry α).get? name = (registry.get? name).map image := by
  have hsame : (fun entity : α => Entity.name entity == name) ∘ image =
      fun entity => Entity.name entity == name := by
    funext entity
    rw [Function.comp_apply, hname]
  rw [get?, get?, List.find?_map, hsame]

theorem get?_behind (hname : ∀ entity, Entity.name (image entity) = Entity.name entity)
    (name : String) :
    (behind before image own).get? name = (before.get? name).or ((own.get? name).map image) := by
  rw [← get?_map hname, get?, behind, List.find?_append]
  rfl

/-- An entity is added behind what was there before, unless its name is taken there. -/
theorem insert_behind
    {lax : Prop} (hname : ∀ entity, Entity.name (image entity) = Entity.name entity)
    (kind : String) (entity : α)
    (hlax : (before.get? (Entity.name entity)).isSome → lax) :
    Agree lax
      (fun result result' =>
        result.1 = before.size + result'.1 ∧ result.2 = behind before image result'.2)
      ((behind before image own).insert kind (image entity)) (own.insert kind entity) := by
  unfold insert
  rw [hname, get?_behind before own image hname]
  cases hbefore : before.get? (Entity.name entity) with
  | some previous => exact .blocked (hlax (by simp [hbefore]))
  | none =>
      rw [Option.none_or]
      cases own.get? (Entity.name entity) with
      | some previous => exact .fault rfl
      | none =>
          refine .ok ⟨?_, ?_⟩
          · simp [size, behind]
          · simp [behind]

end Registry

namespace Frame

variable (frame : Frame)

/-- What is said about the album, in the frame. -/
def album (album : AlbumNotes) : AlbumNotes :=
  ⟨frame.field album.title, frame.field album.author, frame.field album.copyright⟩

/-- The resume point, in the frame. -/
def resume (resume : Field ResumePoint) : Field ResumePoint :=
  if frame.before.resume.isSet then frame.before.resume else frame.field resume

/-- A score in the frame. -/
def score (score : Score) : Score :=
  { sfx := .behind frame.before.sfx frame.effect score.sfx
    instruments := .behind frame.before.instruments frame.instrument score.instruments
    drums := .behind frame.before.drums frame.drum score.drums
    patterns := .behind frame.before.patterns frame.pattern score.patterns
    songs := .behind frame.before.songs frame.song score.songs
    album := frame.album score.album
    resume := frame.resume score.resume }

/-- The number of the open object in the frame. -/
def object : OpenObject → OpenObject
  | .sfx index => .sfx (frame.before.sfx.size + index)
  | .instrument index => .instrument (frame.before.instruments.size + index)
  | .pattern index => .pattern (frame.before.patterns.size + index)

/-- A scope in the frame. -/
def scope (scope : Scope) : Scope :=
  ⟨scope.song.map (frame.before.songs.size + ·), scope.object.map frame.object⟩

/-- Warnings at the places that they have in the frame. -/
def diagnostics (diagnostics : Diagnostics) : Diagnostics :=
  { diagnostics with
    warnings := diagnostics.warnings.map fun warning =>
      { warning with place := warning.place.map frame.place } }

/-- The reader is the other one in the frame. -/
structure Fits (reader own : Reader) : Prop where
  score : reader.score = frame.score own.score
  scope : reader.scope = frame.scope own.scope
  pitch : reader.pitch = frame.pitch own.pitch
  meter : reader.meter = own.meter
  chords : reader.chords = frame.book own.chords
  here : reader.here = frame.place own.here
  layers : own.chords.layers ≠ []
  resume : frame.before.resume.isSet = true → own.score.resume.isSet = false
  diagnostics : ¬ frame.lax → reader.diagnostics = frame.diagnostics own.diagnostics

/-- A statement at its place in the frame. -/
def statement (statement : Statement) : Statement :=
  { statement with place := frame.place statement.place }

/-- The values are the same, and the first reader is the second one in the frame. -/
def Follows {α : Type} (value value' : α) (reader own : Reader) : Prop :=
  value = value' ∧ frame.Fits reader own

end Frame

namespace Frame.Fits

variable {frame : Frame} {reader own : Reader} (h : frame.Fits reader own)
include h

/-! ## What readers look up -/

theorem songs_at? (index : Nat) :
    reader.score.songs.at? (frame.before.songs.size + index) =
      (own.score.songs.at? index).map frame.song := by
  rw [h.score]
  exact Registry.at?_behind _ _ _ _

theorem openSong? : reader.openSong? = own.openSong?.map frame.song := by
  unfold Reader.openSong?
  rw [h.scope]
  cases hsong : own.scope.song with
  | none => simp [Frame.scope, hsong]
  | some index => simp [Frame.scope, hsong, h.songs_at?]

theorem qualified (name : String) : reader.qualified name = own.qualified name := by
  unfold Reader.qualified Reader.songName?
  rw [h.openSong?]
  cases own.openSong? <;> rfl

theorem parentPitch : reader.parentPitch = frame.pitch own.parentPitch := by
  unfold Reader.parentPitch
  rw [h.openSong?, h.pitch]
  cases own.openSong? <;> rfl

theorem parentMeter : reader.parentMeter = own.parentMeter := by
  unfold Reader.parentMeter
  rw [h.openSong?, h.meter]
  cases own.openSong? <;> rfl

theorem numberedSong? :
    reader.numberedSong? =
      own.numberedSong?.map (Prod.map (frame.before.songs.size + ·) frame.song) := by
  unfold Reader.numberedSong?
  rw [h.scope]
  cases hsong : own.scope.song with
  | none => simp [Frame.scope, hsong]
  | some index =>
      simp [Frame.scope, hsong, h.songs_at?, Option.map_map, Function.comp_def]

theorem openPattern? :
    reader.openPattern? =
      own.openPattern?.map (Prod.map (frame.before.patterns.size + ·) frame.pattern) := by
  unfold Reader.openPattern?
  rw [h.scope]
  cases hobject : own.scope.object with
  | none => simp [Frame.scope, hobject]
  | some object =>
      cases object with
      | pattern index =>
          have hat : reader.score.patterns.at? (frame.before.patterns.size + index) =
              (own.score.patterns.at? index).map frame.pattern := by
            rw [h.score]
            exact Registry.at?_behind _ _ _ _
          simp [Frame.scope, Frame.object, hobject, hat, Option.map_map, Function.comp_def]
      | sfx index => simp [Frame.scope, Frame.object, hobject]
      | instrument index => simp [Frame.scope, Frame.object, hobject]

theorem describe : reader.scope.describe = own.scope.describe := by
  rw [h.scope]
  rcases own.scope with ⟨_ | song, _ | object⟩
  · rfl
  · cases object <;> rfl
  · rfl
  · cases object <;> rfl

theorem pitchSettings : reader.pitchSettings = frame.pitch own.pitchSettings := by
  unfold Reader.pitchSettings
  rw [h.openPattern?, h.numberedSong?, h.pitch]
  cases own.openPattern? with
  | some found => rfl
  | none => cases own.numberedSong? <;> rfl

theorem meterSettings : reader.meterSettings = own.meterSettings := by
  unfold Reader.meterSettings
  rw [h.openPattern?, h.numberedSong?, h.meter]
  cases own.openPattern? with
  | some found => rfl
  | none => cases own.numberedSong? <;> rfl

/-! ## What readers put -/

theorem putSong (index : Nat) (song : Song) :
    frame.Fits (reader.putSong (frame.before.songs.size + index) (frame.song song))
      (own.putSong index song) := by
  refine { h with score := ?_ }
  simp [Reader.putSong, h.score, Frame.score, Registry.put_behind]

theorem putPattern (index : Nat) (pattern : Pattern) :
    frame.Fits
      (reader.putPattern (frame.before.patterns.size + index) (frame.pattern pattern))
      (own.putPattern index pattern) := by
  refine { h with score := ?_ }
  simp [Reader.putPattern, h.score, Frame.score, Registry.put_behind]

theorem putInstrument (index : Nat) (instrument : Instrument) :
    frame.Fits
      (reader.putInstrument (frame.before.instruments.size + index)
        (frame.instrument instrument))
      (own.putInstrument index instrument) := by
  refine { h with score := ?_ }
  simp [Reader.putInstrument, h.score, Frame.score, Registry.put_behind]

theorem putEffect (index : Nat) (effect : SoundEffect) :
    frame.Fits (reader.putEffect (frame.before.sfx.size + index) (frame.effect effect))
      (own.putEffect index effect) := by
  refine { h with score := ?_ }
  simp [Reader.putEffect, h.score, Frame.score, Registry.put_behind]

theorem putPitch (pitch : PitchState) :
    frame.Fits (reader.putPitch (frame.pitch pitch)) (own.putPitch pitch) := by
  unfold Reader.putPitch
  rw [h.openPattern?, h.numberedSong?]
  cases own.openPattern? with
  | some found => exact h.putPattern found.1 { found.2 with pitch := pitch }
  | none =>
      cases own.numberedSong? with
      | some found => exact h.putSong found.1 { found.2 with pitch := pitch }
      | none => exact { h with pitch := rfl }

theorem putMeter (meter : Meter) :
    frame.Fits (reader.putMeter meter) (own.putMeter meter) := by
  unfold Reader.putMeter
  rw [h.openPattern?, h.numberedSong?]
  cases own.openPattern? with
  | some found => exact h.putPattern found.1 { found.2 with meter := meter }
  | none =>
      cases own.numberedSong? with
      | some found => exact h.putSong found.1 { found.2 with meter := meter }
      | none => exact { h with meter := rfl }

/-! ## Changes of parts -/

theorem onSong
    {α : Type} {step step' : Step Song α} (keyword : String)
    (hstep : ∀ song,
      Lockstep frame.lax step step' (frame.song song) song (Mirrored frame.song)) :
    Lockstep frame.lax (Reader.onSong keyword step) (Reader.onSong keyword step') reader own
      frame.Follows := by
  apply lockstep_get_bind
  rw [h.scope]
  cases hsong : own.scope.song with
  | none =>
      simp only [Frame.scope, hsong]
      exact lockstep_throw rfl
  | some index =>
      simp only [Frame.scope, hsong, Option.map_some, h.songs_at?]
      cases own.score.songs.at? index with
      | none => exact lockstep_throw rfl
      | some song =>
          refine lockstep_on (Mirrored frame.song) (hstep song) ?_
          rintro value _ _ next ⟨rfl, rfl⟩
          exact ⟨rfl, h.putSong index next⟩

theorem changeSong
    {change change' : Song → Except Fault Song} (keyword : String)
    (hchange : ∀ song,
      Agree frame.lax (· = frame.song ·) (change (frame.song song)) (change' song)) :
    Lockstep frame.lax (Reader.changeSong keyword change) (Reader.changeSong keyword change')
      reader own frame.Follows := by
  apply h.onSong
  intro song
  apply lockstep_advance
  apply (hchange song).map
  rintro _ next rfl
  exact ⟨rfl, rfl⟩

theorem onPattern
    {α : Type} {step step' : Step Pattern α} (index : Nat)
    (hstep : ∀ pattern,
      Lockstep frame.lax step step' (frame.pattern pattern) pattern (Mirrored frame.pattern)) :
    Lockstep frame.lax (Reader.onPattern (frame.before.patterns.size + index) step)
      (Reader.onPattern index step') reader own frame.Follows := by
  have hat : reader.score.patterns.at? (frame.before.patterns.size + index) =
      (own.score.patterns.at? index).map frame.pattern := by
    rw [h.score]
    exact Registry.at?_behind _ _ _ _
  apply lockstep_get_bind
  rw [hat]
  cases own.score.patterns.at? index with
  | none => exact lockstep_throw rfl
  | some pattern =>
      refine lockstep_on (Mirrored frame.pattern) (hstep pattern) ?_
      rintro value _ _ next ⟨rfl, rfl⟩
      exact ⟨rfl, h.putPattern index next⟩

theorem changeInstrument
    {change change' : Instrument → Except Fault Instrument} (index : Nat)
    (hchange : ∀ instrument, Agree frame.lax (· = frame.instrument ·)
      (change (frame.instrument instrument)) (change' instrument)) :
    Lockstep frame.lax
      (Reader.changeInstrument (frame.before.instruments.size + index) change)
      (Reader.changeInstrument index change') reader own frame.Follows := by
  have hat : reader.score.instruments.at? (frame.before.instruments.size + index) =
      (own.score.instruments.at? index).map frame.instrument := by
    rw [h.score]
    exact Registry.at?_behind _ _ _ _
  apply lockstep_advance
  rw [hat]
  cases own.score.instruments.at? index with
  | none => exact .fault rfl
  | some instrument =>
      apply (hchange instrument).map
      rintro _ next rfl
      exact ⟨rfl, h.putInstrument index next⟩

theorem changeEffect
    {change change' : SoundEffect → Except Fault SoundEffect} (index : Nat)
    (hchange : ∀ effect, Agree frame.lax (· = frame.effect ·)
      (change (frame.effect effect)) (change' effect)) :
    Lockstep frame.lax (Reader.changeEffect (frame.before.sfx.size + index) change)
      (Reader.changeEffect index change') reader own frame.Follows := by
  have hat : reader.score.sfx.at? (frame.before.sfx.size + index) =
      (own.score.sfx.at? index).map frame.effect := by
    rw [h.score]
    exact Registry.at?_behind _ _ _ _
  apply lockstep_advance
  rw [hat]
  cases own.score.sfx.at? index with
  | none => exact .fault rfl
  | some effect =>
      apply (hchange effect).map
      rintro _ next rfl
      exact ⟨rfl, h.putEffect index next⟩

theorem changePitch
    {change : PitchState → Except Fault PitchState}
    (hchange : ∀ pitch, change (frame.pitch pitch) = (change pitch).map frame.pitch) :
    Lockstep frame.lax (Reader.changePitch change) (Reader.changePitch change) reader own
      frame.Follows := by
  apply lockstep_advance
  rw [h.pitchSettings, hchange]
  cases change own.pitchSettings with
  | ok pitch => exact .ok ⟨rfl, h.putPitch pitch⟩
  | error fault => exact .fault rfl

theorem changeMeter (change : Meter → Except Fault Meter) :
    Lockstep frame.lax (Reader.changeMeter change) (Reader.changeMeter change) reader own
      frame.Follows := by
  apply lockstep_advance
  rw [h.meterSettings]
  cases change own.meterSettings with
  | ok meter => exact .ok ⟨rfl, h.putMeter meter⟩
  | error fault => exact .fault rfl

theorem diagnostics_warnAll (messages : List String) :
    ¬ frame.lax → reader.diagnostics.warnAll reader.here messages =
      frame.diagnostics (own.diagnostics.warnAll own.here messages) := by
  intro hwhole
  rw [h.diagnostics hwhole, h.here]
  generalize own.diagnostics = diagnostics
  unfold Diagnostics.warnAll
  induction messages generalizing diagnostics with
  | nil => rfl
  | cons message messages ih =>
      rw [List.foldl_cons, List.foldl_cons, ← ih]
      congr 1
      simp [Diagnostics.warn, Frame.diagnostics]

theorem warn (messages : List String) :
    Lockstep frame.lax (Reader.warn messages) (Reader.warn messages) reader own
      frame.Follows :=
  lockstep_modify ⟨rfl, { h with diagnostics := h.diagnostics_warnAll messages }⟩

end Frame.Fits

end Chiptune
