import Chiptune.Proofs.Song.Building
import Mathlib.Logic.Relation

/-!
# Strokes of the conductor

Whatever an operation does to a song, by success or by failure, is a run of a few
kinds of strokes. Each kind says which events it adds and on what condition, so that
what every stroke keeps is kept by every operation. Only the ending of a song is no
stroke.
-/

namespace Chiptune

open Step

namespace ConductorEvent

/-- Whether an event starts or stops sound. -/
def isCue : ConductorEvent → Bool
  | play .. | noteOn .. | stop _ | attackOn _ => true
  | setTempo _ | setBeat _ | waitRows _ | segno | fine | dalSegno => false

/-- Whether an event ends the song. -/
def isEnding : ConductorEvent → Bool
  | fine | dalSegno => true
  | _ => false

end ConductorEvent

namespace Song

/-- One elementary change of a song that does not end it. -/
inductive Stroke : Song → Song → Prop where
  | cue (song : Song) {event : ConductorEvent} (hcue : event.isCue) :
      Stroke song (song.push event)
  | tempo {song : Song} {rowsPerMinute : Nat}
      (hnew : song.engineTempo ≠ some rowsPerMinute) :
      Stroke song
        { song.push (.setTempo rowsPerMinute) with engineTempo := some rowsPerMinute }
  | beat {song : Song} {beatRows : Nat} {length : NoteLength}
      (hnew : song.engineBeat ≠ some beatRows)
      (hlength : NoteLength.ofRows? beatRows = some length) :
      Stroke song { song.push (.setBeat length) with engineBeat := some beatRows }
  | wait {song : Song} {rows : Nat} (hrows : rows ≠ 0) (htempo : song.engineTempo.isSome)
      (hbeat : song.engineBeat.isSome) : Stroke song (song.pushWaits rows)
  | segno {song : Song} (place : Location) (hunset : song.segno.given = none) :
      Stroke song ({ song with segno := ⟨some (song.rows, place)⟩ }.push .segno)
  | mark {song : Song} {name : String} (hnew : ∀ mark ∈ song.marks, mark.name ≠ name) :
      Stroke song { song with marks := song.marks ++ [⟨name, song.rows⟩] }
  | settings {song : Song} (tempo : Float) (meter : Meter) {pitch : PitchState}
      (hlineage : pitch.lineage = song.pitch.lineage) :
      Stroke song { song with tempo := tempo, meter := meter, pitch := pitch }
  | credits (song : Song) (mute : Field Nat) (title author : Field String) :
      Stroke song { song with mute := mute, title := title, author := author }

/-- A run of strokes. -/
abbrev Strokes : Song → Song → Prop := Relation.ReflTransGen Stroke

theorem Stroke.strokes {song later : Song} (h : Stroke song later) : Strokes song later :=
  .single h

theorem Stroke.name {song later : Song} (h : Stroke song later) : later.name = song.name := by
  cases h with
  | wait => rw [pushWaits_eq]
  | cue | tempo | beat | segno | mark | settings | credits => rfl

theorem Stroke.lineage {song later : Song} (h : Stroke song later) :
    later.pitch.lineage = song.pitch.lineage := by
  cases h with
  | wait => rw [pushWaits_eq]
  | settings tempo meter hlineage => exact hlineage
  | cue | tempo | beat | segno | mark | credits => rfl

/-- A song keeps its name. -/
theorem Strokes.name {song later : Song} (h : Strokes song later) :
    later.name = song.name := by
  induction h with
  | refl => rfl
  | tail _ hstroke ih => exact hstroke.name.trans ih

/-- A song sees the same layers of chord names. -/
theorem Strokes.lineage {song later : Song} (h : Strokes song later) :
    later.pitch.lineage = song.pitch.lineage := by
  induction h with
  | refl => rfl
  | tail _ hstroke ih => exact hstroke.lineage.trans ih

/-! ## Operations -/

section Operations

variable {song next : Song}

theorem strokes_of_setTempo {tempo : Float} (h : song.setTempo tempo = .ok next) :
    Strokes song next := by
  unfold setTempo at h
  split at h
  · cases h
    exact (Stroke.settings tempo song.meter rfl).strokes
  · cases h

theorem strokes_sendTempo (rowsPerMinute : Nat) (song : Song) :
    Strokes song (song.sendTempo rowsPerMinute) := by
  by_cases hsent : song.engineTempo = some rowsPerMinute
  · rw [sendTempo, if_pos hsent]
  · rw [sendTempo, if_neg hsent]
    exact (Stroke.tempo hsent).strokes

theorem strokes_of_sendBeat {beatRows : Nat} (h : song.sendBeat beatRows = .ok next) :
    Strokes song next := by
  by_cases hsent : song.engineBeat = some beatRows
  · rw [sendBeat, if_pos hsent] at h
    cases h
    exact .refl
  · rw [sendBeat, if_neg hsent] at h
    split at h
    · next hlength =>
        cases h
        exact (Stroke.beat hsent hlength).strokes
    · cases h

/-- A wait sends what is new before it. It may fail between the tempo and the beat, and
then the tempo stays sent. -/
theorem waitRows_leads (rows : Nat) : Leads Strokes (waitRows rows) song := by
  by_cases hrows : rows = 0
  · rw [waitRows, if_pos hrows]
    exact leads_pure _
  · rw [waitRows, if_neg hrows]
    apply leads_get_bind
    apply leads_decide_bind
    intro beatRows _
    apply leads_get_bind
    dsimp only
    split
    · refine leads_bind (leads_throw _) ?_
      intro _ _ hthrow
      cases hthrow
    · refine leads_bind (leads_modify (strokes_sendTempo _ _)) ?_
      intro _ told htold
      cases htold
      obtain ⟨-, htempo, -⟩ := sendTempo_spec (rowTempo song.tempo beatRows) song
      refine leads_bind (leads_advance ?_) ?_
      · intro _ sent hsent
        obtain ⟨_, hbeat, hpair⟩ := map_eq_ok hsent
        cases hpair
        exact strokes_of_sendBeat hbeat
      · intro _ sent hsent
        have hadvance := advance_eq_ok hsent
        obtain ⟨_, hbeat, hpair⟩ := map_eq_ok hadvance
        cases hpair
        obtain ⟨_, -, -, hsame, hset⟩ := sendBeat_eq_ok hbeat
        have htold : sent.engineTempo.isSome := by rw [hsame, htempo]; rfl
        have hknown : sent.engineBeat.isSome := by rw [hset]; rfl
        exact leads_modify (Stroke.wait hrows htold hknown).strokes

theorem waitUntil_leads (measure : Int) (beat row : Nat) :
    Leads Strokes (waitUntil measure beat row) song := by
  apply leads_get_bind
  apply leads_decide_bind
  intro target _
  refine leads_bind (leads_advance ?_) fun rows next _ => waitRows_leads rows
  intro _ next h
  obtain ⟨⟨rows, meter⟩, -, hnext⟩ := map_eq_ok h
  cases hnext
  exact (Stroke.settings song.tempo meter rfl).strokes

theorem strokes_of_pickup
    {measure : Int} {beat row : Nat} (h : song.pickup measure beat row = .ok next) :
    Strokes song next := by
  obtain ⟨position, -, rfl⟩ := map_eq_ok h
  exact (Stroke.settings song.tempo { song.meter with position := position } rfl).strokes

theorem strokes_of_setSegno {place : Location} (h : song.setSegno place = .ok next) :
    Strokes song next := by
  obtain ⟨segno, hset, rfl⟩ := map_eq_ok h
  unfold Field.set at hset
  split at hset
  · cases hset
  · next hunset =>
      cases hset
      exact (Stroke.segno place hunset).strokes

theorem strokes_of_attackOn {track : Track} (h : song.attackOn track = .ok next) :
    Strokes song next := by
  cases track with
  | pulse1 | pulse2 | triangle =>
      cases h
      exact (Stroke.cue song rfl).strokes
  | drum | attack => cases h

theorem strokes_stop (tracks : List Track) (song : Song) : Strokes song (song.stop tracks) := by
  induction tracks generalizing song with
  | nil => rw [Song.stop, List.map_nil, pushAll_nil]
  | cons track tracks ih =>
      rw [Song.stop, List.map_cons, pushAll_cons]
      exact .head (.cue song rfl) (ih (song.push (.stop track)))

theorem strokes_of_addMark
    {name : String} {warnings : List String} (h : song.addMark name = .ok (warnings, next)) :
    Strokes song next := by
  unfold addMark at h
  split at h
  · cases h
  · next hnone =>
      cases h
      have hnew : ∀ mark ∈ song.marks, mark.name ≠ name := by simpa using hnone
      exact (Stroke.mark hnew).strokes

/-- A song that ends gets one more event. -/
theorem exists_push_of_finish {ending : Ending} (h : song.finish ending = .ok next) :
    ∃ event : ConductorEvent, event.isEnding ∧ next = song.push event := by
  unfold finish at h
  split at h <;> cases h <;> exact ⟨_, rfl, rfl⟩

end Operations

end Song

end Chiptune
