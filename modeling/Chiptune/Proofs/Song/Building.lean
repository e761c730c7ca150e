import Chiptune.Proofs.Step
import Chiptune.Song.Conducting
import Mathlib.Algebra.GroupWithZero.Nat

/-!
# Songs that are built by operations

A song is built from a blank one by operations that succeed, with changes of its
settings in between. Beside the song stands, for each of its events, the pace that the
song had when the event was added.
-/

namespace Chiptune

/-- The rows a minute and the note length of a beat at which rows pass. -/
structure Pace where
  tempo : Nat
  beat : NoteLength
deriving DecidableEq, Repr

open Step

namespace Song

/-- The pace of a song, if its beat is a note length of the engine. -/
def pace? (song : Song) : Option Pace :=
  match song.meter.beatRows with
  | .ok rows =>
    (NoteLength.ofRows? rows).map fun beat => ⟨rowTempo song.tempo rows, beat⟩
  | .error _ => none

/-- One operation on a song that succeeds. Pitch settings and meter may be changed
freely, as may what is said about the song. -/
inductive Change : Song → Song → Prop where
  | setTempo {song next : Song} {tempo : Float} (h : song.setTempo tempo = .ok next) :
      Change song next
  | waitRows {song next : Song} {rows : Nat} (h : Song.waitRows rows song = .ok () next) :
      Change song next
  | waitUntil {song next : Song} {measure : Int} {beat row : Nat}
      (h : Song.waitUntil measure beat row song = .ok () next) : Change song next
  | pickup {song next : Song} {measure : Int} {beat row : Nat}
      (h : song.pickup measure beat row = .ok next) : Change song next
  | setSegno {song next : Song} {place : Location} (h : song.setSegno place = .ok next) :
      Change song next
  | attackOn {song next : Song} {track : Track} (h : song.attackOn track = .ok next) :
      Change song next
  | play (song : Song) (pattern : String) (track : Option Track) (instrument : Option String)
      (transpose : Int) (place : Location) :
      Change song (song.push (.play pattern track instrument transpose place))
  | noteOn (song : Song) (track : Track) (pitch : Int) (instrument : String)
      (place : Location) : Change song (song.push (.noteOn track pitch instrument place))
  | stop (song : Song) (tracks : List Track) : Change song (song.stop tracks)
  | addMark {song next : Song} {name : String} {warnings : List String}
      (h : song.addMark name = .ok (warnings, next)) : Change song next
  | settings (song : Song) (pitch : PitchState) (meter : Meter) :
      Change song { song with pitch := pitch, meter := meter }
  | credits (song : Song) (mute : Field Nat) (title author : Field String) :
      Change song { song with mute := mute, title := title, author := author }

/-- The songs that operations make of blank ones, with the pace that the song had when
each event was added. -/
inductive Built : Song → List (Option Pace) → Prop where
  | blank (name : String) (place : Location) (pitch : PitchState) (meter : Meter) :
      Built (Song.blank name place pitch meter) []
  | change {song next : Song} {asked : List (Option Pace)} (h : Built song asked)
      (hchange : Change song next) :
      Built next
        (asked ++ List.replicate (next.events.length - song.events.length) song.pace?)

/-! ## What waiting adds -/

@[simp] theorem pushAll_nil (song : Song) : song.pushAll [] = song := by
  simp [pushAll]

theorem pushAll_cons (song : Song) (event : ConductorEvent) (events : List ConductorEvent) :
    song.pushAll (event :: events) = (song.push event).pushAll events := by
  simp [pushAll, push]

theorem byteSize_pushAll (song : Song) (events : List ConductorEvent) :
    (song.pushAll events).byteSize =
      song.byteSize + (events.map ConductorEvent.size).sum := by
  induction events generalizing song with
  | nil => rw [pushAll_nil, List.map_nil, List.sum_nil, Nat.add_zero]
  | cons event events ih =>
      rw [pushAll_cons, ih, List.map_cons, List.sum_cons, ← Nat.add_assoc]
      rfl

theorem pushWaits_eq (rows : Nat) (song : Song) :
    song.pushWaits rows =
      { song with
        events := song.events ++ (waits rows).map .waitRows
        byteSize :=
          song.byteSize +
            (((waits rows).map ConductorEvent.waitRows).map ConductorEvent.size).sum
        rows := Register.nat32 (song.rows + rows) } := by
  rw [← byteSize_pushAll]
  rfl

/-- The tempo that is sent before a wait. -/
def tempoNews (song : Song) (rowsPerMinute : Nat) : List ConductorEvent :=
  if song.engineTempo = some rowsPerMinute then [] else [.setTempo rowsPerMinute]

/-- The beat that is sent before a wait. -/
def beatNews (song : Song) (beatRows : Nat) (beat : NoteLength) : List ConductorEvent :=
  if song.engineBeat = some beatRows then [] else [.setBeat beat]

/-- What is sent before a wait. -/
def news (song : Song) (beatRows : Nat) (beat : NoteLength) : List ConductorEvent :=
  song.tempoNews (rowTempo song.tempo beatRows) ++ song.beatNews beatRows beat

theorem sendTempo_spec
    (rowsPerMinute : Nat) (song : Song) :
    (song.sendTempo rowsPerMinute).events = song.events ++ song.tempoNews rowsPerMinute ∧
      (song.sendTempo rowsPerMinute).engineTempo = some rowsPerMinute ∧
      (song.sendTempo rowsPerMinute).engineBeat = song.engineBeat := by
  by_cases htempo : song.engineTempo = some rowsPerMinute
  · simp [sendTempo, tempoNews, htempo]
  · simp [sendTempo, tempoNews, htempo, push]

theorem sendBeat_eq_ok
    {beatRows : Nat} {song next : Song} (h : song.sendBeat beatRows = .ok next) :
    ∃ beat,
      (song.engineBeat ≠ some beatRows → NoteLength.ofRows? beatRows = some beat) ∧
      next.events = song.events ++ song.beatNews beatRows beat ∧
      next.engineTempo = song.engineTempo ∧ next.engineBeat = some beatRows := by
  by_cases hbeat : song.engineBeat = some beatRows
  · rw [sendBeat, if_pos hbeat] at h
    cases h
    exact ⟨default, fun hnew => absurd hbeat hnew, by simp [beatNews, hbeat], rfl, hbeat⟩
  · rw [sendBeat, if_neg hbeat] at h
    split at h
    · next beat hlength =>
        cases h
        exact ⟨beat, fun _ => hlength, by simp [beatNews, hbeat, push], rfl, rfl⟩
    · cases h

/-- A wait of some rows sends the tempo and the beat and then adds the rows. -/
theorem waitRows_apply {rows : Nat} (hrows : rows ≠ 0) (song : Song) :
    Song.waitRows rows song =
      match song.meter.beatRows with
      | .error fault => .error fault song
      | .ok beatRows =>
        let rowsPerMinute := rowTempo song.tempo beatRows
        if fastestTempo < rowsPerMinute then .error (.rowTempoTooFast rowsPerMinute) song
        else
          match (song.sendTempo rowsPerMinute).sendBeat beatRows with
          | .error fault => .error fault (song.sendTempo rowsPerMinute)
          | .ok sent => .ok () (sent.pushWaits rows) := by
  rw [waitRows, if_neg hrows, get_bind_apply]
  cases song.meter.beatRows with
  | error fault => rfl
  | ok beatRows =>
      simp only [decide_bind_apply, get_bind_apply]
      split
      · rfl
      · rw [modify_bind_apply]
        change EStateM.bind (Step.advance _) _ _ = _
        simp only [EStateM.bind, Step.advance]
        cases (song.sendTempo (rowTempo song.tempo beatRows)).sendBeat beatRows with
        | error fault => rfl
        | ok sent => rfl

/-- A wait of some rows sends what is new and adds the waits. The engine is then known to
be set to the tempo and the beat of the song. -/
theorem waitRows_eq_ok
    {song next : Song} {rows : Nat} (hrows : rows ≠ 0)
    (h : Song.waitRows rows song = .ok () next) :
    ∃ beatRows beat,
      song.meter.beatRows = .ok beatRows ∧
      (song.engineBeat ≠ some beatRows → NoteLength.ofRows? beatRows = some beat) ∧
      next.events =
        song.events ++ (song.news beatRows beat ++ (waits rows).map .waitRows) ∧
      next.engineTempo = some (rowTempo song.tempo beatRows) ∧
      next.engineBeat = some beatRows := by
  rw [waitRows, if_neg hrows] at h
  obtain ⟨beatRows, _, hdecide, hrest⟩ := Step.bind_eq_ok (Step.get_bind_eq_ok h)
  obtain ⟨hbeatRows, rfl⟩ := Step.decide_eq_ok hdecide
  have hsent := Step.get_bind_eq_ok hrest
  split at hsent
  · cases hsent
  · obtain ⟨_, sent, hsend, hwait⟩ := Step.bind_eq_ok (Step.modify_bind_eq_ok hsent)
    cases hwait
    have hadvance := Step.advance_eq_ok hsend
    obtain ⟨_, hbeat, hpair⟩ := Step.map_eq_ok hadvance
    cases hpair
    obtain ⟨htempoEvents, htempo, hkept⟩ :=
      sendTempo_spec (rowTempo song.tempo beatRows) song
    obtain ⟨beat, hlength, hbeatEvents, hsame, hset⟩ := sendBeat_eq_ok hbeat
    refine ⟨beatRows, beat, hbeatRows, fun hnew => hlength (hkept ▸ hnew), ?_, ?_, ?_⟩
    · rw [pushWaits_eq, hbeatEvents, htempoEvents, news, beatNews, beatNews, hkept]
      simp only [List.append_assoc]
    · rw [pushWaits_eq]
      exact hsame.trans htempo
    · rw [pushWaits_eq]
      exact hset

theorem moveTo_eq_ok
    {meter next : Meter} {target : Position} {rows : Nat}
    (h : meter.moveTo target = .ok (rows, next)) :
    next = { meter with position := target } := by
  obtain ⟨length, -, hrest⟩ := Step.outcome_bind_eq_ok h
  dsimp only at hrest
  split at hrest
  · cases hrest
  · split at hrest
    · cases hrest
    · cases hrest
      rfl

/-- Waiting until a position is waiting some rows, with the position taken up. -/
theorem waitUntil_eq_ok
    {song next : Song} {measure : Int} {beat row : Nat}
    (h : Song.waitUntil measure beat row song = .ok () next) :
    ∃ rows position,
      Song.waitRows rows { song with meter := { song.meter with position := position } } =
        .ok () next := by
  obtain ⟨target, _, hdecide, hrest⟩ := Step.bind_eq_ok (Step.get_bind_eq_ok h)
  obtain ⟨-, rfl⟩ := Step.decide_eq_ok hdecide
  obtain ⟨rows, moved, hmove, hwait⟩ := Step.bind_eq_ok hrest
  have hadvance := Step.advance_eq_ok hmove
  obtain ⟨⟨count, meter⟩, hmeter, hpair⟩ := Step.map_eq_ok hadvance
  cases hpair
  exact ⟨rows, target, by rwa [moveTo_eq_ok hmeter] at hwait⟩

end Song

end Chiptune
