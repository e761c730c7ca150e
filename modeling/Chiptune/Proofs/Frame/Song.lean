import Chiptune.Proofs.Frame.Voice
import Chiptune.Reader.Conducting
import Chiptune.Reader.Settings

/-!
# Songs in a frame

Every command of a song does the same inside a frame as outside.
-/

namespace Chiptune.Frame

open Song Step

variable (frame : Frame) {lax : Prop}

/-- A conductor event in the frame. -/
def event : ConductorEvent → ConductorEvent
  | .play pattern track instrument transpose place =>
    .play pattern track instrument transpose (frame.place place)
  | .noteOn track pitch instrument place => .noteOn track pitch instrument (frame.place place)
  | event => event

/-- A song in the frame. -/
def song (song : Song) : Song :=
  { song with
    place := frame.place song.place
    pitch := frame.pitch song.pitch
    segno := frame.field song.segno
    events := song.events.map frame.event
    mute := frame.field song.mute
    title := frame.field song.title
    author := frame.field song.author }

variable {song : Song}

theorem push_song (song : Song) (event : ConductorEvent) :
    (frame.song song).push (frame.event event) = frame.song (song.push event) := by
  have hsize : (frame.event event).size = event.size := by cases event <;> rfl
  simp only [push, Frame.song, hsize, List.map_append, List.map_cons, List.map_nil]

/-- Events that have no place are added as they are. -/
theorem pushAll_song
    {events : List ConductorEvent} (hevents : ∀ event ∈ events, frame.event event = event)
    (song : Song) : (frame.song song).pushAll events = frame.song (song.pushAll events) := by
  have hmap : events.map frame.event = events := by
    rw [List.map_congr_left hevents, List.map_id']
  simp only [pushAll, Frame.song, List.map_append, hmap]

theorem setTempo_song (song : Song) (tempo : Float) :
    Agree lax (· = frame.song ·) ((frame.song song).setTempo tempo) (song.setTempo tempo) := by
  unfold Song.setTempo
  split
  · exact .ok rfl
  · exact .fault rfl

theorem sendTempo_song (rowsPerMinute : Nat) (song : Song) :
    (frame.song song).sendTempo rowsPerMinute = frame.song (song.sendTempo rowsPerMinute) := by
  have hpush := frame.push_song song (.setTempo rowsPerMinute)
  have hengine : (frame.song song).engineTempo = song.engineTempo := rfl
  simp only [sendTempo, hengine]
  split
  · rfl
  · change { (frame.song song).push (frame.event (.setTempo rowsPerMinute)) with
      engineTempo := some rowsPerMinute } = _
    rw [hpush]
    rfl

theorem sendBeat_song (beatRows : Nat) (song : Song) :
    Agree lax (· = frame.song ·) ((frame.song song).sendBeat beatRows)
      (song.sendBeat beatRows) := by
  have hengine : (frame.song song).engineBeat = song.engineBeat := rfl
  simp only [sendBeat, hengine]
  split
  · exact .ok rfl
  · split
    · next length _ =>
        have hpush := frame.push_song song (.setBeat length)
        apply Agree.ok
        change { (frame.song song).push (frame.event (.setBeat length)) with
          engineBeat := some beatRows } = _
        rw [hpush]
        rfl
    · exact .fault rfl

theorem pushWaits_song (rows : Nat) (song : Song) :
    (frame.song song).pushWaits rows = frame.song (song.pushWaits rows) := by
  have hwaits : ∀ event ∈ (waits rows).map ConductorEvent.waitRows, frame.event event = event := by
    simp [Frame.event]
  rw [pushWaits, frame.pushAll_song hwaits]
  rfl

theorem waitRows_lockstep (rows : Nat) :
    Lockstep lax (waitRows rows) (waitRows rows) (frame.song song) song
      (Mirrored frame.song) := by
  unfold waitRows
  split
  · exact lockstep_pure ⟨rfl, rfl⟩
  · apply lockstep_get_bind
    change Lockstep lax (decide song.meter.beatRows >>= _) (decide song.meter.beatRows >>= _) _ _ _
    apply lockstep_decide_bind
    intro beatRows _
    apply lockstep_get_bind
    change Lockstep lax (if fastestTempo < rowTempo song.tempo beatRows then _ else _)
      (if fastestTempo < rowTempo song.tempo beatRows then _ else _) _ _ _
    split
    · exact lockstep_throw_bind rfl
    · apply lockstep_modify_bind
      rw [frame.sendTempo_song]
      refine lockstep_advance_bind (Mirrored frame.song) ?_ ?_
      · apply (frame.sendBeat_song beatRows _).map
        rintro _ sent rfl
        exact ⟨rfl, rfl⟩
      · rintro _ _ _ next ⟨-, rfl⟩
        exact lockstep_modify ⟨rfl, frame.pushWaits_song rows next⟩

theorem waitUntil_lockstep (measure : Int) (beat row : Nat) :
    Lockstep lax (waitUntil measure beat row) (waitUntil measure beat row) (frame.song song)
      song (Mirrored frame.song) := by
  apply lockstep_get_bind
  change Lockstep lax (decide (song.meter.locate measure beat row) >>= _)
    (decide (song.meter.locate measure beat row) >>= _) _ _ _
  apply lockstep_decide_bind
  intro target _
  refine lockstep_advance_bind (Mirrored frame.song) ?_ ?_
  · change Agree lax _ ((song.meter.moveTo target).map _) ((song.meter.moveTo target).map _)
    cases song.meter.moveTo target with
    | ok result => exact .ok ⟨rfl, rfl⟩
    | error fault => exact .fault rfl
  · rintro rows _ _ next ⟨rfl, rfl⟩
    exact frame.waitRows_lockstep rows

theorem pickup_song (song : Song) (measure : Int) (beat row : Nat) :
    Agree lax (· = frame.song ·) ((frame.song song).pickup measure beat row)
      (song.pickup measure beat row) := by
  change Agree lax _ ((song.meter.locate measure beat row).map _) _
  unfold Song.pickup
  cases song.meter.locate measure beat row with
  | ok position => exact .ok rfl
  | error fault => exact .fault rfl

theorem setSegno_song (song : Song) (place : Location) :
    Agree lax (· = frame.song ·) ((frame.song song).setSegno (frame.place place))
      (song.setSegno place) := by
  apply (frame.set_field song.segno song.rows place "segno" song.name).map
  rintro _ segno rfl
  exact frame.push_song { song with segno := segno } .segno

theorem finish_song (song : Song) (ending : Ending) :
    Agree lax (· = frame.song ·) ((frame.song song).finish ending) (song.finish ending) := by
  have hset : (frame.song song).segno.isSet = song.segno.isSet := by
    simp [Frame.song, Frame.field, Field.isSet]
  unfold Song.finish
  rw [hset]
  split
  · exact .ok (frame.push_song song .fine)
  · exact .fault rfl
  · exact .fault rfl
  · exact .ok (frame.push_song song .dalSegno)
  · exact .ok (frame.push_song song .dalSegno)

theorem attackOn_song (song : Song) (track : Track) :
    Agree lax (· = frame.song ·) ((frame.song song).attackOn track) (song.attackOn track) := by
  cases track with
  | drum => exact .fault rfl
  | attack => exact .fault rfl
  | pulse1 => exact .ok (frame.push_song song (.attackOn .pulse1))
  | pulse2 => exact .ok (frame.push_song song (.attackOn .pulse2))
  | triangle => exact .ok (frame.push_song song (.attackOn .triangle))

theorem addMark_song (song : Song) (name : String) :
    Agree lax (fun result result' => result.1 = result'.1 ∧ result.2 = frame.song result'.2)
      ((frame.song song).addMark name) (song.addMark name) := by
  unfold Song.addMark
  split
  · next hmark =>
      rw [if_pos (show (song.marks.any fun mark => mark.name == name) = true from hmark)]
      exact .fault rfl
  · next hmark =>
      rw [if_neg (show ¬ (song.marks.any fun mark => mark.name == name) = true from hmark)]
      exact .ok ⟨rfl, rfl⟩

theorem singleNote?_song (song : Song) (track : Track) (name : String) :
    Reader.singleNote? (frame.song song) track name = Reader.singleNote? song track name := by
  have hread : ∀ mode, { (frame.song song).pitch with mode := mode }.readAbsolute name =
      ({ song.pitch with mode := mode }.readAbsolute name).map (Prod.map id frame.pitch) :=
    fun mode => frame.readAbsolute_pitch { song.pitch with mode := mode } name
  simp only [Reader.singleNote?, hread]
  generalize { song.pitch with mode := if track = Track.drum then OctaveMode.noise else
    OctaveMode.absolute }.readAbsolute name = outcome
  cases outcome <;> rfl

theorem playOn_song
    (name : String) (options : Argument.Options) (place : Location) (song : Song) :
    Agree lax (· = frame.song ·)
      (Reader.playOn name options (frame.place place) (frame.song song))
      (Reader.playOn name options place song) := by
  simp only [Reader.playOn, frame.singleNote?_song]
  split
  · exact .fault rfl
  · next track pitch instrument _ _ =>
      exact .ok (frame.push_song song (.noteOn track pitch instrument place))
  · exact .ok (frame.push_song song
      (.play name options.track options.instrument options.transpose place))

theorem creditSong_song (credit : Reader.Credit) (text : String) (place : Location) (song : Song) :
    Agree lax (· = frame.song ·)
      (Reader.creditSong credit text (frame.place place) (frame.song song))
      (Reader.creditSong credit text place song) := by
  cases credit with
  | title =>
      apply (frame.set_field song.title text place "title" song.name).map
      rintro _ title rfl
      rfl
  | author =>
      apply (frame.set_field song.author text place "author" song.name).map
      rintro _ author rfl
      rfl
  | copyright => exact .fault rfl

end Chiptune.Frame
