import Chiptune.Proofs.Rhythm.NoteLength
import Chiptune.Proofs.Song.Building

/-!
# The pace of a song that loops

Tempo and beat are sent to the engine only when they differ from what was sent last.
On the first pass every wait is then played at the pace that its song had. A song that
jumps back arrives with the tempo and the beat of its end, so on later passes a wait
behind the loop point that comes before the next change is played at the pace of the
end.
-/

namespace Chiptune

namespace ConductorEvent

/-- The tempo that an event sets. -/
def tempo? : ConductorEvent → Option Nat
  | setTempo rowsPerMinute => some rowsPerMinute
  | _ => none

/-- The beat that an event sets. -/
def beat? : ConductorEvent → Option NoteLength
  | setBeat length => some length
  | _ => none

/-- Whether an event neither sets the pace nor passes time nor ends the song. -/
def isIdle : ConductorEvent → Bool
  | setTempo _ | setBeat _ | waitRows _ | fine | dalSegno => false
  | _ => true

theorem tempo?_of_isIdle {event : ConductorEvent} (h : event.isIdle) : event.tempo? = none := by
  cases event <;> simp_all [isIdle, tempo?]

theorem beat?_of_isIdle {event : ConductorEvent} (h : event.isIdle) : event.beat? = none := by
  cases event <;> simp_all [isIdle, beat?]

end ConductorEvent

/-! ## Settings along events -/

section Settings

variable {α : Type} (sets : ConductorEvent → Option α)

/-- The value of a setting after events. -/
def settingAfter (start : Option α) (events : List ConductorEvent) : Option α :=
  events.foldl (fun value event => (sets event).or value) start

variable {sets} {start : Option α}

theorem settingAfter_append
    (first second : List ConductorEvent) :
    settingAfter sets start (first ++ second) =
      settingAfter sets (settingAfter sets start first) second :=
  List.foldl_append

theorem settingAfter_eq_or
    (start : Option α) (events : List ConductorEvent) :
    settingAfter sets start events = (settingAfter sets none events).or start := by
  induction events generalizing start with
  | nil => simp [settingAfter]
  | cons event events ih =>
      change settingAfter sets ((sets event).or start) events =
        (settingAfter sets ((sets event).or none) events).or start
      rw [ih, ih ((sets event).or none), Option.or_none, Option.or_assoc]

theorem settingAfter_of_quiet
    {events : List ConductorEvent} (hquiet : ∀ event ∈ events, sets event = none) :
    settingAfter sets start events = start := by
  induction events with
  | nil => rfl
  | cons event events ih =>
      have hhead := hquiet event List.mem_cons_self
      have htail := ih fun later hmem => hquiet later (List.mem_cons_of_mem event hmem)
      simpa [settingAfter, hhead] using htail

theorem quiet_of_settingAfter_eq_none
    {events : List ConductorEvent} (h : settingAfter sets none events = none) :
    ∀ event ∈ events, sets event = none := by
  induction events with
  | nil => simp
  | cons event events ih =>
      change settingAfter sets ((sets event).or none) events = none at h
      rw [settingAfter_eq_or, Option.or_none, Option.or_eq_none_iff] at h
      intro later hmem
      rcases List.mem_cons.mp hmem with rfl | hmem
      · exact h.2
      · exact ih h.1 later hmem

/-- Playing the end of some events once more changes nothing. -/
theorem settingAfter_again
    (first second : List ConductorEvent) :
    settingAfter sets (settingAfter sets start (first ++ second)) second =
      settingAfter sets start (first ++ second) := by
  rw [settingAfter_append, settingAfter_eq_or (settingAfter sets _ second),
    settingAfter_eq_or (settingAfter sets start first)]
  cases settingAfter sets none second <;> simp

end Settings

/-! ## Playback -/

/-- What the conductor has come to: the number of the next event, how often it has
jumped back, and the tempo and the beat that it is set to. -/
structure Playback where
  next : Nat
  round : Nat
  tempo : Option Nat
  beat : Option NoteLength
deriving DecidableEq, Repr

namespace Playback

/-- Before the first event nothing is set. -/
def start : Playback := ⟨0, 0, none, none⟩

/-- The event that playback jumps back to: the loop point, or the first event if there is
none. -/
def loopStart (events : List ConductorEvent) : Nat :=
  (events.findIdx? fun event => event = .segno).getD 0

/-- Carry out the next event. Tempo and beat are kept across a jump. -/
def step (events : List ConductorEvent) (playback : Playback) : Option Playback :=
  match events[playback.next]? with
  | none => none
  | some .fine => none
  | some .dalSegno =>
    some { playback with next := loopStart events, round := playback.round + 1 }
  | some event =>
    some
      { playback with
        next := playback.next + 1
        tempo := event.tempo?.or playback.tempo
        beat := event.beat?.or playback.beat }

/-- The states that playback of events comes to. -/
inductive Reached (events : List ConductorEvent) : Playback → Prop where
  | start : Reached events Playback.start
  | step {playback later : Playback} (h : Reached events playback)
      (hstep : playback.step events = some later) : Reached events later

/-- If the next event is a wait, the engine is set to the pace that was asked for it. -/
def InPace (events : List ConductorEvent) (asked : List (Option Pace)) (playback : Playback) :
    Prop :=
  ∀ rows, events[playback.next]? = some (.waitRows rows) →
    ∃ pace, asked[playback.next]? = some (some pace) ∧
      playback.tempo = some pace.tempo ∧ playback.beat = some pace.beat

/-- If a wait comes behind the loop point before the setting is sent again, then the
setting is at the end what it was at the loop point. -/
def SteadyAround {α : Type} (sets : ConductorEvent → Option α) (events : List ConductorEvent) :
    Prop :=
  ∀ i rows, loopStart events ≤ i → events[i]? = some (.waitRows rows) →
    (∀ event ∈ (events.take i).drop (loopStart events), sets event = none) →
    settingAfter sets none events = settingAfter sets none (events.take (loopStart events))

/-- The value of a setting before an event on a pass. -/
def settingAt {α : Type} (sets : ConductorEvent → Option α) (events : List ConductorEvent) :
    Nat → Nat → Option α
  | 0, next => settingAfter sets none (events.take next)
  | _ + 1, next =>
    settingAfter sets (settingAfter sets none events)
      ((events.take next).drop (loopStart events))

section SettingAt

variable {α : Type} {sets : ConductorEvent → Option α} {events : List ConductorEvent}

theorem settingAt_succ
    {round next : Nat} {event : ConductorEvent} (hevent : events[next]? = some event)
    (hloop : 0 < round → loopStart events ≤ next) :
    settingAt sets events round (next + 1) =
      (sets event).or (settingAt sets events round next) := by
  have htake : events.take (next + 1) = events.take next ++ [event] := by
    rw [List.take_add_one, hevent]
    rfl
  rcases round with _ | round
  · simp only [settingAt, htake, settingAfter_append]
    rfl
  · have hlength : next < events.length := (List.getElem?_eq_some_iff.mp hevent).1
    have hle : loopStart events ≤ (events.take next).length := by
      rw [List.length_take]
      have := hloop (Nat.succ_pos round)
      omega
    simp only [settingAt, htake, List.drop_append_of_le_length hle, settingAfter_append]
    rfl

theorem settingAt_loopStart
    (round : Nat) :
    settingAt sets events (round + 1) (loopStart events) = settingAfter sets none events := by
  have hnone : (events.take (loopStart events)).drop (loopStart events) = [] := by simp
  rw [settingAt, hnone]
  rfl

end SettingAt

/-! ## Passes -/

/-- Events that end nowhere but in the last one, which sets nothing. -/
structure EndsIn (body : List ConductorEvent) (last : ConductorEvent) : Prop where
  goes_on : ∀ event ∈ body, event ≠ .fine ∧ event ≠ .dalSegno
  ending : last = .fine ∨ last = .dalSegno

theorem loopStart_le
    (body : List ConductorEvent) (last : ConductorEvent) :
    loopStart (body ++ [last]) ≤ body.length := by
  rw [loopStart]
  cases hfound : (body ++ [last]).findIdx? fun event => event = .segno with
  | none => simp
  | some i =>
      have hlt := (List.findIdx?_eq_some_iff_getElem.mp hfound).1
      rw [List.length_append, List.length_singleton] at hlt
      rw [Option.getD_some]
      omega

namespace EndsIn

variable {body : List ConductorEvent} {last : ConductorEvent}

theorem sets_last
    {α : Type} {sets : ConductorEvent → Option α} (h : EndsIn body last)
    (hfine : sets .fine = none) (hjump : sets .dalSegno = none) :
    settingAfter sets none (body ++ [last]) = settingAfter sets none body := by
  have hlast : sets last = none := by
    rcases h.ending with rfl | rfl
    · exact hfine
    · exact hjump
  rw [settingAfter_append]
  apply settingAfter_of_quiet
  simpa using hlast

/-- On every pass a setting has at the last event the value that it has after all. -/
theorem settingAt_length
    {α : Type} {sets : ConductorEvent → Option α} (h : EndsIn body last)
    (hfine : sets .fine = none) (hjump : sets .dalSegno = none) (round : Nat) :
    settingAt sets (body ++ [last]) round body.length =
      settingAfter sets none (body ++ [last]) := by
  have htake : (body ++ [last]).take body.length = body := by simp
  have hlast := h.sets_last hfine hjump
  rcases round with _ | round
  · rw [settingAt, htake, hlast]
  · rw [settingAt, htake, hlast]
    let start := loopStart (body ++ [last])
    have hagain : settingAfter sets
        (settingAfter sets none (body.take start ++ body.drop start)) (body.drop start) =
          settingAfter sets none (body.take start ++ body.drop start) :=
      settingAfter_again (body.take start) (body.drop start)
    rwa [List.take_append_drop] at hagain

/-- What an event of the body does. -/
theorem step_body
    (h : EndsIn body last) {playback : Playback} {event : ConductorEvent}
    (hevent : body[playback.next]? = some event) :
    playback.step (body ++ [last]) =
      some
        { playback with
          next := playback.next + 1
          tempo := event.tempo?.or playback.tempo
          beat := event.beat?.or playback.beat } := by
  have hget : (body ++ [last])[playback.next]? = some event := by
    have hlt := (List.getElem?_eq_some_iff.mp hevent).1
    rw [List.getElem?_append_left hlt, hevent]
  obtain ⟨hfine, hjump⟩ := h.goes_on event (List.mem_of_getElem? hevent)
  rw [step, hget]
  cases event <;> first | rfl | contradiction

/-- What the last event does. -/
theorem step_last
    (h : EndsIn body last) {playback : Playback} (hnext : playback.next = body.length) :
    playback.step (body ++ [last]) =
      if last = .dalSegno then
        some
          { playback with
            next := loopStart (body ++ [last])
            round := playback.round + 1 }
      else none := by
  have hget : (body ++ [last])[playback.next]? = some last := by simp [hnext]
  rw [step, hget]
  rcases h.ending with rfl | rfl
  · rfl
  · rfl

end EndsIn

/-- Playback within a pass: the number of the event, and the tempo and the beat as the
events so far have set them. -/
structure OnCourse (body : List ConductorEvent) (last : ConductorEvent) (playback : Playback) :
    Prop where
  next_le : playback.next ≤ body.length
  loop_le : 0 < playback.round → loopStart (body ++ [last]) ≤ playback.next
  jumped : 0 < playback.round → last = .dalSegno
  tempo : playback.tempo =
    settingAt ConductorEvent.tempo? (body ++ [last]) playback.round playback.next
  beat : playback.beat =
    settingAt ConductorEvent.beat? (body ++ [last]) playback.round playback.next

theorem onCourse_start
    (body : List ConductorEvent) (last : ConductorEvent) : OnCourse body last start := by
  refine ⟨Nat.zero_le _, ?_, ?_, ?_, ?_⟩
  · intro hround
    exact absurd hround (Nat.lt_irrefl 0)
  · intro hround
    exact absurd hround (Nat.lt_irrefl 0)
  · simp [settingAt, settingAfter, start]
  · simp [settingAt, settingAfter, start]

theorem OnCourse.step
    {body : List ConductorEvent} {last : ConductorEvent} {playback later : Playback}
    (hends : EndsIn body last) (h : OnCourse body last playback)
    (hstep : playback.step (body ++ [last]) = some later) :
    OnCourse body last later := by
  -- only the last event can jump; the others pass on what they set
  rcases Nat.lt_or_eq_of_le h.next_le with hlt | heq
  · have hevent : body[playback.next]? = some body[playback.next] :=
      List.getElem?_eq_getElem hlt
    have hget : (body ++ [last])[playback.next]? = some body[playback.next] := by
      rw [List.getElem?_append_left hlt, hevent]
    rw [hends.step_body hevent] at hstep
    cases hstep
    refine ⟨hlt, ?_, h.jumped, ?_, ?_⟩
    · intro hround
      exact Nat.le_succ_of_le (h.loop_le hround)
    · rw [settingAt_succ hget h.loop_le, ← h.tempo]
    · rw [settingAt_succ hget h.loop_le, ← h.beat]
  · rw [hends.step_last heq] at hstep
    split at hstep
    · next hjump =>
        cases hstep
        refine ⟨loopStart_le body last, fun _ => Nat.le_refl _, fun _ => hjump, ?_, ?_⟩
        · rw [settingAt_loopStart, h.tempo, heq]
          exact hends.settingAt_length rfl rfl playback.round
        · rw [settingAt_loopStart, h.beat, heq]
          exact hends.settingAt_length rfl rfl playback.round
    · cases hstep

theorem Reached.onCourse
    {body : List ConductorEvent} {last : ConductorEvent} {playback : Playback}
    (hends : EndsIn body last) (h : Reached (body ++ [last]) playback) :
    OnCourse body last playback := by
  induction h with
  | start => exact onCourse_start body last
  | step _ hstep ih => exact ih.step hends hstep

/-- A pass goes on to its last event. -/
theorem Reached.goes_on
    {body : List ConductorEvent} {last : ConductorEvent} {playback : Playback}
    (hends : EndsIn body last) (h : Reached (body ++ [last]) playback) {i : Nat}
    (hle : playback.next ≤ i) (hi : i ≤ body.length) :
    ∃ later, Reached (body ++ [last]) later ∧ later.round = playback.round ∧
      later.next = i := by
  induction hle with
  | refl => exact ⟨playback, h, rfl, rfl⟩
  | @step i hle ih =>
      obtain ⟨before, hbefore, hround, hnext⟩ := ih (Nat.le_of_succ_le hi)
      have hevent : body[before.next]? = some body[i] := by
        rw [hnext]
        exact List.getElem?_eq_getElem hi
      refine ⟨_, hbefore.step (hends.step_body hevent), hround, ?_⟩
      rw [hnext]

/-- A song that loops comes to every event of its loop a second time. -/
theorem exists_reached_again
    {body : List ConductorEvent} {last : ConductorEvent} (hends : EndsIn body last)
    (hjump : last = .dalSegno) {i : Nat}
    (hle : loopStart (body ++ [last]) ≤ i) (hi : i ≤ body.length) :
    ∃ playback, Reached (body ++ [last]) playback ∧ playback.round = 1 ∧
      playback.next = i := by
  obtain ⟨atEnd, hreached, hround, hnext⟩ :=
    Reached.start.goes_on hends (Nat.zero_le body.length) (Nat.le_refl _)
  have hstep := hends.step_last hnext
  rw [if_pos hjump] at hstep
  obtain ⟨again, hagain, hround', hnext'⟩ := (hreached.step hstep).goes_on hends hle hi
  refine ⟨again, hagain, ?_, hnext'⟩
  rw [hround', hround]
  rfl

end Playback

/-! ## Songs -/

namespace Song

open ConductorEvent

/-- The song knows what the engine is set to, and every wait stands behind the pace that
was asked for it. -/
structure Paced (song : Song) (asked : List (Option Pace)) : Prop where
  length : asked.length = song.events.length
  tempo : settingAfter tempo? none song.events = song.engineTempo
  beat : (settingAfter beat? none song.events).map NoteLength.rows = song.engineBeat
  goes_on : ∀ event ∈ song.events, event ≠ .fine ∧ event ≠ .dalSegno
  waits : ∀ i rows, song.events[i]? = some (.waitRows rows) →
    ∃ pace, asked[i]? = some (some pace) ∧
      settingAfter tempo? none (song.events.take i) = some pace.tempo ∧
      settingAfter beat? none (song.events.take i) = some pace.beat

/-- What one operation adds: idle events, or a wait with what is new before it. -/
theorem Change.adds
    {song next : Song} (h : Change song next) :
    (∃ added, (∀ event ∈ added, event.isIdle) ∧ next.events = song.events ++ added ∧
      next.engineTempo = song.engineTempo ∧ next.engineBeat = song.engineBeat) ∨
    ∃ rows beatRows beat, song.meter.beatRows = .ok beatRows ∧
      (song.engineBeat ≠ some beatRows → NoteLength.ofRows? beatRows = some beat) ∧
      next.events =
        song.events ++ (song.news beatRows beat ++ (Song.waits rows).map .waitRows) ∧
      next.engineTempo = some (rowTempo song.tempo beatRows) ∧
      next.engineBeat = some beatRows := by
  cases h with
  | setTempo h =>
      rw [Song.setTempo] at h
      split at h
      · cases h
        exact .inl ⟨[], by simp⟩
      · cases h
  | @waitRows _ rows h =>
      by_cases hrows : rows = 0
      · subst hrows
        cases h
        exact .inl ⟨[], by simp⟩
      · exact .inr ⟨rows, waitRows_eq_ok hrows h⟩
  | waitUntil h =>
      obtain ⟨rows, position, hwait⟩ := waitUntil_eq_ok h
      by_cases hrows : rows = 0
      · subst hrows
        cases hwait
        exact .inl ⟨[], by simp⟩
      · have hadds := waitRows_eq_ok hrows hwait
        exact .inr ⟨rows, hadds⟩
  | pickup h =>
      obtain ⟨position, -, rfl⟩ := Step.map_eq_ok h
      exact .inl ⟨[], by simp⟩
  | setSegno h =>
      obtain ⟨segno, -, rfl⟩ := Step.map_eq_ok h
      exact .inl ⟨[.segno], by simp [isIdle], rfl, rfl, rfl⟩
  | @attackOn _ track h =>
      cases track with
      | pulse1 | pulse2 | triangle =>
          cases h
          exact .inl ⟨_, by simp [isIdle], rfl, rfl, rfl⟩
      | drum | attack => cases h
  | play pattern track instrument transpose place =>
      exact .inl ⟨_, by simp [isIdle], rfl, rfl, rfl⟩
  | noteOn track pitch instrument place =>
      exact .inl ⟨_, by simp [isIdle], rfl, rfl, rfl⟩
  | stop tracks =>
      exact .inl ⟨tracks.map .stop, by simp [isIdle], rfl, rfl, rfl⟩
  | addMark h =>
      rw [Song.addMark] at h
      split at h
      · cases h
      · cases h
        exact .inl ⟨[], by simp⟩
  | settings pitch meter => exact .inl ⟨[], by simp⟩
  | credits mute title author => exact .inl ⟨[], by simp⟩

/-- Added events keep the song paced if each wait among them stands behind the pace of
the song. -/
theorem Paced.append
    {song next : Song} {asked : List (Option Pace)} {added : List ConductorEvent}
    (h : Paced song asked) (hevents : next.events = song.events ++ added)
    (hgoes_on : ∀ event ∈ added, event ≠ .fine ∧ event ≠ .dalSegno)
    (htempo : settingAfter tempo? (settingAfter tempo? none song.events) added =
      next.engineTempo)
    (hbeat : (settingAfter beat? (settingAfter beat? none song.events) added).map
      NoteLength.rows = next.engineBeat)
    (hwaits : ∀ j rows, added[j]? = some (.waitRows rows) →
      ∃ pace, song.pace? = some pace ∧
        settingAfter tempo? (settingAfter tempo? none song.events) (added.take j) =
          some pace.tempo ∧
        settingAfter beat? (settingAfter beat? none song.events) (added.take j) =
          some pace.beat) :
    Paced next
      (asked ++ List.replicate (next.events.length - song.events.length) song.pace?) := by
  have hcount : next.events.length - song.events.length = added.length := by
    rw [hevents, List.length_append]
    omega
  rw [hcount]
  refine ⟨?_, ?_, ?_, ?_, ?_⟩
  · rw [hevents]
    simp [h.length]
  · rw [hevents, settingAfter_append]
    exact htempo
  · rw [hevents, settingAfter_append]
    exact hbeat
  · intro event hmem
    rw [hevents, List.mem_append] at hmem
    rcases hmem with hmem | hmem
    · exact h.goes_on event hmem
    · exact hgoes_on event hmem
  · intro i rows hi
    rw [hevents] at hi ⊢
    -- a wait is one that the song had, or one of those added
    by_cases hlt : i < song.events.length
    · rw [List.getElem?_append_left hlt] at hi
      obtain ⟨pace, hpace, hpaceTempo, hpaceBeat⟩ := h.waits i rows hi
      refine ⟨pace, ?_, ?_, ?_⟩
      · rw [List.getElem?_append_left (h.length ▸ hlt), hpace]
      · rw [List.take_append_of_le_length (Nat.le_of_lt hlt), hpaceTempo]
      · rw [List.take_append_of_le_length (Nat.le_of_lt hlt), hpaceBeat]
    · have hle : song.events.length ≤ i := Nat.le_of_not_lt hlt
      rw [List.getElem?_append_right hle] at hi
      obtain ⟨pace, hpace, hpaceTempo, hpaceBeat⟩ := hwaits _ rows hi
      have hj : i - song.events.length < added.length := (List.getElem?_eq_some_iff.mp hi).1
      refine ⟨pace, ?_, ?_, ?_⟩
      · rw [List.getElem?_append_right (h.length ▸ hle), h.length,
          List.getElem?_replicate_of_lt hj, hpace]
      · rw [List.take_append, List.take_of_length_le hle, settingAfter_append]
        exact hpaceTempo
      · rw [List.take_append, List.take_of_length_le hle, settingAfter_append]
        exact hpaceBeat

theorem settingAfter_tempoNews
    (song : Song) (rowsPerMinute : Nat) :
    settingAfter tempo? song.engineTempo (song.tempoNews rowsPerMinute) =
      some rowsPerMinute := by
  by_cases htempo : song.engineTempo = some rowsPerMinute
  · rw [tempoNews, if_pos htempo]
    exact htempo
  · rw [tempoNews, if_neg htempo]
    rfl

/-- After the news the engine has the beat of the song, which is one of its note
lengths. -/
theorem Paced.settingAfter_beatNews
    {song : Song} {asked : List (Option Pace)} {beatRows : Nat} {beat : NoteLength}
    (h : Paced song asked)
    (hnew : song.engineBeat ≠ some beatRows → NoteLength.ofRows? beatRows = some beat) :
    ∃ length, NoteLength.ofRows? beatRows = some length ∧
      settingAfter beat? (settingAfter beat? none song.events)
        (song.beatNews beatRows beat) = some length := by
  by_cases hbeat : song.engineBeat = some beatRows
  · rw [beatNews, if_pos hbeat]
    rw [← h.beat] at hbeat
    obtain ⟨length, hlength, rfl⟩ := Option.map_eq_some_iff.mp hbeat
    exact ⟨length, length.ofRows?_rows, hlength⟩
  · rw [beatNews, if_neg hbeat]
    exact ⟨beat, hnew hbeat, rfl⟩

theorem mem_news
    {song : Song} {beatRows : Nat} {beat : NoteLength} {event : ConductorEvent}
    (h : event ∈ song.news beatRows beat) :
    (∃ tempo, event = .setTempo tempo) ∨ ∃ length, event = .setBeat length := by
  rcases List.mem_append.mp h with h | h
  · rw [tempoNews] at h
    split at h <;> simp_all
  · rw [beatNews] at h
    split at h <;> simp_all

/-- The news say the pace of the song. -/
theorem Paced.settingAfter_news
    {song : Song} {asked : List (Option Pace)} {beatRows : Nat} {beat : NoteLength}
    (h : Paced song asked) (hbeatRows : song.meter.beatRows = .ok beatRows)
    (hnew : song.engineBeat ≠ some beatRows → NoteLength.ofRows? beatRows = some beat) :
    ∃ pace, song.pace? = some pace ∧ pace.tempo = rowTempo song.tempo beatRows ∧
      pace.beat.rows = beatRows ∧
      settingAfter tempo? (settingAfter tempo? none song.events) (song.news beatRows beat) =
        some pace.tempo ∧
      settingAfter beat? (settingAfter beat? none song.events) (song.news beatRows beat) =
        some pace.beat := by
  obtain ⟨length, hlength, hbeat⟩ := h.settingAfter_beatNews hnew
  refine ⟨⟨rowTempo song.tempo beatRows, length⟩, ?_, rfl,
    NoteLength.rows_of_ofRows? hlength, ?_, ?_⟩
  · rw [pace?, hbeatRows]
    simp [hlength]
  · rw [news, settingAfter_append, h.tempo, settingAfter_tempoNews]
    apply settingAfter_of_quiet
    intro event hmem
    rw [beatNews] at hmem
    split at hmem <;> simp_all [tempo?]
  · have hquiet : settingAfter beat? (settingAfter beat? none song.events)
        (song.tempoNews (rowTempo song.tempo beatRows)) =
          settingAfter beat? none song.events := by
      apply settingAfter_of_quiet
      intro event hmem
      rw [tempoNews] at hmem
      split at hmem <;> simp_all [beat?]
    rw [news, settingAfter_append, hquiet, hbeat]

theorem Paced.wait
    {song next : Song} {asked : List (Option Pace)} {rows beatRows : Nat} {beat : NoteLength}
    (h : Paced song asked) (hbeatRows : song.meter.beatRows = .ok beatRows)
    (hnew : song.engineBeat ≠ some beatRows → NoteLength.ofRows? beatRows = some beat)
    (hevents : next.events =
      song.events ++ (song.news beatRows beat ++ (Song.waits rows).map .waitRows))
    (htempo : next.engineTempo = some (rowTempo song.tempo beatRows))
    (hbeat : next.engineBeat = some beatRows) :
    Paced next
      (asked ++ List.replicate (next.events.length - song.events.length) song.pace?) := by
  obtain ⟨pace, hpace, hpaceTempo, hpaceBeat, htempoNews, hbeatNews⟩ :=
    h.settingAfter_news hbeatRows hnew
  have hwait : ∀ event ∈ (Song.waits rows).map ConductorEvent.waitRows,
      ∃ rows, event = .waitRows rows := by
    intro event hmem
    obtain ⟨count, -, rfl⟩ := List.mem_map.mp hmem
    exact ⟨count, rfl⟩
  -- the waits set nothing, so all of them come at the pace that the news say
  have hquietTempo : ∀ event ∈ (Song.waits rows).map ConductorEvent.waitRows,
      tempo? event = none := by
    intro event hmem
    obtain ⟨count, rfl⟩ := hwait event hmem
    rfl
  have hquietBeat : ∀ event ∈ (Song.waits rows).map ConductorEvent.waitRows,
      beat? event = none := by
    intro event hmem
    obtain ⟨count, rfl⟩ := hwait event hmem
    rfl
  refine h.append hevents ?_ ?_ ?_ ?_
  · intro event hmem
    rcases List.mem_append.mp hmem with hmem | hmem
    · rcases mem_news hmem with ⟨tempo, rfl⟩ | ⟨length, rfl⟩
      · simp
      · simp
    · obtain ⟨count, rfl⟩ := hwait event hmem
      simp
  · rw [settingAfter_append, htempoNews, settingAfter_of_quiet hquietTempo, htempo, hpaceTempo]
  · rw [settingAfter_append, hbeatNews, settingAfter_of_quiet hquietBeat, hbeat,
      Option.map_some, hpaceBeat]
  · intro j count hj
    by_cases hlt : j < (song.news beatRows beat).length
    · rw [List.getElem?_append_left hlt] at hj
      rcases mem_news (List.mem_of_getElem? hj) with ⟨tempo, hevent⟩ | ⟨length, hevent⟩
      · cases hevent
      · cases hevent
    · have hle := Nat.le_of_not_lt hlt
      rw [List.take_append, List.take_of_length_le hle]
      refine ⟨pace, hpace, ?_, ?_⟩
      · rw [settingAfter_append, htempoNews]
        apply settingAfter_of_quiet
        intro event hmem
        exact hquietTempo event (List.mem_of_mem_take hmem)
      · rw [settingAfter_append, hbeatNews]
        apply settingAfter_of_quiet
        intro event hmem
        exact hquietBeat event (List.mem_of_mem_take hmem)

theorem Built.paced
    {song : Song} {asked : List (Option Pace)} (h : Built song asked) : Paced song asked := by
  induction h with
  | blank name place pitch meter =>
      exact ⟨rfl, rfl, rfl, by simp [Song.blank], by simp [Song.blank]⟩
  | @change song next asked _ hchange ih =>
      rcases hchange.adds with
        ⟨added, hidle, hevents, htempo, hbeat⟩ |
        ⟨rows, beatRows, beat, hbeatRows, hnew, hevents, htempo, hbeat⟩
      · have htempoQuiet : ∀ event ∈ added, tempo? event = none := fun event hmem =>
          tempo?_of_isIdle (hidle event hmem)
        have hbeatQuiet : ∀ event ∈ added, beat? event = none := fun event hmem =>
          beat?_of_isIdle (hidle event hmem)
        refine ih.append hevents ?_ ?_ ?_ ?_
        · rintro event hmem
          constructor <;> rintro rfl <;> cases hidle _ hmem
        · rw [settingAfter_of_quiet htempoQuiet, ih.tempo, htempo]
        · rw [settingAfter_of_quiet hbeatQuiet, ih.beat, hbeat]
        · intro j rows hj
          cases hidle _ (List.mem_of_getElem? hj)
      · exact ih.wait hbeatRows hnew hevents htempo hbeat

open Playback

/-- The event that an ending adds. -/
def endEvent : Ending → ConductorEvent
  | .fine => .fine
  | .dalSegno | .daCapo => .dalSegno

theorem finish_eq_ok
    {song done : Song} {ending : Ending} (h : song.finish ending = .ok done) :
    done.events = song.events ++ [endEvent ending] := by
  unfold finish at h
  split at h <;> cases h <;> rfl

theorem Paced.endsIn
    {song : Song} {asked : List (Option Pace)} (h : Paced song asked) (ending : Ending) :
    EndsIn song.events (endEvent ending) := by
  refine ⟨h.goes_on, ?_⟩
  cases ending
  · exact .inl rfl
  · exact .inr rfl
  · exact .inr rfl

/-- A wait among the events of an ended song is one of the song. -/
theorem Paced.wait_at
    {song : Song} {asked : List (Option Pace)} (h : Paced song asked) (ending : Ending)
    {i rows : Nat} (hi : (song.events ++ [endEvent ending])[i]? = some (.waitRows rows)) :
    i < song.events.length ∧ ∃ pace, asked[i]? = some (some pace) ∧
      settingAfter tempo? none ((song.events ++ [endEvent ending]).take i) =
        some pace.tempo ∧
      settingAfter beat? none ((song.events ++ [endEvent ending]).take i) =
        some pace.beat := by
  have hlt : i < song.events.length := by
    refine Nat.lt_of_not_le fun hle => ?_
    rw [List.getElem?_append_right hle] at hi
    have hevent := List.mem_of_getElem? hi
    cases ending <;> simp [endEvent] at hevent
  rw [List.getElem?_append_left hlt] at hi
  rw [List.take_append_of_le_length (Nat.le_of_lt hlt)]
  exact ⟨hlt, h.waits i rows hi⟩

/-- A setting at a wait behind the loop point is what the events since the loop point
made of it. -/
theorem settingAfter_take
    {α : Type} {sets : ConductorEvent → Option α} {events : List ConductorEvent} {i : Nat}
    (hle : loopStart events ≤ i) :
    settingAfter sets none (events.take i) =
      settingAfter sets (settingAfter sets none (events.take (loopStart events)))
        ((events.take i).drop (loopStart events)) := by
  have hsplit := List.take_append_drop (loopStart events) (events.take i)
  rw [List.take_take, Nat.min_eq_left hle] at hsplit
  rw [← settingAfter_append, hsplit]

/-- Every wait of the loop has on later passes the setting of the first one exactly if the
setting is steady around the loop. -/
theorem steadyAround_iff_settingAt
    {α : Type} {sets : ConductorEvent → Option α} {events : List ConductorEvent} :
    SteadyAround sets events ↔
      ∀ i rows, loopStart events ≤ i → events[i]? = some (.waitRows rows) →
        settingAt sets events 1 i = settingAfter sets none (events.take i) := by
  constructor
  · intro hsteady i rows hle hi
    rw [settingAfter_take hle, settingAt]
    by_cases hquiet : settingAfter sets none ((events.take i).drop (loopStart events)) = none
    · rw [hsteady i rows hle hi (quiet_of_settingAfter_eq_none hquiet)]
    · -- what was set since the loop point counts, whatever playback came with
      obtain ⟨value, hvalue⟩ := Option.ne_none_iff_exists'.mp hquiet
      rw [settingAfter_eq_or, settingAfter_eq_or (settingAfter sets none (events.take _)),
        hvalue]
      rfl
  · intro hsame i rows hle hi hquiet
    have hat := hsame i rows hle hi
    rwa [settingAfter_take hle, settingAt, settingAfter_of_quiet hquiet,
      settingAfter_of_quiet hquiet] at hat

section Passes

variable {song : Song} {asked : List (Option Pace)} {ending : Ending} {playback : Playback}

theorem Paced.inPace_first
    (h : Paced song asked) (hreached : Reached (song.events ++ [endEvent ending]) playback)
    (hround : playback.round = 0) :
    playback.InPace (song.events ++ [endEvent ending]) asked := by
  intro rows hrows
  have hcourse := hreached.onCourse (h.endsIn ending)
  obtain ⟨-, pace, hpace, htempo, hbeat⟩ := h.wait_at ending hrows
  refine ⟨pace, hpace, ?_, ?_⟩
  · rw [hcourse.tempo, hround, settingAt, htempo]
  · rw [hcourse.beat, hround, settingAt, hbeat]

theorem Paced.inPace_again
    (h : Paced song asked) (hreached : Reached (song.events ++ [endEvent ending]) playback)
    (hround : playback.round ≠ 0)
    (htempo : SteadyAround tempo? (song.events ++ [endEvent ending]))
    (hbeat : SteadyAround beat? (song.events ++ [endEvent ending])) :
    playback.InPace (song.events ++ [endEvent ending]) asked := by
  intro rows hrows
  have hcourse := hreached.onCourse (h.endsIn ending)
  have hle := hcourse.loop_le (Nat.pos_of_ne_zero hround)
  obtain ⟨round, hsucc⟩ := Nat.exists_eq_succ_of_ne_zero hround
  obtain ⟨-, pace, hpace, hpaceTempo, hpaceBeat⟩ := h.wait_at ending hrows
  refine ⟨pace, hpace, ?_, ?_⟩
  · rw [hcourse.tempo, hsucc, ← hpaceTempo]
    exact steadyAround_iff_settingAt.mp htempo _ rows hle hrows
  · rw [hcourse.beat, hsucc, ← hpaceBeat]
    exact steadyAround_iff_settingAt.mp hbeat _ rows hle hrows

/-- If the second pass of a song that loops is in pace, then each setting is at its waits
what it was on the first pass. -/
theorem Paced.settingAt_eq
    (h : Paced song asked) (hjump : endEvent ending = .dalSegno)
    (hall : ∀ playback, Reached (song.events ++ [endEvent ending]) playback →
      playback.InPace (song.events ++ [endEvent ending]) asked)
    {i rows : Nat} (hle : loopStart (song.events ++ [endEvent ending]) ≤ i)
    (hi : (song.events ++ [endEvent ending])[i]? = some (.waitRows rows)) :
    settingAt tempo? (song.events ++ [endEvent ending]) 1 i =
        settingAfter tempo? none ((song.events ++ [endEvent ending]).take i) ∧
      settingAt beat? (song.events ++ [endEvent ending]) 1 i =
        settingAfter beat? none ((song.events ++ [endEvent ending]).take i) := by
  have hends := h.endsIn ending
  obtain ⟨hlt, pace, hpace, htempo, hbeat⟩ := h.wait_at ending hi
  obtain ⟨playback, hreached, hround, rfl⟩ :=
    exists_reached_again hends hjump hle (Nat.le_of_lt hlt)
  obtain ⟨heard, hheard, hheardTempo, hheardBeat⟩ := hall playback hreached rows hi
  have hcourse := hreached.onCourse hends
  have hsame : heard = pace := by
    rw [hpace] at hheard
    cases hheard
    rfl
  constructor
  · rw [← hround, ← hcourse.tempo, hheardTempo, htempo, hsame]
  · rw [← hround, ← hcourse.beat, hheardBeat, hbeat, hsame]

end Passes

/-- The first pass of a song that has ended is in pace. Every pass is in pace exactly if
the song does not loop or its tempo and its beat are steady around the loop. -/
theorem inPace_iff_steadyAround
    {song done : Song} {asked : List (Option Pace)} {ending : Ending}
    (hbuilt : Built song asked) (hdone : song.finish ending = .ok done) :
    (∀ playback, Reached done.events playback → playback.round = 0 →
      playback.InPace done.events asked) ∧
    ((∀ playback, Reached done.events playback → playback.InPace done.events asked) ↔
      ending = .fine ∨
        (SteadyAround tempo? done.events ∧ SteadyAround beat? done.events)) := by
  have hpaced := hbuilt.paced
  rw [finish_eq_ok hdone]
  refine ⟨fun playback => hpaced.inPace_first, ?_, ?_⟩
  · intro hall
    by_cases hfine : ending = .fine
    · exact .inl hfine
    · have hjump : endEvent ending = .dalSegno := by
        cases ending
        · exact absurd rfl hfine
        · rfl
        · rfl
      refine .inr ⟨?_, ?_⟩
      · rw [steadyAround_iff_settingAt]
        intro i rows hle hi
        exact (hpaced.settingAt_eq hjump hall hle hi).1
      · rw [steadyAround_iff_settingAt]
        intro i rows hle hi
        exact (hpaced.settingAt_eq hjump hall hle hi).2
  · intro hsafe playback hreached
    by_cases hround : playback.round = 0
    · exact hpaced.inPace_first hreached hround
    · have hjumped :=
        (hreached.onCourse (hpaced.endsIn ending)).jumped (Nat.pos_of_ne_zero hround)
      rcases hsafe with rfl | ⟨htempo, hbeat⟩
      · cases hjumped
      · exact hpaced.inPace_again hreached hround htempo hbeat

/-! ## Songs that speed up -/

/-- A song in quarters whose engine is set as the given events set it. -/
def sketch (tempo : Float) (segno : Field Nat) (rows : Nat) (events : List ConductorEvent) :
    Song :=
  { Song.blank "sketch" ⟨"score", 1⟩ .initial .initial with
    tempo := tempo
    engineTempo := settingAfter tempo? none events
    engineBeat := (settingAfter beat? none events).map NoteLength.rows
    segno := segno
    events := events
    byteSize := 2 + (events.map ConductorEvent.size).sum
    rows := rows }

/-- The loop point comes first. -/
def vampEvents : List ConductorEvent :=
  [.segno, .setTempo 400, .setBeat .quarter, .waitRows 4, .setTempo 600, .waitRows 4]

/-- The loop point stands between two waits of one tempo. -/
def accelerandoEvents : List ConductorEvent :=
  [.setTempo 400, .setBeat .quarter, .waitRows 4, .segno, .waitRows 4, .setTempo 600,
    .waitRows 4]

/-- The pace of a hundred quarters a minute, and of half as many again. -/
def walking : Option Pace := some ⟨400, .quarter⟩

@[inherit_doc walking]
def running : Option Pace := some ⟨600, .quarter⟩

/-- A loop point after some rows. -/
def segnoAt (rows : Nat) : Field Nat := ⟨some (rows, ⟨"score", 2⟩)⟩

theorem built_vamp :
    Built (sketch 150.0 (segnoAt 0) 8 vampEvents)
      [walking, walking, walking, walking, running, running] := by
  have hblank := Built.blank "sketch" ⟨"score", 1⟩ .initial .initial
  have hsegno := hblank.change (.setSegno (show Song.setSegno _ ⟨"score", 2⟩ =
    .ok (sketch 100.0 (segnoAt 0) 0 (vampEvents.take 1)) from rfl))
  have hwait := hsegno.change (.waitRows (show Song.waitRows 4 _ =
    .ok () (sketch 100.0 (segnoAt 0) 4 (vampEvents.take 4)) by with_unfolding_all rfl))
  have htempo := hwait.change (.setTempo (show Song.setTempo _ 150.0 =
    .ok (sketch 150.0 (segnoAt 0) 4 (vampEvents.take 4)) by with_unfolding_all rfl))
  exact htempo.change (.waitRows (show Song.waitRows 4 _ =
    .ok () (sketch 150.0 (segnoAt 0) 8 vampEvents) by with_unfolding_all rfl))

theorem built_accelerando :
    Built (sketch 150.0 (segnoAt 4) 12 accelerandoEvents)
      [walking, walking, walking, walking, walking, running, running] := by
  have hblank := Built.blank "sketch" ⟨"score", 1⟩ .initial .initial
  have hintro := hblank.change (.waitRows (show Song.waitRows 4 _ =
    .ok () (sketch 100.0 .unset 4 (accelerandoEvents.take 3)) by with_unfolding_all rfl))
  have hsegno := hintro.change (.setSegno (show Song.setSegno _ ⟨"score", 2⟩ =
    .ok (sketch 100.0 (segnoAt 4) 4 (accelerandoEvents.take 4)) from rfl))
  have hwait := hsegno.change (.waitRows (show Song.waitRows 4 _ =
    .ok () (sketch 100.0 (segnoAt 4) 8 (accelerandoEvents.take 5)) by
      with_unfolding_all rfl))
  have htempo := hwait.change (.setTempo (show Song.setTempo _ 150.0 =
    .ok (sketch 150.0 (segnoAt 4) 8 (accelerandoEvents.take 5)) by with_unfolding_all rfl))
  exact htempo.change (.waitRows (show Song.waitRows 4 _ =
    .ok () (sketch 150.0 (segnoAt 4) 12 accelerandoEvents) by with_unfolding_all rfl))

/-- Both waits of the vamp come behind a tempo of their own. -/
theorem vamp_inPace :
    ∃ done asked, Built (sketch 150.0 (segnoAt 0) 8 vampEvents) asked ∧
      (sketch 150.0 (segnoAt 0) 8 vampEvents).finish .dalSegno = .ok done ∧
      ∀ playback, Reached done.events playback → playback.InPace done.events asked := by
  have hdone : (sketch 150.0 (segnoAt 0) 8 vampEvents).finish .dalSegno =
      .ok ((sketch 150.0 (segnoAt 0) 8 vampEvents).push .dalSegno) := rfl
  refine ⟨_, _, built_vamp, hdone, ?_⟩
  refine (inPace_iff_steadyAround built_vamp hdone).2.mpr (.inr ⟨?_, ?_⟩)
  -- the first wait is the fourth event, so a wait comes behind the first three
  · intro i rows _ hi hquiet
    rcases i with _ | _ | _ | i
    · cases hi
    · cases hi
    · cases hi
    · cases hquiet (.setTempo 400) (.tail _ (.head _))
  · intro i rows _ hi hquiet
    rcases i with _ | _ | _ | i
    · cases hi
    · cases hi
    · cases hi
    · cases hquiet (.setBeat .quarter) (.tail _ (.tail _ (.head _)))

/-- The accelerando comes back at the tempo of its end. -/
theorem accelerando_not_inPace :
    ∃ done asked playback, Built (sketch 150.0 (segnoAt 4) 12 accelerandoEvents) asked ∧
      (sketch 150.0 (segnoAt 4) 12 accelerandoEvents).finish .dalSegno = .ok done ∧
      Reached done.events playback ∧ ¬ playback.InPace done.events asked := by
  have hends := built_accelerando.paced.endsIn .dalSegno
  obtain ⟨playback, hreached, hround, hnext⟩ :=
    exists_reached_again hends rfl (i := 4) (by decide) (by decide)
  refine ⟨_, _, playback, built_accelerando, rfl, hreached, ?_⟩
  intro hpace
  have htempo := (hreached.onCourse hends).tempo
  rw [hround, hnext] at htempo
  obtain ⟨pace, hasked, hheard, -⟩ := hpace 4 (by rw [hnext]; rfl)
  rw [hnext] at hasked
  cases hasked
  cases htempo.symm.trans hheard

end Song

end Chiptune
