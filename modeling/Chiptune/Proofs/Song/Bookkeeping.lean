import Chiptune.Proofs.Song.Looping
import Chiptune.Proofs.Song.Strokes
import Mathlib.Data.List.Chain

/-!
# The books of a song

A song counts its rows and bytes, and knows what it told the engine last. These books
agree with its events and marks after every run of operations, whether each of them
succeeds or fails. The rows are counted in 32 bits: the song has the rows of its waits,
and no mark behind them, exactly as long as the waits have fewer than 4294967296 rows.
-/

namespace Chiptune

open Step

namespace ConductorEvent

/-- The rows that an event waits. -/
def wait? : ConductorEvent → Option Nat
  | waitRows rows => some rows
  | _ => none

/-- Whether an event waits or tells the engine its pace. -/
def isTimed (event : ConductorEvent) : Prop :=
  event.wait? ≠ none ∨ event.tempo? ≠ none ∨ event.beat? ≠ none

theorem not_isTimed_of_isCue {event : ConductorEvent} (h : event.isCue) : ¬event.isTimed := by
  cases event <;> simp_all [isCue, isTimed, wait?, tempo?, beat?]

theorem not_isTimed_segno : ¬segno.isTimed := by simp [isTimed, wait?, tempo?, beat?]

theorem not_isTimed_of_isEnding {event : ConductorEvent} (h : event.isEnding) :
    ¬event.isTimed := by
  cases event <;> simp_all [isEnding, isTimed, wait?, tempo?, beat?]

end ConductorEvent

/-- Joined lists that are split at an element are split inside the first list or inside the
second. -/
theorem split_append
    {α : Type} {first second before after : List α} {x : α}
    (h : first ++ second = before ++ x :: after) :
    (∃ rest, first = before ++ x :: rest) ∨
      ∃ middle, before = first ++ middle ∧ second = middle ++ x :: after := by
  rcases List.append_eq_append_iff.mp h with ⟨middle, hbefore, hsecond⟩ | ⟨middle, hfirst, hrest⟩
  · exact .inr ⟨middle, hbefore, hsecond⟩
  · rcases middle with _ | ⟨y, middle⟩
    · rw [List.append_nil] at hfirst
      exact .inr ⟨[], by rw [hfirst, List.append_nil], hrest.symm⟩
    · obtain ⟨rfl, -⟩ := List.cons.inj hrest
      exact .inl ⟨middle, hfirst⟩

namespace Song

open ConductorEvent

/-- The rows of all waits among events. -/
def waited (events : List ConductorEvent) : Nat := (events.filterMap wait?).sum

/-- The books of a song agree with its events and marks. Rows are counted in 32 bits, those
of the marks too; they stand in the order in which the marks were set. -/
structure Bookkept (song : Song) : Prop where
  byteSize : song.byteSize = 2 + (song.events.map ConductorEvent.size).sum
  rows : song.rows = Register.nat32 (waited song.events)
  waits : ∀ rows, .waitRows rows ∈ song.events → 1 ≤ rows ∧ rows ≤ 256
  paced : ∀ before rows after, song.events = before ++ .waitRows rows :: after →
    (∃ tempo, .setTempo tempo ∈ before) ∧ ∃ beat, .setBeat beat ∈ before
  tempos : (song.events.filterMap tempo?).IsChain (· ≠ ·)
  beats : (song.events.filterMap beat?).IsChain (· ≠ ·)
  engineTempo : (song.events.filterMap tempo?).getLast? = song.engineTempo
  engineBeat : (song.events.filterMap beat?).getLast?.map NoteLength.rows = song.engineBeat
  markNames : (song.marks.map (·.name)).Nodup
  marks : ∃ passed : List Nat, song.marks.map (·.rows) = passed.map Register.nat32 ∧
    passed.Pairwise (· ≤ ·) ∧ ∀ rows ∈ passed, rows ≤ waited song.events

theorem bookkept_blank (name : String) (place : Location) (pitch : PitchState) (meter : Meter) :
    (Song.blank name place pitch meter).Bookkept := by
  constructor <;> simp [Song.blank, waited, Register.nat32]

theorem sum_waits (rows : Nat) : (Song.waits rows).sum = rows := by
  rw [Song.waits, List.sum_append, List.sum_replicate_nat, List.sum_singleton, longestWait]
  omega

theorem bounds_of_mem_waits {rows wait : Nat} (hrows : rows ≠ 0) (h : wait ∈ Song.waits rows) :
    1 ≤ wait ∧ wait ≤ 256 := by
  rw [Song.waits, List.mem_append, List.mem_replicate, List.mem_singleton, longestWait] at h
  omega

theorem filterMap_wait?_map (waits : List Nat) :
    (waits.map ConductorEvent.waitRows).filterMap wait? = waits := by
  rw [List.filterMap_map]
  exact List.filterMap_some

@[simp] theorem waited_append (first second : List ConductorEvent) :
    waited (first ++ second) = waited first + waited second := by
  simp [waited]

theorem waited_waits (rows : Nat) : waited ((Song.waits rows).map .waitRows) = rows := by
  rw [waited, filterMap_wait?_map, sum_waits]

/-! ## What a stroke keeps -/

/-- The tempo that the engine is set to was sent in an event. -/
theorem Bookkept.exists_setTempo
    {song : Song} (h : song.Bookkept) (hknown : song.engineTempo.isSome) :
    ∃ tempo, .setTempo tempo ∈ song.events := by
  obtain ⟨tempo, htempo⟩ := Option.isSome_iff_exists.mp hknown
  rw [← h.engineTempo] at htempo
  have hmem := List.mem_of_getLast? htempo
  obtain ⟨event, hevent, hsets⟩ := List.mem_filterMap.mp hmem
  cases event <;> cases hsets
  exact ⟨tempo, hevent⟩

/-- The beat that the engine is set to was sent in an event. -/
theorem Bookkept.exists_setBeat
    {song : Song} (h : song.Bookkept) (hknown : song.engineBeat.isSome) :
    ∃ beat, .setBeat beat ∈ song.events := by
  obtain ⟨rows, hrows⟩ := Option.isSome_iff_exists.mp hknown
  rw [← h.engineBeat] at hrows
  obtain ⟨beat, hbeat, -⟩ := Option.map_eq_some_iff.mp hrows
  have hmem := List.mem_of_getLast? hbeat
  obtain ⟨event, hevent, hsets⟩ := List.mem_filterMap.mp hmem
  cases event <;> cases hsets
  exact ⟨beat, hevent⟩

/-- Added events keep the books if they are counted, if waits among them come when the
engine has been told its pace, and if what they tell it is new. -/
theorem Bookkept.append
    {song later : Song} (h : song.Bookkept) (added : List ConductorEvent)
    (hevents : later.events = song.events ++ added)
    (hbytes : later.byteSize = song.byteSize + (added.map ConductorEvent.size).sum)
    (hrows : later.rows = Register.nat32 (waited (song.events ++ added)))
    (hmarks : later.marks = song.marks)
    (hwaits : ∀ rows, .waitRows rows ∈ added →
      (1 ≤ rows ∧ rows ≤ 256) ∧ song.engineTempo.isSome ∧ song.engineBeat.isSome)
    (htempos : ((song.events ++ added).filterMap tempo?).IsChain (· ≠ ·))
    (hbeats : ((song.events ++ added).filterMap beat?).IsChain (· ≠ ·))
    (htempo : ((song.events ++ added).filterMap tempo?).getLast? = later.engineTempo)
    (hbeat : ((song.events ++ added).filterMap beat?).getLast?.map NoteLength.rows =
      later.engineBeat) : later.Bookkept where
  byteSize := by
    rw [hbytes, h.byteSize, hevents, List.map_append, List.sum_append]
    omega
  rows := hevents ▸ hrows
  waits := by
    intro rows hmem
    rw [hevents, List.mem_append] at hmem
    rcases hmem with hmem | hmem
    · exact h.waits rows hmem
    · exact (hwaits rows hmem).1
  paced := by
    intro before rows after hsplit
    rw [hevents] at hsplit
    -- the wait is one that the song had, or one of those added
    rcases split_append hsplit with ⟨rest, hsong⟩ | ⟨middle, hbefore, hadded⟩
    · exact h.paced before rows rest hsong
    · have hmem : .waitRows rows ∈ added := hadded ▸ List.mem_append_right _ List.mem_cons_self
      obtain ⟨-, hknownTempo, hknownBeat⟩ := hwaits rows hmem
      obtain ⟨tempo, htempoMem⟩ := h.exists_setTempo hknownTempo
      obtain ⟨beat, hbeatMem⟩ := h.exists_setBeat hknownBeat
      rw [hbefore]
      exact ⟨⟨tempo, List.mem_append_left _ htempoMem⟩, beat, List.mem_append_left _ hbeatMem⟩
  tempos := hevents ▸ htempos
  beats := hevents ▸ hbeats
  engineTempo := hevents ▸ htempo
  engineBeat := hevents ▸ hbeat
  markNames := hmarks ▸ h.markNames
  marks := by
    obtain ⟨passed, hrowsOf, hordered, hpassed⟩ := h.marks
    refine ⟨passed, hmarks ▸ hrowsOf, hordered, fun rows hmem => ?_⟩
    rw [hevents, waited_append]
    exact (hpassed rows hmem).trans (Nat.le_add_right _ _)

/-- An event that neither waits nor tells the engine its pace keeps the books. -/
theorem Bookkept.push
    {song : Song} (h : song.Bookkept) {event : ConductorEvent} (hplain : ¬event.isTimed) :
    (song.push event).Bookkept := by
  obtain ⟨hwait, htempo, hbeat⟩ :
      event.wait? = none ∧ event.tempo? = none ∧ event.beat? = none := by
    simpa [isTimed] using hplain
  have hnone : ∀ rows, .waitRows rows ∉ [event] := by
    intro rows hmem
    rw [List.mem_singleton] at hmem
    rw [← hmem] at hwait
    cases hwait
  refine h.append [event] rfl ?_ ?_ rfl ?_ ?_ ?_ ?_ ?_
  · simp [Song.push]
  · simpa [Song.push, waited, hwait] using h.rows
  · exact fun rows hmem => absurd hmem (hnone rows)
  · simpa [htempo] using h.tempos
  · simpa [hbeat] using h.beats
  · simpa [htempo, Song.push] using h.engineTempo
  · simpa [hbeat, Song.push] using h.engineBeat

theorem Bookkept.sendTempo
    {song : Song} (h : song.Bookkept) {rowsPerMinute : Nat}
    (hnew : song.engineTempo ≠ some rowsPerMinute) :
    { song.push (.setTempo rowsPerMinute) with
      engineTempo := some rowsPerMinute }.Bookkept := by
  have hchain : (song.events.filterMap tempo? ++ [rowsPerMinute]).IsChain (· ≠ ·) := by
    refine h.tempos.append (List.isChain_singleton _) ?_
    intro last hlast first hfirst heq
    rw [h.engineTempo, heq] at hlast
    rw [List.head?_cons, Option.mem_some_iff] at hfirst
    rw [hfirst] at hnew
    exact hnew hlast
  refine h.append [.setTempo rowsPerMinute] rfl ?_ ?_ rfl ?_ ?_ ?_ ?_ ?_
  · simp [Song.push]
  · simpa [Song.push, waited, List.filterMap_cons, wait?] using h.rows
  · simp
  · simpa [tempo?] using hchain
  · simpa [List.filterMap_cons, beat?] using h.beats
  · simp [tempo?]
  · simpa [beat?, Song.push] using h.engineBeat

theorem Bookkept.sendBeat
    {song : Song} (h : song.Bookkept) {beatRows : Nat} {length : NoteLength}
    (hnew : song.engineBeat ≠ some beatRows)
    (hlength : NoteLength.ofRows? beatRows = some length) :
    { song.push (.setBeat length) with engineBeat := some beatRows }.Bookkept := by
  have hrows := NoteLength.rows_of_ofRows? hlength
  have hchain : (song.events.filterMap beat? ++ [length]).IsChain (· ≠ ·) := by
    refine h.beats.append (List.isChain_singleton _) ?_
    intro last hlast first hfirst heq
    rw [List.head?_cons, Option.mem_some_iff] at hfirst
    -- the rows of a note length tell it from the others
    have hsame : song.engineBeat = some beatRows := by
      rw [← h.engineBeat, hlast, heq, ← hfirst, ← hrows]
      rfl
    exact hnew hsame
  refine h.append [.setBeat length] rfl ?_ ?_ rfl ?_ ?_ ?_ ?_ ?_
  · simp [Song.push]
  · simpa [Song.push, waited, List.filterMap_cons, wait?] using h.rows
  · simp
  · simpa [List.filterMap_cons, tempo?] using h.tempos
  · simpa [beat?] using hchain
  · simpa [tempo?, Song.push] using h.engineTempo
  · simp [beat?, hrows]

theorem Bookkept.pushWaits
    {song : Song} (h : song.Bookkept) {rows : Nat} (hrows : rows ≠ 0)
    (htempo : song.engineTempo.isSome) (hbeat : song.engineBeat.isSome) :
    (song.pushWaits rows).Bookkept := by
  have hquietTempo : ((Song.waits rows).map ConductorEvent.waitRows).filterMap tempo? = [] := by
    simp [List.filterMap_map, Function.comp_def, tempo?]
  have hquietBeat : ((Song.waits rows).map ConductorEvent.waitRows).filterMap beat? = [] := by
    simp [List.filterMap_map, Function.comp_def, beat?]
  rw [pushWaits_eq]
  refine h.append ((Song.waits rows).map .waitRows) rfl ?_ ?_ rfl ?_ ?_ ?_ ?_ ?_
  · rfl
  · rw [waited_append, waited_waits, h.rows, Register.nat32_nat32_add]
  · intro wait hmem
    obtain ⟨other, hother, heq⟩ := List.mem_map.mp hmem
    cases heq
    exact ⟨bounds_of_mem_waits hrows hother, htempo, hbeat⟩
  · rw [List.filterMap_append, hquietTempo, List.append_nil]
    exact h.tempos
  · rw [List.filterMap_append, hquietBeat, List.append_nil]
    exact h.beats
  · rw [List.filterMap_append, hquietTempo, List.append_nil]
    exact h.engineTempo
  · rw [List.filterMap_append, hquietBeat, List.append_nil]
    exact h.engineBeat

theorem Bookkept.addMark
    {song : Song} (h : song.Bookkept) {name : String}
    (hnew : ∀ mark ∈ song.marks, mark.name ≠ name) :
    { song with marks := song.marks ++ [RehearsalMark.mk name song.rows] }.Bookkept := by
  refine { h with markNames := ?_, marks := ?_ }
  · rw [List.map_append, List.nodup_append]
    refine ⟨h.markNames, by simp, ?_⟩
    intro first hfirst second hsecond heq
    obtain ⟨mark, hmark, rfl⟩ := List.mem_map.mp hfirst
    rw [List.map_singleton, List.mem_singleton] at hsecond
    exact hnew mark hmark (heq.trans hsecond)
  · obtain ⟨passed, hmarks, hordered, hpassed⟩ := h.marks
    refine ⟨passed ++ [waited song.events], ?_, ?_, ?_⟩
    · rw [List.map_append, hmarks, List.map_append, List.map_singleton, List.map_singleton, h.rows]
    · rw [List.pairwise_append]
      refine ⟨hordered, List.pairwise_singleton _ _, fun rows hrows last hlast => ?_⟩
      rw [List.mem_singleton.mp hlast]
      exact hpassed rows hrows
    · intro rows hrows
      rcases List.mem_append.mp hrows with hrows | hrows
      · exact hpassed rows hrows
      · exact (List.mem_singleton.mp hrows).le

theorem Bookkept.stroke
    {song later : Song} (h : song.Bookkept) (hstroke : Stroke song later) : later.Bookkept := by
  cases hstroke with
  | cue hcue => exact h.push (not_isTimed_of_isCue hcue)
  | tempo hnew => exact h.sendTempo hnew
  | beat hnew hlength => exact h.sendBeat hnew hlength
  | wait hrows htempo hbeat => exact h.pushWaits hrows htempo hbeat
  | segno place hunset =>
      have hset : { song with segno := ⟨some (song.rows, place)⟩ }.Bookkept := { h with }
      exact hset.push not_isTimed_segno
  | mark hnew => exact h.addMark hnew
  | settings | credits => exact { h with }

theorem Bookkept.strokes
    {song later : Song} (h : song.Bookkept) (hstrokes : Strokes song later) :
    later.Bookkept := by
  induction hstrokes with
  | refl => exact h
  | tail _ hstroke ih => exact ih.stroke hstroke

/-! ## Operations -/

/-- An operation on a song. The meter may be changed in any way that can be refused. -/
inductive Operation where
  | setTempo (tempo : Float)
  | waitRows (rows : Nat)
  | waitUntil (measure : Int) (beat row : Nat)
  | pickup (measure : Int) (beat row : Nat)
  | setSegno (place : Location)
  | finish (ending : Ending)
  | attackOn (track : Track)
  | play (pattern : String) (track : Option Track) (instrument : Option String)
      (transpose : Int) (place : Location)
  | noteOn (track : Track) (pitch : Int) (instrument : String) (place : Location)
  | stop (tracks : List Track)
  | addMark (name : String)
  | changeMeter (change : Meter → Except Fault Meter)

/-- A change of a song that may be refused. -/
def changing (change : Song → Except Fault Song) : Step Song Unit :=
  Step.advance fun song => (change song).map fun song => ((), song)

/-- Carry out an operation. -/
def Operation.run : Operation → Step Song Unit
  | setTempo tempo => changing fun song => song.setTempo tempo
  | waitRows rows => Song.waitRows rows
  | waitUntil measure beat row => Song.waitUntil measure beat row
  | pickup measure beat row => changing fun song => song.pickup measure beat row
  | setSegno place => changing fun song => song.setSegno place
  | finish ending => changing fun song => song.finish ending
  | attackOn track => changing fun song => song.attackOn track
  | play pattern track instrument transpose place =>
    modify fun song => song.push (.play pattern track instrument transpose place)
  | noteOn track pitch instrument place =>
    modify fun song => song.push (.noteOn track pitch instrument place)
  | stop tracks => modify fun song => song.stop tracks
  | addMark name => changing fun song => (song.addMark name).map (·.2)
  | changeMeter change =>
    changing fun song => (change song.meter).map fun meter => { song with meter := meter }

/-- The song after operations, each of which may succeed or fail. -/
def perform (operations : List Operation) (song : Song) : Song :=
  operations.foldl (fun song operation => left (operation.run song)) song

/-- What every change keeps is kept when a change is refused. -/
theorem Bookkept.changing
    {song : Song} (h : song.Bookkept) {change : Song → Except Fault Song}
    (hchange : ∀ next, change song = .ok next → next.Bookkept) :
    (left (Song.changing change song)).Bookkept := by
  dsimp only [Song.changing, Step.advance]
  cases hrun : change song with
  | error fault => exact h
  | ok next => exact hchange next hrun

theorem Bookkept.run
    {song : Song} (h : song.Bookkept) (operation : Operation) :
    (left (operation.run song)).Bookkept := by
  cases operation with
  | setTempo tempo => exact h.changing fun next hrun => h.strokes (strokes_of_setTempo hrun)
  | waitRows rows =>
      have hleads : Leads Strokes (Song.waitRows rows) song := waitRows_leads rows
      exact h.strokes hleads
  | waitUntil measure beat row =>
      have hleads : Leads Strokes (Song.waitUntil measure beat row) song :=
        waitUntil_leads measure beat row
      exact h.strokes hleads
  | pickup measure beat row =>
      exact h.changing fun next hrun => h.strokes (strokes_of_pickup hrun)
  | setSegno place => exact h.changing fun next hrun => h.strokes (strokes_of_setSegno hrun)
  | finish ending =>
      apply h.changing
      intro next hrun
      obtain ⟨event, hending, rfl⟩ := exists_push_of_finish hrun
      exact h.push (not_isTimed_of_isEnding hending)
  | attackOn track => exact h.changing fun next hrun => h.strokes (strokes_of_attackOn hrun)
  | play pattern track instrument transpose place => exact h.push (not_isTimed_of_isCue rfl)
  | noteOn track pitch instrument place => exact h.push (not_isTimed_of_isCue rfl)
  | stop tracks => exact h.strokes (strokes_stop tracks song)
  | addMark name =>
      apply h.changing
      intro next hrun
      obtain ⟨⟨warnings, marked⟩, hmarked, rfl⟩ := map_eq_ok hrun
      exact h.strokes (strokes_of_addMark hmarked)
  | changeMeter change =>
      apply h.changing
      intro next hrun
      obtain ⟨meter, -, rfl⟩ := map_eq_ok hrun
      exact { h with }

theorem Bookkept.perform
    {song : Song} (h : song.Bookkept) (operations : List Operation) :
    (Song.perform operations song).Bookkept := by
  induction operations generalizing song with
  | nil => exact h
  | cons operation operations ih => exact ih (h.run operation)

end Song

end Chiptune
