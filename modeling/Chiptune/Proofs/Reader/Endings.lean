import Chiptune.Proofs.Reader.Moves
import Chiptune.Proofs.Song.Bookkeeping

/-!
# Songs that end

While a song is open it has no ending, and no other song is without one. So when
reading is finished every song ends in its only ending, and its loop point is known by
the rows before it, as far as 32 bits can count them.
-/

namespace Chiptune

open Step

/-! ## Songs -/

namespace Song

/-- The song knows its loop point as its events have it. -/
structure SegnoKept (song : Song) : Prop where
  once : song.events.count .segno ≤ 1
  isSet_iff : song.segno.isSet ↔ .segno ∈ song.events
  /-- The rows are counted in 32 bits. -/
  value : ∀ before after, song.events = before ++ .segno :: after →
    song.segno.value? = some (Register.nat32 (waited before))

/-- The song has not ended and its books are kept. -/
structure InProgress (song : Song) : Prop extends song.SegnoKept where
  books : song.Bookkept
  goes_on : ∀ event ∈ song.events, ¬event.isEnding

/-- The last event is the only ending, and the loop point is known. -/
structure Terminated (song : Song) : Prop extends song.SegnoKept where
  ends : ∃ body last, song.events = body ++ [last] ∧ last.isEnding ∧
    ∀ event ∈ body, ¬event.isEnding
  /-- The loop point has the rows of the waits before it exactly if they fit in 32 bits. -/
  value_iff : ∀ before after, song.events = before ++ .segno :: after →
    (song.segno.value? = some (waited before) ↔ waited before < 4294967296)

theorem inProgress_blank (name : String) (place : Location) (pitch : PitchState) (meter : Meter) :
    (Song.blank name place pitch meter).InProgress where
  books := bookkept_blank name place pitch meter
  once := by simp [Song.blank]
  isSet_iff := by simp [Song.blank, Field.isSet, Field.unset]
  value := by simp [Song.blank]
  goes_on := by simp [Song.blank]

/-- Events without a loop point may be added. -/
theorem SegnoKept.append
    {song later : Song} (h : song.SegnoKept) {added : List ConductorEvent}
    (hevents : later.events = song.events ++ added) (hnone : .segno ∉ added)
    (hsegno : later.segno = song.segno) : later.SegnoKept where
  once := by
    rw [hevents, List.count_append, List.count_eq_zero_of_not_mem hnone]
    exact h.once
  isSet_iff := by
    rw [hevents, hsegno, List.mem_append, h.isSet_iff]
    exact ⟨.inl, fun hmem => hmem.resolve_right hnone⟩
  value := by
    intro before after hsplit
    rw [hevents] at hsplit
    rcases split_append hsplit with ⟨rest, hsong⟩ | ⟨middle, -, hadded⟩
    · rw [hsegno]
      exact h.value before rest hsong
    · exact absurd (hadded ▸ List.mem_append_right _ List.mem_cons_self) hnone

theorem SegnoKept.value_iff
    {song : Song} (h : song.SegnoKept) {before after : List ConductorEvent}
    (hsplit : song.events = before ++ .segno :: after) :
    song.segno.value? = some (waited before) ↔ waited before < 4294967296 := by
  rw [h.value before after hsplit, Option.some.injEq, Register.nat32_eq_self_iff]

/-- The first loop point comes behind all the rows so far. -/
theorem InProgress.setSegno
    {song : Song} (h : song.InProgress) (place : Location) (hunset : song.segno.given = none) :
    ({ song with segno := ⟨some (song.rows, place)⟩ }.push .segno).SegnoKept := by
  have hnone : .segno ∉ song.events := by
    rw [← h.isSet_iff, Field.isSet, hunset]
    simp
  refine ⟨?_, ?_, ?_⟩
  · simp [Song.push, List.count_eq_zero_of_not_mem hnone]
  · simp [Song.push, Field.isSet]
  · intro before after hsplit
    have hbefore : song.events = before := by
      rcases split_append hsplit with ⟨rest, hsong⟩ | ⟨middle, hbefore, hadded⟩
      · exact absurd (hsong ▸ List.mem_append_right _ List.mem_cons_self) hnone
      · rcases middle with _ | ⟨event, middle⟩
        · rw [hbefore, List.append_nil]
        · simp at hadded
    rw [← hbefore, ← h.books.rows]
    rfl

/-- A stroke sets the loop point, or it adds events that are neither loop points nor
endings. -/
theorem Stroke.adds
    {song later : Song} (h : Stroke song later) :
    (∃ place, song.segno.given = none ∧
      later = { song with segno := ⟨some (song.rows, place)⟩ }.push .segno) ∨
    ∃ added, later.events = song.events ++ added ∧ later.segno = song.segno ∧
      ∀ event ∈ added, event ≠ .segno ∧ ¬event.isEnding := by
  cases h with
  | segno place hunset => exact .inl ⟨place, hunset, rfl⟩
  | @cue event hcue =>
      refine .inr ⟨[event], rfl, rfl, ?_⟩
      cases event <;> simp_all [ConductorEvent.isCue, ConductorEvent.isEnding]
  | tempo | beat => exact .inr ⟨[_], rfl, rfl, by simp [ConductorEvent.isEnding]⟩
  | wait =>
      rw [pushWaits_eq]
      exact .inr ⟨_, rfl, rfl, by simp [ConductorEvent.isEnding]⟩
  | mark | settings | credits => exact .inr ⟨[], by simp⟩

theorem InProgress.stroke
    {song later : Song} (h : song.InProgress) (hstroke : Stroke song later) :
    later.InProgress := by
  have hbooks := h.books.stroke hstroke
  rcases hstroke.adds with ⟨place, hunset, rfl⟩ | ⟨added, hevents, hsegno, hplain⟩
  · refine { h.setSegno place hunset with books := hbooks, goes_on := ?_ }
    intro event hmem
    rcases List.mem_append.mp hmem with hmem | hmem
    · exact h.goes_on event hmem
    · rw [List.mem_singleton] at hmem
      rw [hmem]
      exact Bool.false_ne_true
  · have hnone : .segno ∉ added := fun hmem => (hplain _ hmem).1 rfl
    refine { h.toSegnoKept.append hevents hnone hsegno with books := hbooks, goes_on := ?_ }
    intro event hmem
    rw [hevents] at hmem
    rcases List.mem_append.mp hmem with hmem | hmem
    · exact h.goes_on event hmem
    · exact (hplain event hmem).2

theorem InProgress.strokes
    {song later : Song} (h : song.InProgress) (hstrokes : Strokes song later) :
    later.InProgress := by
  induction hstrokes with
  | refl => exact h
  | tail _ hstroke ih => exact ih.stroke hstroke

theorem InProgress.finish
    {song done : Song} (h : song.InProgress) {ending : Ending}
    (hfinish : song.finish ending = .ok done) : done.Terminated := by
  obtain ⟨event, hending, rfl⟩ := exists_push_of_finish hfinish
  have hnone : .segno ∉ [event] := by
    rintro hmem
    rw [List.mem_singleton] at hmem
    rw [← hmem] at hending
    cases hending
  have hsegno : (song.push event).SegnoKept := h.toSegnoKept.append rfl hnone rfl
  exact { hsegno with
    ends := ⟨song.events, event, rfl, hending, h.goes_on⟩
    value_iff := fun _ _ hsplit => hsegno.value_iff hsplit }

end Song

/-! ## Readers -/

namespace Reader

/-- The open song is in progress and every other song has ended. -/
def EndsKept (reader : Reader) : Prop :=
  ∀ index song, reader.score.songs.at? index = some song →
    (reader.scope.song = some index → song.InProgress) ∧
      (reader.scope.song ≠ some index → song.Terminated)

theorem EndsKept.congr
    {reader later : Reader} (h : reader.EndsKept)
    (hsongs : later.score.songs = reader.score.songs)
    (hscope : later.scope.song = reader.scope.song) : later.EndsKept := by
  intro index song hat
  rw [hsongs] at hat
  rw [hscope]
  exact h index song hat

theorem EndsKept.addSong
    {reader : Reader} (h : reader.EndsKept) (hclosed : reader.scope.song = none)
    {song : Song} (hsong : song.InProgress) {later : Reader}
    (hsongs : later.score.songs = reader.score.songs.add song)
    (hscope : later.scope.song = some reader.score.songs.size) : later.EndsKept := by
  intro index found hat
  rw [hsongs] at hat
  rw [hscope]
  rcases Registry.at?_add_eq_some hat with ⟨hlt, hat⟩ | ⟨rfl, rfl⟩
  · refine ⟨fun heq => absurd (Option.some.inj heq) (Nat.ne_of_gt hlt), fun _ => ?_⟩
    exact (h index found hat).2 (by simp [hclosed])
  · exact ⟨fun _ => hsong, fun hne => absurd rfl hne⟩

/-- The open song is replaced. -/
theorem EndsKept.putSong
    {reader : Reader} (h : reader.EndsKept) {number : Nat}
    (hopen : reader.scope.song = some number) {song : Song} {later : Reader}
    (hsongs : later.score.songs = reader.score.songs.put number song)
    (hprogress : later.scope.song = some number → song.InProgress)
    (hended : later.scope.song ≠ some number → song.Terminated)
    (hothers : ∀ index, later.scope.song = some index → index = number) : later.EndsKept := by
  intro index found hat
  rw [hsongs] at hat
  rcases Registry.at?_put_eq_some hat with ⟨rfl, rfl⟩ | ⟨hindex, hat⟩
  · exact ⟨hprogress, hended⟩
  · refine ⟨fun hstill => absurd (hothers index hstill) hindex, fun _ => ?_⟩
    apply (h index found hat).2
    rw [hopen]
    exact fun heq => hindex (Option.some.inj heq).symm

theorem EndsKept.edit
    {reader later : Reader} (h : reader.EndsKept) (hedit : Edit reader later) :
    later.EndsKept := by
  cases hedit with
  | remark | closeObject | setPitch | setMeter | defineChord | creditAlbum | setResume
  | addDrum | changeEffect | changeInstrument | changePattern => exact h.congr rfl rfl
  | addSong hclosed => exact h.addSong hclosed (Song.inProgress_blank _ _ _ _) rfl rfl
  | @changeSong index song changed hopen hat hstrokes =>
      have hprogress := ((h index song hat).1 hopen).strokes hstrokes
      refine h.putSong hopen rfl (fun _ => hprogress) (fun hne => absurd hopen hne) ?_
      intro other hother
      exact Option.some.inj (hother.symm.trans hopen)

theorem EndsKept.turn
    {reader later : Reader} (h : reader.EndsKept) (hturn : Turn reader later) :
    later.EndsKept := by
  cases hturn with
  | move hmove =>
      cases hmove with
      | edit hedit => exact h.edit hedit
      | opening hopening => cases hopening <;> exact h.congr rfl rfl
  | @endSong index song done ending hopen hat hfinish =>
      have hended := ((h index song hat).1 hopen).finish hfinish
      exact h.putSong hopen rfl (fun hstill => nomatch hstill) (fun _ => hended)
        (fun _ hstill => nomatch hstill)

theorem EndsKept.travels
    {reader later : Reader} (h : reader.EndsKept) (htravels : Travels reader later) :
    later.EndsKept := by
  induction htravels with
  | refl => exact h
  | tail _ htravel ih =>
      cases htravel with
      | turn hturn => exact ih.turn hturn
      | goTo => exact ih.congr rfl rfl

end Reader

end Chiptune
