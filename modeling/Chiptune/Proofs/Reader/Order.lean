import Chiptune.Proofs.Reader.Moves
import Mathlib.Data.List.Nodup

/-!
# Readers in order

In every state of reading the names of a registry are distinct, the song that is open
exists, and only the settings at top level see the outermost layer of chord names as
their own. So while a song is open, nothing outside it changes.
-/

namespace Chiptune

namespace Registry

variable {α : Type} [Entity α]

/-- The names of the entities, in order. -/
def names (registry : Registry α) : List String := registry.entries.map Entity.name

/-- No two entities have the same name. -/
def Distinct (registry : Registry α) : Prop := registry.names.Nodup

theorem get?_eq_none_iff
    {registry : Registry α} {name : String} :
    registry.get? name = none ↔ name ∉ registry.names := by
  simp [get?, names]

theorem get?_eq_some_iff
    {registry : Registry α} (h : registry.Distinct) {name : String} {entity : α} :
    registry.get? name = some entity ↔
      entity ∈ registry.entries ∧ Entity.name entity = name := by
  constructor
  · intro hget
    exact ⟨List.mem_of_find?_eq_some hget, by simpa using List.find?_some hget⟩
  · rintro ⟨hmem, rfl⟩
    cases hget : registry.get? (Entity.name entity) with
    | none =>
        rw [get?_eq_none_iff] at hget
        exact absurd (List.mem_map_of_mem hmem) hget
    | some found =>
        have hfound : found ∈ registry.entries := List.mem_of_find?_eq_some hget
        have hname : Entity.name found = Entity.name entity := by
          simpa using List.find?_some hget
        rw [List.inj_on_of_nodup_map h hfound hmem hname]

theorem Distinct.add
    {registry : Registry α} {entity : α} (h : registry.Distinct)
    (hnew : registry.get? (Entity.name entity) = none) : (registry.add entity).Distinct := by
  have hnames : (registry.add entity).names = registry.names ++ [Entity.name entity] := by
    simp [names, Registry.add]
  rw [get?_eq_none_iff] at hnew
  rw [Distinct, hnames, List.nodup_append]
  refine ⟨h, by simp, ?_⟩
  intro name hname other hother heq
  rw [List.mem_singleton] at hother
  exact hnew (hother ▸ heq ▸ hname)

/-- A later version of an entity takes its place. -/
theorem names_put
    {registry : Registry α} {index : Nat} {entity later : α}
    (hat : registry.at? index = some entity)
    (hname : Entity.name later = Entity.name entity) :
    (registry.put index later).names = registry.names := by
  have hmap : (registry.put index later).names =
      registry.names.set index (Entity.name entity) := by
    simp [names, put, List.map_set, hname]
  have hget : registry.names[index]? = some (Entity.name entity) := by
    rw [names, List.getElem?_map]
    exact congrArg (Option.map Entity.name) hat
  obtain ⟨hlt, hentity⟩ := List.getElem?_eq_some_iff.mp hget
  rw [hmap, ← hentity, List.set_getElem_self]

theorem Distinct.put
    {registry : Registry α} {index : Nat} {entity later : α} (h : registry.Distinct)
    (hat : registry.at? index = some entity)
    (hname : Entity.name later = Entity.name entity) : (registry.put index later).Distinct := by
  rw [Distinct, names_put hat hname]
  exact h

end Registry

namespace Lineage

/-- The context's own layer is not the outermost one. -/
def IsInner (lineage : Lineage) : Prop := lineage.head? ≠ some 0

end Lineage

namespace ChordBook

theorem isInner_nest
    {book : ChordBook} (h : book.layers ≠ []) (lineage : Lineage) :
    Lineage.IsInner (book.nest lineage).1 := by
  have hlength : book.layers.length ≠ 0 := by simpa using h
  simpa [nest, Lineage.IsInner] using hlength

/-- A name that is recorded in an inner layer is not seen in the outermost one. -/
theorem layer_record
    (book : ChordBook) {lineage : Lineage} (h : Lineage.IsInner lineage) (name : String)
    (code : ChordCode) : (book.record lineage name code).layer 0 = book.layer 0 := by
  rcases lineage with _ | ⟨own, outer⟩
  · rfl
  · have hown : own ≠ 0 := by simpa [Lineage.IsInner] using h
    simp [record, layer, List.getD_eq_getElem?_getD, List.getElem?_set_ne hown]

end ChordBook

namespace Reader

/-- What holds of the reader at all times. -/
structure InOrder (reader : Reader) : Prop where
  sfx : reader.score.sfx.Distinct
  instruments : reader.score.instruments.Distinct
  drums : reader.score.drums.Distinct
  patterns : reader.score.patterns.Distinct
  songs : reader.score.songs.Distinct
  layers : reader.chords.layers ≠ []
  root : reader.pitch.lineage = ChordBook.root
  innerPatterns : ∀ pattern ∈ reader.score.patterns.entries,
    Lineage.IsInner pattern.pitch.lineage
  innerSongs : ∀ song ∈ reader.score.songs.entries, Lineage.IsInner song.pitch.lineage
  openSong : ∀ index, reader.scope.song = some index → index < reader.score.songs.size

theorem inOrder_initial (depthLimit : Nat) : InOrder (initial depthLimit) := by
  refine ⟨?_, ?_, ?_, ?_, ?_, ?_, rfl, ?_, ?_, ?_⟩
  all_goals simp [initial, Score.empty, Registry.empty, Registry.Distinct, Registry.names,
    ChordBook.blank, Scope.topLevel]

theorem forall_mem_add
    {α : Type} [Entity α] {registry : Registry α} {entity : α} {p : α → Prop}
    (h : ∀ entity ∈ registry.entries, p entity) (hnew : p entity) :
    ∀ other ∈ (registry.add entity).entries, p other := by
  intro other hother
  rcases List.mem_append.mp hother with hother | hother
  · exact h other hother
  · rw [List.mem_singleton] at hother
    exact hother ▸ hnew

theorem forall_mem_put
    {α : Type} {registry : Registry α} {index : Nat} {later : α} {p : α → Prop}
    (h : ∀ entity ∈ registry.entries, p entity) (hlater : p later) :
    ∀ other ∈ (registry.put index later).entries, p other := by
  intro other hother
  rcases List.mem_or_eq_of_mem_set hother with hother | rfl
  · exact h other hother
  · exact hlater

theorem record_ne_nil
    {book : ChordBook} (h : book.layers ≠ []) (lineage : Lineage) (name : String)
    (code : ChordCode) : (book.record lineage name code).layers ≠ [] := by
  unfold ChordBook.record
  split
  · simpa using h
  · exact h

theorem InOrder.putSong
    {reader : Reader} {index : Nat} {song later : Song} (h : InOrder reader)
    (hat : reader.score.songs.at? index = some song) (hname : later.name = song.name)
    (hlineage : later.pitch.lineage = song.pitch.lineage) :
    InOrder (reader.putSong index later) := by
  have hinner := h.innerSongs _ (List.mem_of_getElem? hat)
  rw [← hlineage] at hinner
  refine
    { h with
      songs := h.songs.put hat hname
      innerSongs := forall_mem_put h.innerSongs hinner
      openSong := ?_ }
  intro number hnumber
  simpa [Registry.size, Registry.put, Reader.putSong] using h.openSong number hnumber

theorem InOrder.edit
    {reader later : Reader} (h : InOrder reader) (hedit : Edit reader later) :
    InOrder later := by
  cases hedit with
  | remark | setMeter | creditAlbum | setResume => exact { h with }
  | closeObject => exact { h with openSong := h.openSong }
  | setPitch _ _ hlineage => exact { h with root := hlineage.trans h.root }
  | defineChord name code => exact { h with layers := record_ne_nil h.layers _ _ _ }
  | addDrum hnew => exact { h with drums := h.drums.add hnew }
  | addSong hclosed hnew =>
      refine
        { h with
          songs := h.songs.add hnew
          layers := by simp [PitchState.child, ChordBook.nest]
          innerSongs := forall_mem_add h.innerSongs (ChordBook.isInner_nest h.layers _)
          openSong := ?_ }
      intro index hindex
      cases hindex
      simp [Registry.size, Registry.add]
  | changeEffect hat hrevision => exact { h with sfx := h.sfx.put hat hrevision.name }
  | changeInstrument hat hrevision =>
      exact { h with instruments := h.instruments.put hat hrevision.name }
  | changePattern hat hversion =>
      have hinner := h.innerPatterns _ (List.mem_of_getElem? hat)
      rw [← hversion.lineage] at hinner
      exact
        { h with
          patterns := h.patterns.put hat hversion.name
          innerPatterns := forall_mem_put h.innerPatterns hinner }
  | changeSong _ hat hstrokes => exact h.putSong hat hstrokes.name hstrokes.lineage

theorem InOrder.opening
    {reader later : Reader} {name : String} (h : InOrder reader)
    (hopening : Opening name reader later) : InOrder later := by
  cases hopening with
  | effect hnew => exact { h with sfx := h.sfx.add hnew }
  | instrument hnew => exact { h with instruments := h.instruments.add hnew }
  | pattern hnew =>
      exact
        { h with
          patterns := h.patterns.add hnew
          layers := by simp [PitchState.child, ChordBook.nest]
          innerPatterns :=
            forall_mem_add h.innerPatterns (ChordBook.isInner_nest h.layers _) }

theorem InOrder.move
    {reader later : Reader} (h : InOrder reader) (hmove : Move reader later) :
    InOrder later := by
  cases hmove with
  | edit hedit => exact h.edit hedit
  | opening hopening => exact h.opening hopening

theorem InOrder.turn
    {reader later : Reader} (h : InOrder reader) (hturn : Turn reader later) :
    InOrder later := by
  cases hturn with
  | move hmove => exact h.move hmove
  | @endSong index song done _ _ hat hfinish =>
      obtain ⟨event, -, rfl⟩ := Song.exists_push_of_finish hfinish
      have hput : InOrder (reader.putSong index (song.push event)) := h.putSong hat rfl rfl
      exact { hput with openSong := fun _ hindex => nomatch hindex }

theorem InOrder.travel
    {reader later : Reader} (h : InOrder reader) (htravel : Travel reader later) :
    InOrder later := by
  cases htravel with
  | turn hturn => exact h.turn hturn
  | goTo => exact { h with }

theorem InOrder.travels
    {reader later : Reader} (h : InOrder reader) (htravels : Travels reader later) :
    InOrder later := by
  induction htravels with
  | refl => exact h
  | tail _ htravel ih => exact ih.travel htravel

/-- What a song does not see of the reader is the same before and after. -/
structure SameOutside (reader later : Reader) : Prop where
  pitch : later.pitch = reader.pitch
  meter : later.meter = reader.meter
  outermost : later.chords.layer 0 = reader.chords.layer 0
  album : later.score.album = reader.score.album

instance : IsPreorder Reader SameOutside where
  refl _ := ⟨rfl, rfl, rfl, rfl⟩
  trans _ _ _ h h' :=
    ⟨h'.pitch.trans h.pitch, h'.meter.trans h.meter, h'.outermost.trans h.outermost,
      h'.album.trans h.album⟩

theorem InOrder.numberedSong?_isSome
    {reader : Reader} (h : InOrder reader) (hopen : reader.scope.song.isSome) :
    ∃ index song, reader.numberedSong? = some (index, song) := by
  obtain ⟨index, hindex⟩ := Option.isSome_iff_exists.mp hopen
  have hlt : index < reader.score.songs.entries.length := h.openSong index hindex
  have hat : reader.score.songs.at? index = some reader.score.songs.entries[index] :=
    List.getElem?_eq_getElem hlt
  refine ⟨index, reader.score.songs.entries[index], ?_⟩
  simp [numberedSong?, hindex, hat]

/-- The settings that statements change inside a song have a layer of their own. -/
theorem InOrder.isInner_pitchSettings
    {reader : Reader} (h : InOrder reader) (hopen : reader.scope.song.isSome) :
    Lineage.IsInner reader.pitchSettings.lineage := by
  obtain ⟨index, song, hsong⟩ := h.numberedSong?_isSome hopen
  unfold pitchSettings
  split
  · next pattern hpattern =>
      have hmem := List.mem_of_getElem? (at?_of_openPattern? hpattern).2
      exact h.innerPatterns pattern hmem
  · next found _ hfound =>
      have hmem := List.mem_of_getElem? (at?_of_numberedSong? hfound).2
      exact h.innerSongs found hmem
  · next hnone =>
      rw [hsong] at hnone
      cases hnone

theorem InOrder.sameOutside_edit
    {reader later : Reader} (h : InOrder reader) (hopen : reader.scope.song.isSome)
    (hedit : Edit reader later) :
    SameOutside reader later ∧ later.scope.song = reader.scope.song := by
  obtain ⟨index, song, hsong⟩ := h.numberedSong?_isSome hopen
  cases hedit with
  | remark | closeObject | setResume | addDrum | changeEffect | changeInstrument
  | changePattern | changeSong => exact ⟨⟨rfl, rfl, rfl, rfl⟩, rfl⟩
  | setPitch _ hnone => cases hsong.symm.trans hnone
  | setMeter _ hnone => cases hsong.symm.trans hnone
  | defineChord name code =>
      have hinner := h.isInner_pitchSettings hopen
      exact ⟨⟨rfl, rfl, ChordBook.layer_record _ hinner name code, rfl⟩, rfl⟩
  | creditAlbum hclosed =>
      rw [hclosed] at hopen
      cases hopen
  | addSong hclosed =>
      rw [hclosed] at hopen
      cases hopen

/-- While a song is open no move changes what is outside it, and the song stays open. -/
theorem InOrder.sameOutside_move
    {reader later : Reader} (h : InOrder reader) (hopen : reader.scope.song.isSome)
    (hmove : Move reader later) :
    SameOutside reader later ∧ later.scope.song = reader.scope.song := by
  cases hmove with
  | edit hedit => exact h.sameOutside_edit hopen hedit
  | opening hopening =>
      cases hopening with
      | effect | instrument => exact ⟨⟨rfl, rfl, rfl, rfl⟩, rfl⟩
      | pattern hnew =>
          have hlayer := ChordBook.layer_nest reader.chords reader.parentPitch.lineage 0
          exact ⟨⟨rfl, rfl, hlayer, rfl⟩, rfl⟩

theorem InOrder.sameOutside_moves
    {reader later : Reader} (h : InOrder reader) (hopen : reader.scope.song.isSome)
    (hmoves : Moves reader later) :
    SameOutside reader later ∧ later.scope.song = reader.scope.song := by
  induction hmoves with
  | refl => exact ⟨refl_of SameOutside reader, rfl⟩
  | @tail between later hmoves hmove ih =>
      obtain ⟨hsame, hscope⟩ := ih
      have horder := h.travels (Moves.turns hmoves).travels
      have hstill : between.scope.song.isSome := hscope ▸ hopen
      obtain ⟨hsame', hscope'⟩ := horder.sameOutside_move hstill hmove
      exact ⟨trans_of SameOutside hsame hsame', hscope'.trans hscope⟩

end Reader

end Chiptune
