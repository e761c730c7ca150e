import Chiptune.Proofs.Output.Written

/-!
# Linking

What a source compiles to refers to nothing that is not there. Every label in a line of a
table is defined by the output, and every name in the score stands for an entity where it
is used.
-/

namespace Chiptune

open Output Step

/-! ## References -/

/-- In the scope the name stands for an entity of the registry, and the entry has its
label. -/
def Entry.Names {α : Type} [Entity α] (entry : Entry) (directory : Directory)
    (registry : Registry α) (name scope : String) : Prop :=
  ∃ found, registry.resolve? name scope = some found ∧
    directory.start ++ Name.label (Entity.name found) ∈ entry.words

/-- The sound effects of a drum are found from the drum. -/
def Drum.Resolved (score : Score) (drum : Drum) (entry : Entry) : Prop :=
  ∀ name ∈ drum.effects, entry.Names .sfx score.sfx name drum.name

/-- The drums that a pattern strikes and the instruments that it selects are found from the
pattern. A drum that is struck for no rows is found as well. -/
structure Pattern.Resolved (score : Score) (pattern : Pattern) (entry : Entry) : Prop where
  drums : ∀ name rows slur chord, .note (.drum name) rows slur chord ∈ pattern.items →
    ∃ drum, score.drums.resolve? name pattern.name = some drum ∧
      (rows ≠ 0 → Drum.labelOf drum.name ∈ entry.words)
  instruments : ∀ name, .effect (.instrument name) ∈ pattern.items →
    entry.Names .instruments score.instruments name pattern.name

/-- The patterns that a song plays and the instruments of its notes are found from the song,
and so is the instrument that it asks for with a pitched pattern. If it asks for none, then
that of the pattern is found from the pattern. -/
structure Song.Resolved (score : Score) (song : Song) (entry : Entry) : Prop where
  patterns : ∀ name track asked transpose place,
    .play name track asked transpose place ∈ song.events →
      entry.Names .patterns score.patterns name song.name
  played : ∀ name track asked transpose place pattern instrument scope,
    .play name track asked transpose place ∈ song.events →
      score.patterns.resolve? name song.name = some pattern → pattern.isDrum = false →
        song.playedWith asked pattern = some (instrument, scope) →
          entry.Names .instruments score.instruments instrument scope
  notes : ∀ track pitch name place, .noteOn track pitch name place ∈ song.events →
    entry.Names .instruments score.instruments name song.name

theorem Drum.resolved
    {score : Score} {drum : Drum} {entry : Entry} (h : drum.entry score.sfx = .ok entry) :
    drum.Resolved score entry := by
  obtain ⟨labels, hlabels, hpure⟩ := outcome_bind_eq_ok h
  cases hpure
  intro name hname
  obtain ⟨label, hlabel, heffect⟩ :=
    forall₂_mem_left (Assembly.forall₂_of_mapM hlabels) hname
  obtain ⟨effect, hresolve, rfl⟩ := effectLabel_eq_ok heffect
  refine ⟨effect, hresolve, List.mem_append_left _ ?_⟩
  exact mem_identifiers_operands (by decide) (List.mem_cons_of_mem _ hlabel)
    (mem_identifiers_label .sfx effect.name)

theorem Pattern.resolved
    {score : Score} {pattern : Pattern} {entry : Entry}
    (h : pattern.entry score.orchestra = .ok entry) : pattern.Resolved score entry := by
  obtain ⟨codes, hcodes, hpure⟩ := outcome_bind_eq_ok h
  cases hpure
  constructor
  · intro name rows slur chord hitem
    obtain ⟨drum, hresolve, hnote⟩ := drum_of_encode hcodes hitem
    refine ⟨drum, hresolve, fun hrows => ?_⟩
    obtain ⟨length, hcode⟩ := hnote hrows
    apply Entry.mem_words_of_atom rfl (List.mem_map_of_mem hcode)
    have hlabel := mem_identifiers_label .drums drum.name
    rcases PatternCode.text_note (.drum (Drum.labelOf drum.name)) length with
      htext | ⟨found, htext⟩
    · exact htext ▸ hlabel
    · exact htext ▸ mem_identifiers_left (by decide) hlabel
  · intro name hitem
    obtain ⟨instrument, hresolve, hcode⟩ := instrument_of_encode hcodes hitem
    refine ⟨instrument, hresolve, ?_⟩
    apply Entry.mem_words_of_atom rfl (List.mem_map_of_mem hcode)
    exact mem_identifiers_behind (by decide) (mem_identifiers_label .instruments instrument.name)

theorem Song.resolved
    {score : Score} {song : Song} {entry : Entry} {before after : Diagnostics}
    (h : song.entry score before = .ok entry after) : song.Resolved score entry := by
  obtain ⟨lines, _, hlines, hpure⟩ := bind_eq_ok h
  cases hpure
  have hline : ∀ event ∈ song.events, ∃ line ∈ lines, ∃ before after,
      song.command score event before = .ok line after := fun event hevent =>
    forall₂_mem_left (forall₂_of_commands hlines) hevent
  constructor
  · intro name track asked transpose place hevent
    obtain ⟨line, hmem, before, after, hcommand⟩ := hline _ hevent
    obtain ⟨pattern, hresolve, hplay⟩ := playCommand_eq_ok hcommand
    refine ⟨pattern, hresolve, Entry.mem_words_of_atom rfl hmem ?_⟩
    have hlabel := mem_identifiers_label .patterns pattern.name
    rcases hplay with ⟨-, rfl⟩ | ⟨-, track, base, operand, -, -, -, -, rfl⟩
    · exact mem_identifiers_behind (by decide) hlabel
    · exact mem_identifiers_left (by decide) (mem_identifiers_right (by decide) hlabel)
  · intro name track asked transpose place pattern instrument scope hevent hpattern hpitched hwith
    obtain ⟨line, hmem, before, after, hcommand⟩ := hline _ hevent
    obtain ⟨found, hresolve, hplay⟩ := playCommand_eq_ok hcommand
    cases hpattern.symm.trans hresolve
    rcases hplay with ⟨hdrum, -⟩ | ⟨-, track, base, operand, -, -, -, hoperand, rfl⟩
    · exact absurd (hpitched.symm.trans hdrum) (by decide)
    · simp only [IsOperand, hwith] at hoperand
      obtain ⟨played, hplayed, rfl⟩ := hoperand
      refine ⟨played, hplayed, Entry.mem_words_of_atom rfl hmem ?_⟩
      exact mem_identifiers_right (by decide)
        (mem_identifiers_right (by decide) (mem_identifiers_label .instruments played.name))
  · intro track pitch name place hevent
    obtain ⟨line, hmem, before, after, hcommand⟩ := hline _ hevent
    obtain ⟨instrument, hresolve, rfl⟩ := noteOn_eq_ok hcommand
    refine ⟨instrument, hresolve, Entry.mem_words_of_atom rfl hmem ?_⟩
    exact mem_identifiers_right (by decide) (mem_identifiers_label .instruments instrument.name)

/-! ## What a source compiles to -/

/-- The definition of an entry has its label and the label of its data. -/
def Entry.Defined (entry : Entry) : Prop :=
  entry.label ∈ identifiers entry.definition ∧
    ∀ block, entry.data = some block → block.label ∈ identifiers entry.definition

theorem SoundEffect.defined (effect : SoundEffect) : effect.entry.Defined := by
  constructor
  · exact mem_identifiers_operands (by decide) List.mem_cons_self
      (mem_identifiers_label .sfx effect.name)
  · intro block hblock
    cases hblock
    exact mem_identifiers_operands (by decide) (List.mem_cons_of_mem _ List.mem_cons_self)
      (mem_identifiers_block .sfx (by decide) effect.name)

theorem Instrument.defined (instrument : Instrument) : instrument.entry.Defined := by
  constructor
  · exact mem_identifiers_operands (by decide) List.mem_cons_self
      (mem_identifiers_label .instruments instrument.name)
  · intro block hblock
    simp only [entry] at hblock
    split at hblock
    · next hattack =>
        cases hblock
        apply mem_identifiers_operands (by decide) _
          (mem_identifiers_block .instruments (by decide) instrument.name)
        simp [hattack, Directory.blockStart]
    · cases hblock

theorem Drum.defined
    {score : Score} {drum : Drum} {entry : Entry} (h : drum.entry score.sfx = .ok entry) :
    entry.Defined := by
  obtain ⟨labels, -, hpure⟩ := outcome_bind_eq_ok h
  cases hpure
  constructor
  · exact mem_identifiers_operands (by decide) List.mem_cons_self
      (mem_identifiers_label .drums drum.name)
  · intro block hblock
    cases hblock

theorem Pattern.defined
    {orchestra : Orchestra} {pattern : Pattern} {entry : Entry}
    (h : pattern.entry orchestra = .ok entry) : entry.Defined := by
  obtain ⟨codes, -, hpure⟩ := outcome_bind_eq_ok h
  cases hpure
  constructor
  · exact mem_identifiers_left (by decide)
      (mem_identifiers_behind (by decide) (mem_identifiers_label .patterns pattern.name))
  · intro block hblock
    cases hblock
    exact mem_identifiers_right (by decide)
      (mem_identifiers_block .patterns (by decide) pattern.name)

theorem Song.defined
    {score : Score} {song : Song} {entry : Entry} {before after : Diagnostics}
    (h : song.entry score before = .ok entry after) : entry.Defined := by
  obtain ⟨lines, _, -, hpure⟩ := bind_eq_ok h
  cases hpure
  constructor
  · exact mem_identifiers_left (by decide)
      (mem_identifiers_behind (by decide) (mem_identifiers_label .songs song.name))
  · intro block hblock
    cases hblock
    exact mem_identifiers_right (by decide)
      (mem_identifiers_block .songs (by decide) song.name)

namespace Assembly

/-- Every name in a drum, a pattern or a song is found, and its label is in the entry of
what it is used in. -/
structure Resolved (assembly : Assembly) : Prop where
  drums : List.Forall₂ (Drum.Resolved assembly.score) assembly.score.drums.entries
    (assembly.entriesOf .drums)
  patterns : List.Forall₂ (Pattern.Resolved assembly.score) assembly.score.patterns.entries
    (assembly.entriesOf .patterns)
  songs : List.Forall₂ (Song.Resolved assembly.score) assembly.score.songs.entries
    (assembly.entriesOf .songs)

section OfScore

variable {assembly : Assembly} {score : Score} {diagnostics : Diagnostics}
  (h : ofScore score diagnostics = .ok assembly)
include h

theorem resolved : assembly.Resolved := by
  obtain ⟨drums, patterns, songs, hdrums, hpatterns, hsongs, rfl, htables⟩ := ofScore_eq_ok h
  constructor
  · have hentries : assembly.entriesOf .drums = drums := by simp [entriesOf, htables]
    rw [hentries]
    exact (forall₂_of_mapM hdrums).imp fun _ _ hrun => Drum.resolved (eq_ok_of_faultAt hrun)
  · have hentries : assembly.entriesOf .patterns = patterns := by simp [entriesOf, htables]
    rw [hentries]
    exact (forall₂_of_mapM hpatterns).imp fun _ _ hrun =>
      Pattern.resolved (eq_ok_of_faultAt hrun)
  · have hentries : assembly.entriesOf .songs = songs := by simp [entriesOf, htables]
    rw [hentries]
    refine (forall₂_of_songEntries hsongs).imp ?_
    rintro song entry ⟨before, after, hrun⟩
    exact Song.resolved hrun

theorem defined : ∀ table ∈ assembly.tables, ∀ entry ∈ table.entries, entry.Defined := by
  apply forall_entries h fun _ => Entry.Defined
  · exact fun effect _ => effect.defined
  · exact fun instrument _ => instrument.defined
  · exact fun drum _ entry hrun => Drum.defined hrun
  · exact fun pattern _ entry hrun => Pattern.defined hrun
  · exact fun song _ entry before after hrun => Song.defined hrun

end OfScore

/-- What a source compiles to is closed. Every identifier in the lines of a table that
begins like a label of an entry or of a data block is one, and every definition has the
labels of its entry and data. Every alias lies in a block of its own table. Every name that
the score of the source uses is found in the scope of the entity that uses it. -/
theorem written_and_resolved
    {files : SourceFiles} {depthLimit : Nat} {source : Reader.Source} {assembly : Assembly}
    (h : ofSource files depthLimit source = .ok assembly) :
    (∃ diagnostics, scoreOf depthLimit (Reader.readSource files source) =
      .ok (assembly.score, diagnostics)) ∧
    (∀ table ∈ assembly.tables, ∀ line ∈ tableLines assembly table, assembly.Written line) ∧
    (∀ table ∈ assembly.tables, ∀ entry ∈ table.entries, entry.Defined) ∧
    (∀ label found, (label, found) ∈ assembly.aliases →
      ∃ directory, label ∈ dataLabels (assembly.entriesOf directory) ∧
        found.base ∈ dataLabels (assembly.entriesOf directory)) ∧
    assembly.Resolved := by
  obtain ⟨⟨score, diagnostics⟩, hscore, hassembly⟩ := outcome_bind_eq_ok h
  obtain ⟨-, -, -, -, -, -, hsame, -⟩ := ofScore_eq_ok hassembly
  refine ⟨⟨diagnostics, hsame ▸ hscore⟩, ?_, defined hassembly, ?_, resolved hassembly⟩
  · exact fun table htable => written_tableLines hassembly htable
  · exact fun label found halias => mem_dataLabels_of_alias hassembly halias

/-- A song that plays a drum pattern, a pitched pattern and a note. -/
def march : Reader.Source :=
  ⟨"sfx boom on noise\ndrum kick boom\ninstrument lead\nvolume 9 8\nsong march\n" ++
    "pattern beat on drum\nkick\npattern air\n@lead c\nplay beat\nplay air on pulse1\n" ++
    "play c on pulse2 with lead\nfine", "score", none⟩

theorem march_linked :
    ∃ assembly, ofSource noFiles 8 march = .ok assembly ∧
      (∃ table ∈ assembly.tables, "drumdef DR_kick, PE_boom" ∈ tableLines assembly table) ∧
      "PE_boom" ∈ (assembly.entriesOf .sfx).map (·.label) ∧
      (∃ table ∈ assembly.tables, "noteOnSq2 15, PI_lead" ∈ tableLines assembly table) ∧
      "PI_lead" ∈ (assembly.entriesOf .instruments).map (·.label) ∧
      assembly.Resolved := by
  have hview : viewed?
      (fun assembly => ["drumdef DR_kick, PE_boom", "noteOnSq2 15, PI_lead"].all
        (assembly.tables.flatMap (tableLines assembly)).contains) march = some true := by
    decide +kernel
  obtain ⟨assembly, hassembly, hall⟩ := exists_of_viewed? hview
  have hlines : ∀ line ∈ ["drumdef DR_kick, PE_boom", "noteOnSq2 15, PI_lead"],
      ∃ table ∈ assembly.tables, line ∈ tableLines assembly table := fun line hline =>
    List.mem_flatMap.mp (List.contains_iff_mem.mp (List.all_eq_true.mp hall line hline))
  obtain ⟨-, hwritten, -, -, hresolved⟩ := written_and_resolved hassembly
  have hdrum := hlines "drumdef DR_kick, PE_boom" (by decide)
  have hnote := hlines "noteOnSq2 15, PI_lead" (by decide)
  refine ⟨assembly, hassembly, hdrum, ?_, hnote, ?_, hresolved⟩
  · obtain ⟨table, htable, hline⟩ := hdrum
    exact (hwritten table htable _ hline "PE_boom" (by decide) .sfx).1 (by decide)
  · obtain ⟨table, htable, hline⟩ := hnote
    exact (hwritten table htable _ hline "PI_lead" (by decide) .instruments).1 (by decide)

end Assembly

end Chiptune
