import Chiptune.Output.Listing
import Chiptune.Proofs.Output.Identifiers
import Chiptune.Proofs.References
import Chiptune.Proofs.Rendering

/-!
# Labels in the lines of tables

The labels of entries and of data blocks are told apart by their beginnings, so it is
enough to look at the identifiers of each line. Every identifier that begins like the
labels of a table is the label of an entry of that table, and every one that begins like
the labels of its data is the label of a data block.
-/

namespace Chiptune

open Output Step

/-! ## Beginnings of labels -/

namespace Directory

theorem isWord_start (directory : Directory) : IsWord directory.start := by
  cases directory <;> exact ⟨by decide, List.all_eq_true.mp (by decide)⟩

theorem isWord_blockStart {directory : Directory} (h : directory ≠ drums) :
    IsWord directory.blockStart := by
  cases directory <;> first | contradiction | exact ⟨by decide, List.all_eq_true.mp (by decide)⟩

/-- Letters and digits alone begin no label. -/
theorem underscore_mem_start (directory : Directory) : '_' ∈ directory.start.toList := by
  cases directory <;> decide

theorem underscore_mem_blockStart {directory : Directory} (h : directory ≠ drums) :
    '_' ∈ directory.blockStart.toList := by
  cases directory <;> first | contradiction | decide

section Prefixes

variable {directory other : Directory} {word : List Char}

theorem eq_of_start_start
    (h : directory.start.toList <+: word) (hother : other.start.toList <+: word) :
    other = directory := by
  -- of two beginnings of one word the shorter begins the longer
  have hboth := List.prefix_or_prefix_of_prefix h hother
  revert hboth
  cases directory <;> cases other <;> decide

theorem eq_drums_of_start_blockStart
    (h : directory.start.toList <+: word) (hother : other.blockStart.toList <+: word) :
    other = drums := by
  have hboth := List.prefix_or_prefix_of_prefix h hother
  revert hboth
  cases directory <;> cases other <;> decide

theorem eq_of_blockStart_blockStart
    (hne : directory ≠ drums) (h : directory.blockStart.toList <+: word)
    (hotherNe : other ≠ drums) (hother : other.blockStart.toList <+: word) :
    other = directory := by
  have hboth := List.prefix_or_prefix_of_prefix h hother
  revert hboth hne hotherNe
  cases directory <;> cases other <;> decide

end Prefixes

end Directory

/-! ## Linked words -/

namespace Assembly

/-- A word that begins like the labels of a table is the label of an entry of the table, and
one that begins like the labels of its data is the label of a data block of the table. -/
def Linked (assembly : Assembly) (word : String) : Prop :=
  ∀ directory,
    (directory.start.toList <+: word.toList →
      word ∈ (assembly.entriesOf directory).map (·.label)) ∧
    (directory ≠ .drums → directory.blockStart.toList <+: word.toList →
      word ∈ dataLabels (assembly.entriesOf directory))

/-- Whether a word begins like no label. -/
def isForeign (word : String) : Bool :=
  [Directory.sfx, .instruments, .drums, .patterns, .songs].all fun directory =>
    !directory.start.toList.isPrefixOf word.toList &&
      (directory == .drums || !directory.blockStart.toList.isPrefixOf word.toList)

variable {assembly : Assembly}

theorem linked_of_isForeign {word : String} (h : isForeign word = true) :
    assembly.Linked word := by
  intro directory
  have hmem : directory ∈ [Directory.sfx, .instruments, .drums, .patterns, .songs] := by
    cases directory <;> decide
  have hown := List.all_eq_true.mp h directory hmem
  simp only [Bool.and_eq_true, Bool.not_eq_true', Bool.or_eq_true, beq_iff_eq] at hown
  constructor
  · intro hstart
    rw [List.isPrefixOf_iff_prefix.mpr hstart] at hown
    exact absurd hown.1 (by decide)
  · intro hne hstart
    rw [List.isPrefixOf_iff_prefix.mpr hstart] at hown
    exact absurd (hown.2.resolve_left hne) (by decide)

theorem linked_of_underscore_not_mem {word : String} (h : '_' ∉ word.toList) :
    assembly.Linked word := by
  intro directory
  constructor
  · intro hstart
    exact absurd (hstart.mem directory.underscore_mem_start) h
  · intro hne hstart
    exact absurd (hstart.mem (Directory.underscore_mem_blockStart hne)) h

/-- Every identifier of the text is linked. -/
def Written (assembly : Assembly) (text : String) : Prop :=
  ∀ word ∈ identifiers text, assembly.Linked word

theorem written_of_isForeign {text : String} (h : (identifiers text).all isForeign = true) :
    assembly.Written text :=
  fun word hword => linked_of_isForeign (List.all_eq_true.mp h word hword)

theorem written_of_underscore_not_mem {text : String} (h : '_' ∉ text.toList) :
    assembly.Written text := by
  intro word hword
  exact linked_of_underscore_not_mem fun hmem => h (mem_toList_of_mem_identifiers hword hmem)

theorem Written.of_linked {text : String} (h : assembly.Linked text) (hword : IsWord text) :
    assembly.Written text := by
  intro word hmem
  rw [hword.identifiers, List.mem_singleton] at hmem
  exact hmem ▸ h

/-- A text behind an opening that ends a word. -/
theorem Written.behind
    {opening text : String} (h : assembly.Written text) (hopening : '_' ∉ opening.toList)
    (hends : endsApart opening = true) : assembly.Written (opening ++ text) := by
  intro word hword
  rw [identifiers_append_of_endsApart hends, List.mem_append] at hword
  exact hword.elim (written_of_underscore_not_mem hopening word) (h word)

theorem Written.between
    {first second separator : String} (hfirst : assembly.Written first)
    (hsecond : assembly.Written second) (hseparator : isSeparator separator = true) :
    assembly.Written (first ++ separator ++ second) := by
  intro word hword
  rw [identifiers_between first hseparator, List.mem_append] at hword
  exact hword.elim (hfirst word) (hsecond word)

theorem written_operands
    {operands : List String} (h : ∀ operand ∈ operands, assembly.Written operand) :
    assembly.Written (String.intercalate ", " operands) := by
  intro word hword
  rw [identifiers_intercalate (by decide), List.mem_flatMap] at hword
  obtain ⟨operand, hoperand, hmem⟩ := hword
  exact h operand hoperand word hmem

theorem written_length (length : NoteLength) : assembly.Written length.operand := by
  cases length <;> exact written_of_isForeign (by decide)

theorem written_natText (n : Nat) : assembly.Written (Text.natText n) :=
  written_of_underscore_not_mem (underscore_not_mem_natText n)

theorem written_intText (n : Int) : assembly.Written (Text.intText n) :=
  written_of_underscore_not_mem (underscore_not_mem_intText n)

section OfScore

variable {score : Score} {diagnostics : Diagnostics} (h : ofScore score diagnostics = .ok assembly)
include h

theorem entriesOf_directory {table : DirectoryTable} (htable : table ∈ assembly.tables) :
    assembly.entriesOf table.directory = table.entries := by
  obtain ⟨drums, patterns, songs, -, -, -, -, htables⟩ := ofScore_eq_ok h
  rw [htables] at htable
  simp only [List.mem_cons, List.not_mem_nil, or_false] at htable
  rcases htable with rfl | rfl | rfl | rfl | rfl <;> simp [entriesOf, htables]

theorem labelled_entriesOf (directory : Directory) :
    Labelled score directory (assembly.entriesOf directory) := by
  obtain ⟨table, htable, rfl⟩ := exists_table h directory
  rw [entriesOf_directory h htable]
  exact labelled_tables h table htable

theorem linked_label
    (directory : Directory) {name : String} (hname : name ∈ score.names directory) :
    assembly.Linked (directory.start ++ Name.label name) := by
  have hstart : directory.start.toList <+: (directory.start ++ Name.label name).toList := by
    rw [String.toList_append]
    exact List.prefix_append _ _
  intro other
  constructor
  · intro hother
    rw [Directory.eq_of_start_start hstart hother, (labelled_entriesOf h directory).labels]
    exact List.mem_map_of_mem hname
  · intro hne hother
    exact absurd (Directory.eq_drums_of_start_blockStart hstart hother) hne

theorem linked_block
    (directory : Directory) {name : String} (hname : name ∈ score.blockNames directory) :
    assembly.Linked (directory.blockStart ++ Name.label name) := by
  have hne := Score.ne_drums_of_mem_blockNames hname
  have hstart :
      directory.blockStart.toList <+: (directory.blockStart ++ Name.label name).toList := by
    rw [String.toList_append]
    exact List.prefix_append _ _
  intro other
  constructor
  · intro hother
    exact absurd (Directory.eq_drums_of_start_blockStart hother hstart) hne
  · intro hotherNe hother
    rw [Directory.eq_of_blockStart_blockStart hne hstart hotherNe hother,
      (labelled_entriesOf h directory).blocks]
    exact List.mem_map_of_mem hname

theorem written_label
    (directory : Directory) {name : String} (hname : name ∈ score.names directory) :
    assembly.Written (directory.start ++ Name.label name) :=
  .of_linked (linked_label h directory hname) (isWord_append_label directory.isWord_start name)

theorem written_block
    (directory : Directory) {name : String} (hname : name ∈ score.blockNames directory) :
    assembly.Written (directory.blockStart ++ Name.label name) := by
  have hne := Score.ne_drums_of_mem_blockNames hname
  exact .of_linked (linked_block h directory hname)
    (isWord_append_label (Directory.isWord_blockStart hne) name)

theorem written_of_mem_dataLabels
    {directory : Directory} {label : String}
    (hlabel : label ∈ dataLabels (assembly.entriesOf directory)) : assembly.Written label := by
  rw [(labelled_entriesOf h directory).blocks] at hlabel
  obtain ⟨name, hname, rfl⟩ := List.mem_map.mp hlabel
  exact written_block h directory hname

end OfScore

end Assembly

/-! ## Words of entries -/

/-- The identifiers of the definition of an entry and of its data. -/
def Entry.words (entry : Entry) : List String :=
  identifiers entry.definition ++ (entry.data.toList.flatMap (·.atoms)).flatMap identifiers

theorem mem_identifiers_label (directory : Directory) (name : String) :
    directory.start ++ Name.label name ∈ identifiers (directory.start ++ Name.label name) := by
  rw [(isWord_append_label directory.isWord_start name).identifiers]
  exact List.mem_cons_self

theorem mem_identifiers_block
    (directory : Directory) (h : directory ≠ .drums) (name : String) :
    directory.blockStart ++ Name.label name ∈
      identifiers (directory.blockStart ++ Name.label name) := by
  rw [(isWord_append_label (Directory.isWord_blockStart h) name).identifiers]
  exact List.mem_cons_self

theorem Entry.mem_words_of_atom
    {entry : Entry} {block : DataBlock} {atom word : String} (hblock : entry.data = some block)
    (hatom : atom ∈ block.atoms) (h : word ∈ identifiers atom) : word ∈ entry.words := by
  have hatoms : atom ∈ entry.data.toList.flatMap (·.atoms) := by simpa [hblock] using hatom
  exact List.mem_append_right _ (List.mem_flatMap.mpr ⟨atom, hatoms, h⟩)

/-- A note code is its sound, or that and a length behind a bar. -/
theorem PatternCode.text_note (sound : Sound) (length : Option NoteLength) :
    (note sound length).text = sound.text ∨
      ∃ found : NoteLength, (note sound length).text = sound.text ++ "|" ++ found.operand := by
  cases length with
  | none => exact .inl (by simp [text])
  | some length =>
      simp only [text, Option.map_some, Option.getD_some, NoteLength.suffix]
      split
      · exact .inl (by simp)
      · exact .inr ⟨length, by rw [String.append_assoc]⟩

namespace Assembly

variable {assembly : Assembly}

theorem linked_words
    {entry : Entry} (hdefinition : assembly.Written entry.definition)
    (hatoms : ∀ block, entry.data = some block → ∀ atom ∈ block.atoms, assembly.Written atom) :
    ∀ word ∈ entry.words, assembly.Linked word := by
  intro word hword
  rcases List.mem_append.mp hword with hword | hword
  · exact hdefinition word hword
  · obtain ⟨atom, hatom, hmem⟩ := List.mem_flatMap.mp hword
    obtain ⟨block, hblock, hatom⟩ := List.mem_flatMap.mp hatom
    exact hatoms block (Option.mem_toList.mp hblock) atom hatom word hmem

/-- Words of hexadecimal digits. -/
theorem written_hex (count n : Nat) : assembly.Written ("$" ++ Text.upperHex count n) :=
  (written_of_underscore_not_mem (underscore_not_mem_upperHex count n)).behind
    (by decide) (by decide)

section OfScore

variable {score : Score} {diagnostics : Diagnostics} (h : ofScore score diagnostics = .ok assembly)
include h

theorem linked_effect {effect : SoundEffect} (hmem : effect ∈ score.sfx.entries) :
    ∀ word ∈ effect.entry.words, assembly.Linked word := by
  have hname : effect.name ∈ score.sfx.names := List.mem_map_of_mem hmem
  apply linked_words
  · apply Written.behind _ (by decide) (by decide)
    apply written_operands
    simp only [List.forall_mem_cons]
    exact ⟨written_label h .sfx hname, written_block h .sfx hname, written_natText _,
      written_natText _, written_natText _, nofun⟩
  · intro block hblock atom hatom
    cases hblock
    obtain ⟨word, -, rfl⟩ := List.mem_map.mp hatom
    exact written_hex 4 word

theorem linked_instrument
    {instrument : Instrument} (hmem : instrument ∈ score.instruments.entries) :
    ∀ word ∈ instrument.entry.words, assembly.Linked word := by
  have hname : instrument.name ∈ score.instruments.names := List.mem_map_of_mem hmem
  apply linked_words
  · apply Written.behind _ (by decide) (by decide)
    apply written_operands
    simp only [List.forall_mem_cons]
    refine ⟨written_label h .instruments hname, written_natText _, written_natText _,
      written_natText _, ?_, ?_, written_natText _, nofun⟩
    · split <;> exact written_of_underscore_not_mem (by decide)
    · split
      · next hattack =>
          have hblock : instrument.name ∈ score.blockNames .instruments :=
            List.mem_map_of_mem (List.mem_filter.mpr ⟨hmem, by simpa using hattack⟩)
          exact written_block h .instruments hblock
      · exact written_of_underscore_not_mem (by decide)
  · intro block hblock atom hatom
    simp only [Instrument.entry] at hblock
    split at hblock
    · cases hblock
      obtain ⟨byte, -, rfl⟩ := List.mem_map.mp hatom
      exact written_hex 2 byte
    · cases hblock

theorem linked_drum
    {drum : Drum} (hmem : drum ∈ score.drums.entries) {entry : Entry}
    (hentry : drum.entry score.sfx = .ok entry) : ∀ word ∈ entry.words, assembly.Linked word := by
  have hname : drum.name ∈ score.drums.names := List.mem_map_of_mem hmem
  obtain ⟨labels, hlabels, hpure⟩ := outcome_bind_eq_ok hentry
  cases hpure
  apply linked_words
  · apply Written.behind _ (by decide) (by decide)
    apply written_operands
    rw [List.forall_mem_cons]
    refine ⟨written_label h .drums hname, ?_⟩
    intro label hlabel
    obtain ⟨name, -, heffect⟩ := forall₂_mem_right (forall₂_of_mapM hlabels) hlabel
    obtain ⟨effect, hresolve, rfl⟩ := Drum.effectLabel_eq_ok heffect
    exact written_label h .sfx (Registry.mem_names_of_resolve? hresolve)
  · intro block hblock
    cases hblock

/-- A definition that only gives the labels of an entry and of its data. -/
theorem written_definition
    (directory : Directory) {name : String} (hname : name ∈ score.names directory)
    (hblock : name ∈ score.blockNames directory) {opening : String}
    (hopening : '_' ∉ opening.toList) (hends : endsApart opening = true) :
    assembly.Written
      (opening ++ (directory.start ++ Name.label name) ++ ", " ++
        (directory.blockStart ++ Name.label name)) :=
  ((written_label h directory hname).behind hopening hends).between
    (written_block h directory hblock) (by decide)

theorem written_sound
    {sound : Sound} {length : Option NoteLength}
    (hcode : score.orchestra.Names (.note sound length)) : assembly.Written sound.text := by
  cases sound with
  | pitch offset =>
      have hforeign : ∀ offset : Fin 25,
          (identifiers (Sound.pitchNames.getD offset "")).all isForeign = true := by decide
      exact written_of_isForeign (hforeign offset)
  | rest => exact written_of_underscore_not_mem (by decide)
  | tie => exact written_of_isForeign (by decide)
  | drum label =>
      obtain ⟨name, hname, rfl⟩ := hcode
      exact written_label h .drums hname

theorem written_code {code : PatternCode} (hcode : score.orchestra.Names code) :
    assembly.Written code.text := by
  cases code with
  | note sound length =>
      have hsound := written_sound h hcode
      rcases PatternCode.text_note sound length with htext | ⟨found, htext⟩
      · exact htext ▸ hsound
      · exact htext ▸ hsound.between (written_length found) (by decide)
  | grace frames =>
      exact (written_natText frames).behind (by decide) (by decide)
  | transpose semitones =>
      exact (written_intText semitones).behind (by decide) (by decide)
  | instrument label =>
      obtain ⟨name, hname, rfl⟩ := hcode
      exact (written_label h .instruments hname).behind (by decide) (by decide)
  | arpeggio chord =>
      exact (written_of_underscore_not_mem (underscore_not_mem_code chord)).behind
        (by decide) (by decide)
  | bend rate =>
      exact (written_of_underscore_not_mem (underscore_not_mem_upperHex 2 rate)).behind
        (by decide) (by decide)
  | vibrato depth =>
      exact (written_natText depth).behind (by decide) (by decide)
  | channelVolume level =>
      exact (written_natText level).behind (by decide) (by decide)
  | fastArpeggio | slowArpeggio | patternEnd => exact written_of_underscore_not_mem (by decide)
  | legatoOn | legatoOff => exact written_of_isForeign (by decide)

theorem linked_pattern
    {pattern : Pattern} (hmem : pattern ∈ score.patterns.entries) {entry : Entry}
    (hentry : pattern.entry score.orchestra = .ok entry) :
    ∀ word ∈ entry.words, assembly.Linked word := by
  have hname : pattern.name ∈ score.patterns.names := List.mem_map_of_mem hmem
  obtain ⟨codes, hcodes, hpure⟩ := outcome_bind_eq_ok hentry
  cases hpure
  apply linked_words
  · exact written_definition h .patterns hname hname (by decide) (by decide)
  · intro block hblock atom hatom
    cases hblock
    obtain ⟨code, hcode, rfl⟩ := List.mem_map.mp hatom
    exact written_code h (Pattern.names_encode hcodes code hcode)

theorem written_operand
    {song : Song} {asked : Option String} {pattern : Pattern} {operand : String}
    (hoperand : song.IsOperand score asked pattern operand) : assembly.Written operand := by
  unfold Song.IsOperand at hoperand
  split at hoperand
  · obtain ⟨instrument, hresolve, rfl⟩ := hoperand
    exact written_label h .instruments (Registry.mem_names_of_resolve? hresolve)
  · rw [hoperand]
    exact written_of_underscore_not_mem (by decide)

theorem written_command
    {song : Song} {event : ConductorEvent} {line : String} {before after : Diagnostics}
    (hline : song.command score event before = .ok line after) : assembly.Written line := by
  cases event with
  | play name track asked transpose place =>
      obtain ⟨pattern, hresolve, hplay⟩ := Song.playCommand_eq_ok hline
      have hlabel := written_label h .patterns (Registry.mem_names_of_resolve? hresolve)
      rcases hplay with ⟨-, rfl⟩ | ⟨-, track, base, operand, -, -, -, hoperand, rfl⟩
      · exact hlabel.behind (by decide) (by decide)
      · have hcommand : assembly.Written ("playPat" ++ track.suffix) := by
          cases track <;> exact written_of_underscore_not_mem (by decide)
        exact (hcommand.between hlabel (by decide)).between
          ((written_intText _).between (written_operand h hoperand) (by decide)) (by decide)
  | noteOn track pitch name place =>
      obtain ⟨instrument, hresolve, rfl⟩ := Song.noteOn_eq_ok hline
      have hcommand : assembly.Written ("noteOn" ++ track.suffix) := by
        cases track <;> exact written_of_underscore_not_mem (by decide)
      have hlabel := written_label h .instruments (Registry.mem_names_of_resolve? hresolve)
      exact (hcommand.between (written_intText pitch) (by decide)).between hlabel (by decide)
  | setTempo rowsPerMinute =>
      cases hline
      exact (written_natText rowsPerMinute).behind (by decide) (by decide)
  | setBeat length =>
      cases hline
      exact (written_length length).behind (by decide) (by decide)
  | waitRows rows =>
      cases hline
      exact (written_natText rows).behind (by decide) (by decide)
  | stop track | attackOn track =>
      cases hline
      cases track <;> exact written_of_underscore_not_mem (by decide)
  | segno | fine | dalSegno =>
      cases hline
      exact written_of_underscore_not_mem (by decide)

theorem linked_song
    {song : Song} (hmem : song ∈ score.songs.entries) {entry : Entry}
    {before after : Diagnostics} (hentry : song.entry score before = .ok entry after) :
    ∀ word ∈ entry.words, assembly.Linked word := by
  have hname : song.name ∈ score.songs.names := List.mem_map_of_mem hmem
  obtain ⟨lines, _, hlines, hpure⟩ := bind_eq_ok hentry
  cases hpure
  apply linked_words
  · exact written_definition h .songs hname hname (by decide) (by decide)
  · intro block hblock line hline
    cases hblock
    obtain ⟨event, -, before, after, hcommand⟩ :=
      forall₂_mem_right (Song.forall₂_of_commands hlines) hline
    exact written_command h hcommand

/-! ## Lines of tables -/

/-- What holds of the entry of every entity holds of every entry of every table. -/
theorem forall_entries
    (p : Directory → Entry → Prop) (hsfx : ∀ effect ∈ score.sfx.entries, p .sfx effect.entry)
    (hinstruments : ∀ instrument ∈ score.instruments.entries, p .instruments instrument.entry)
    (hdrums : ∀ drum ∈ score.drums.entries, ∀ entry,
      drum.entry score.sfx = .ok entry → p .drums entry)
    (hpatterns : ∀ pattern ∈ score.patterns.entries, ∀ entry,
      pattern.entry score.orchestra = .ok entry → p .patterns entry)
    (hsongs : ∀ song ∈ score.songs.entries, ∀ entry before after,
      song.entry score before = .ok entry after → p .songs entry) :
    ∀ table ∈ assembly.tables, ∀ entry ∈ table.entries, p table.directory entry := by
  obtain ⟨drums, patterns, songs, hdrumRuns, hpatternRuns, hsongRuns, -, htables⟩ :=
    ofScore_eq_ok h
  rw [htables]
  intro table htable entry hentry
  simp only [List.mem_cons, List.not_mem_nil, or_false] at htable
  rcases htable with rfl | rfl | rfl | rfl | rfl
  · obtain ⟨effect, heffect, rfl⟩ := List.mem_map.mp hentry
    exact hsfx effect heffect
  · obtain ⟨instrument, hinstrument, rfl⟩ := List.mem_map.mp hentry
    exact hinstruments instrument hinstrument
  · obtain ⟨drum, hdrum, hrun⟩ := forall₂_mem_right (forall₂_of_mapM hdrumRuns) hentry
    exact hdrums drum hdrum entry (eq_ok_of_faultAt hrun)
  · obtain ⟨pattern, hpattern, hrun⟩ :=
      forall₂_mem_right (forall₂_of_mapM hpatternRuns) hentry
    exact hpatterns pattern hpattern entry (eq_ok_of_faultAt hrun)
  · obtain ⟨song, hsong, before, after, hrun⟩ :=
      forall₂_mem_right (forall₂_of_songEntries hsongRuns) hentry
    exact hsongs song hsong entry before after hrun

theorem linked_entry
    {table : DirectoryTable} (htable : table ∈ assembly.tables) {entry : Entry}
    (hentry : entry ∈ table.entries) : ∀ word ∈ entry.words, assembly.Linked word := by
  refine forall_entries h (fun _ entry => ∀ word ∈ entry.words, assembly.Linked word)
    ?_ ?_ ?_ ?_ ?_ table htable entry hentry
  · exact fun _ hmem => linked_effect h hmem
  · exact fun _ hmem => linked_instrument h hmem
  · exact fun _ hmem _ hrun => linked_drum h hmem hrun
  · exact fun _ hmem _ hrun => linked_pattern h hmem hrun
  · exact fun _ hmem _ _ _ hrun => linked_song h hmem hrun

/-- The labels of an alias and of its base are those of blocks of one table. -/
theorem mem_dataLabels_of_alias
    {label : String} {found : Alias} (halias : (label, found) ∈ assembly.aliases) :
    ∃ directory, label ∈ dataLabels (assembly.entriesOf directory) ∧
      found.base ∈ dataLabels (assembly.entriesOf directory) := by
  obtain ⟨table, htable, -, hfound⟩ := exists_table_of_mem_aliases h halias
  refine ⟨table.directory, ?_⟩
  rw [entriesOf_directory h htable]
  exact ⟨mem_dataLabels_of_mem_tableAliases hfound,
    base_mem_dataLabels_of_mem_tableAliases hfound⟩

omit h in
theorem written_blockLines
    {block : DataBlock} (hatoms : ∀ atom ∈ block.atoms, assembly.Written atom) :
    ∀ line ∈ blockLines block, assembly.Written line := by
  have hwrapped : ∀ opening, '_' ∉ opening.toList → endsApart opening = true →
      ∀ line ∈ wrap opening block.atoms, assembly.Written line := by
    intro opening hopening hends line hline word hword
    rcases mem_identifiers_of_mem_wrap hends hline hword with hword | ⟨atom, hatom, hword⟩
    · exact written_of_underscore_not_mem hopening word hword
    · exact hatoms atom hatom word hword
  unfold blockLines
  cases block.format with
  | statements => exact hatoms
  | bytes => exact hwrapped _ (by decide) (by decide)
  | words => exact hwrapped _ (by decide) (by decide)

theorem written_dataLines
    {table : DirectoryTable} (htable : table ∈ assembly.tables) {entry : Entry}
    (hentry : entry ∈ table.entries) {block : DataBlock} (hblock : entry.data = some block) :
    ∀ line ∈ dataLines assembly block, assembly.Written line := by
  have hlabel : assembly.Written block.label := by
    have hmem : block.label ∈ dataLabels table.entries :=
      List.mem_map_of_mem (List.mem_filterMap.mpr ⟨entry, hentry, hblock⟩)
    rw [← entriesOf_directory h htable] at hmem
    exact written_of_mem_dataLabels h hmem
  unfold dataLines
  split
  · next found halias =>
      obtain ⟨before, after, haliases, -⟩ := List.lookup_eq_some_iff.mp halias
      have hmem : (block.label, found) ∈ assembly.aliases := by simp [haliases]
      obtain ⟨directory, -, hbase⟩ := mem_dataLabels_of_alias h hmem
      rw [List.forall_mem_singleton]
      exact (hlabel.between (written_of_mem_dataLabels h hbase) (by decide)).between
        (written_natText found.offset) (by decide)
  · rw [List.forall_mem_cons]
    constructor
    · have hnothing : assembly.Written "" := written_of_underscore_not_mem (by decide)
      have hcolon : isSeparator ":" = true := by decide
      simpa using hlabel.between hnothing hcolon
    · apply written_blockLines
      intro atom hatom word hword
      exact linked_entry h htable hentry word (Entry.mem_words_of_atom hblock hatom hword)

theorem written_tableLines
    {table : DirectoryTable} (htable : table ∈ assembly.tables) :
    ∀ line ∈ tableLines assembly table, assembly.Written line := by
  have hlabel : assembly.Written table.directory.label := by
    cases table.directory <;> exact written_of_isForeign (by decide)
  have hplural : assembly.Written (if table.entries.length = 1 then "entry" else "entries") := by
    split <;> exact written_of_underscore_not_mem (by decide)
  have hbytes : assembly.Written (Text.natText table.byteSize ++ " bytes") := by
    apply written_of_underscore_not_mem
    rw [String.toList_append, List.mem_append]
    exact not_or.mpr ⟨underscore_not_mem_natText _, by decide⟩
  unfold tableLines
  rw [List.forall_mem_append, List.forall_mem_cons]
  refine ⟨⟨?_, ?_⟩, ?_⟩
  · exact (((hlabel.between (written_natText _) (by decide)).between hplural (by decide)).between
      hbytes (by decide))
  · intro line hline
    obtain ⟨entry, hentry, rfl⟩ := List.mem_map.mp hline
    intro word hword
    exact linked_entry h htable hentry word (List.mem_append_left _ hword)
  · intro line hline
    obtain ⟨block, hblock, hline⟩ := List.mem_flatMap.mp hline
    obtain ⟨entry, hentry, hdata⟩ := List.mem_filterMap.mp hblock
    exact written_dataLines h htable hentry hdata line hline

end OfScore

end Assembly

end Chiptune
