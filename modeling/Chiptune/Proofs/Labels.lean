import Chiptune.Proofs.Assembly
import Chiptune.Proofs.Packing
import Mathlib.Data.List.Nodup

/-!
# Labels of the output

A label keeps of a name its alphanumeric runs and nothing else. The names of a registry
are distinct, so two entries of a table share a label exactly if their names differ in
other characters alone. Data labels of different tables never meet, since each table
has a beginning of its own for them.
-/

namespace Chiptune

/-! ## Names and labels -/

namespace Name

/-- The alphanumeric runs of a name. -/
def runs (name : String) : List (List Char) :=
  (name.toList.splitOnP fun c => !Text.isAlphanumeric c).filter fun run => !run.isEmpty

/-- What stands in a part stands in the whole and separates nothing. -/
theorem forall_mem_of_mem_splitOnP
    {α : Type} {p : α → Bool} {items part : List α} (h : part ∈ items.splitOnP p) :
    ∀ item ∈ part, item ∈ items ∧ p item = false := by
  induction items generalizing part with
  | nil =>
      rw [List.splitOnP_nil, List.mem_singleton] at h
      simp [h]
  | cons item items ih =>
      have hlater : ∀ {part}, part ∈ items.splitOnP p →
          ∀ other ∈ part, other ∈ item :: items ∧ p other = false :=
        fun hpart other hother =>
          ⟨List.mem_cons_of_mem _ (ih hpart other hother).1, (ih hpart other hother).2⟩
      rw [List.splitOnP_cons_eq_if_modifyHead] at h
      by_cases hitem : p item = true
      · rw [if_pos hitem] at h
        rcases List.mem_cons.mp h with rfl | h
        · simp
        · exact hlater h
      · rw [if_neg hitem] at h
        obtain ⟨first, rest, hsplit⟩ := List.exists_cons_of_ne_nil (List.splitOnP_ne_nil p items)
        rw [hsplit, List.modifyHead_cons] at h
        rcases List.mem_cons.mp h with rfl | h
        · intro other hother
          rcases List.mem_cons.mp hother with rfl | hother
          · exact ⟨List.mem_cons_self, by simpa using hitem⟩
          · exact hlater (hsplit ▸ List.mem_cons_self) other hother
        · exact hlater (hsplit ▸ List.mem_cons_of_mem _ h)

theorem isAlphanumeric_of_mem_runs
    {name : String} {run : List Char} (h : run ∈ runs name) {c : Char} (hc : c ∈ run) :
    Text.isAlphanumeric c = true := by
  have hpart := (forall_mem_of_mem_splitOnP (List.mem_filter.mp h).1 c hc).2
  simpa using hpart

theorem toList_label (name : String) :
    (label name).toList = ['_'].intercalate (runs name) := by
  change (String.intercalate "_" ((runs name).map String.ofList)).toList = _
  rw [String.toList_intercalate, List.map_map]
  simp [Function.comp_def]

/-- The runs of a name are read back from its label. -/
theorem runs_eq_of_label (name : String) :
    runs name = ((label name).toList.splitOn '_').filter fun run => !run.isEmpty := by
  have hkept : ∀ run ∈ runs name, (!run.isEmpty) = true := fun run hrun =>
    (List.mem_filter.mp hrun).2
  rw [toList_label]
  by_cases hnone : runs name = []
  · rw [hnone]
    rfl
  · have hbreak : ∀ run ∈ runs name, '_' ∉ run := by
      intro run hrun hmem
      have halnum := isAlphanumeric_of_mem_runs hrun hmem
      exact absurd halnum (by decide)
    rw [List.splitOn_intercalate '_' hbreak hnone, List.filter_eq_self.mpr hkept]

/-- Labels agree exactly if the names have the same runs. -/
theorem label_eq_label_iff {first second : String} :
    label first = label second ↔ runs first = runs second := by
  constructor
  · intro h
    rw [runs_eq_of_label, runs_eq_of_label second, h]
  · intro h
    apply String.toList_inj.mp
    rw [toList_label, toList_label, h]

/-- No two of the names differ in other than alphanumeric characters alone. -/
def Apart (names : List String) : Prop :=
  ∀ first ∈ names, ∀ second ∈ names, runs first = runs second → first = second

theorem nodup_map_label_iff
    {names : List String} (h : names.Nodup) (start : String) :
    (names.map fun name => start ++ label name).Nodup ↔ Apart names := by
  rw [List.nodup_map_iff_inj_on h]
  simp only [String.append_right_inj, label_eq_label_iff]
  rfl

/-- A name whose runs stand between pairs of colons, with nothing else in it. -/
def IsPath (name : String) : Prop :=
  name = String.intercalate "::" ((runs name).map String.ofList)

theorem apart_of_isPath {names : List String} (h : ∀ name ∈ names, IsPath name) :
    Apart names := by
  intro first hfirst second hsecond hruns
  have hpath := h first hfirst
  rw [IsPath, hruns] at hpath
  exact hpath.trans (h second hsecond).symm

end Name

/-! ## The entries of tables -/

namespace Directory

/-- The beginning of the labels of entries. -/
def start : Directory → String
  | sfx => "PE_"
  | instruments => "PI_"
  | drums => "DR_"
  | patterns => "PP_"
  | songs => "PS_"

/-- The beginning of the labels of data blocks; drums have none. -/
def blockStart : Directory → String
  | sfx => "PEDAT_"
  | instruments => "PIDAT_"
  | drums => ""
  | patterns => "PPDAT_"
  | songs => "PSDAT_"

theorem eq_of_blockStart
    {first second : Directory} {rest rest' : String} (hfirst : first ≠ drums)
    (hsecond : second ≠ drums)
    (h : first.blockStart ++ rest = second.blockStart ++ rest') : first = second := by
  -- the second letters differ
  have hletter := congrArg (fun text => text.toList[1]?) h
  cases first <;> cases second <;> first | rfl | contradiction | simp [blockStart] at hletter

end Directory

namespace Score

/-- The names of the entities of a table. -/
def names (score : Score) : Directory → List String
  | .sfx => score.sfx.names
  | .instruments => score.instruments.names
  | .drums => score.drums.names
  | .patterns => score.patterns.names
  | .songs => score.songs.names

/-- The instruments that have an attack, which is their data. -/
def attacking (score : Score) : List Instrument :=
  score.instruments.entries.filter fun instrument => 0 < instrument.attack.length

/-- The names of the entities of a table that have data. -/
def blockNames (score : Score) : Directory → List String
  | .instruments => score.attacking.map (·.name)
  | .drums => []
  | directory => score.names directory

theorem ne_drums_of_mem_blockNames
    {score : Score} {directory : Directory} {name : String}
    (h : name ∈ score.blockNames directory) : directory ≠ .drums := by
  rintro rfl
  cases h

theorem blockNames_sublist (score : Score) (directory : Directory) :
    (score.blockNames directory).Sublist (score.names directory) := by
  cases directory with
  | instruments => exact List.Sublist.map _ List.filter_sublist
  | drums => exact List.nil_sublist _
  | sfx => exact List.Sublist.refl _
  | patterns => exact List.Sublist.refl _
  | songs => exact List.Sublist.refl _

/-- The names of every registry are distinct. -/
def Distinct (score : Score) : Prop := ∀ directory, (score.names directory).Nodup

theorem Distinct.nodup_blockNames
    {score : Score} (h : score.Distinct) (directory : Directory) :
    (score.blockNames directory).Nodup :=
  (h directory).sublist (score.blockNames_sublist directory)

/-- Every name has its runs between pairs of colons. -/
def NamesArePaths (score : Score) : Prop :=
  ∀ directory, ∀ name ∈ score.names directory, Name.IsPath name

end Score

namespace Assembly

open Step

/-- The entries of a table have the labels of the names, and so have the data blocks. -/
structure Labelled (score : Score) (directory : Directory) (entries : List Entry) : Prop where
  labels : entries.map (·.label) =
    (score.names directory).map fun name => directory.start ++ Name.label name
  blocks : dataLabels entries =
    (score.blockNames directory).map fun name => directory.blockStart ++ Name.label name

theorem dataLabels_cons (entry : Entry) (entries : List Entry) :
    dataLabels (entry :: entries) =
      (entry.data.map (·.label)).toList ++ dataLabels entries := by
  cases h : entry.data <;> simp [dataLabels, dataBlocks, h]

theorem labelled_sfx (score : Score) : Labelled score .sfx (sfxEntries score) := by
  constructor
  · simp [sfxEntries, Score.names, Registry.names, Entity.name, SoundEffect.entry,
      SoundEffect.labelOf, Directory.start]
  · simp [sfxEntries, Score.blockNames, Score.names, Registry.names, Entity.name,
      SoundEffect.entry, Directory.blockStart, dataLabels, dataBlocks]

theorem labelled_instruments (score : Score) :
    Labelled score .instruments (instrumentEntries score) := by
  constructor
  · simp [instrumentEntries, Score.names, Registry.names, Entity.name, Instrument.entry,
      Instrument.labelOf, Directory.start]
  · rw [instrumentEntries, Score.blockNames, Score.attacking]
    induction score.instruments.entries with
    | nil => rfl
    | cons instrument rest ih =>
        rw [List.map_cons, dataLabels_cons, ih]
        by_cases hattack : 0 < instrument.attack.length
        · simp [Instrument.entry, hattack, Directory.blockStart]
        · simp [Instrument.entry, hattack]

section Entities

variable {α : Type} [Entity α] {entities : List α} {entries : List Entry} {start : String}

theorem map_label_of_forall₂
    (h : List.Forall₂
      (fun entity entry => entry.label = start ++ Name.label (Entity.name entity))
      entities entries) :
    entries.map (·.label) =
      (entities.map Entity.name).map fun name => start ++ Name.label name := by
  induction h with
  | nil => rfl
  | cons hentry _ ih => simp [hentry, ih]

theorem dataLabels_of_forall₂
    (h : List.Forall₂
      (fun entity entry =>
        entry.data.map (·.label) = some (start ++ Name.label (Entity.name entity)))
      entities entries) :
    dataLabels entries =
      (entities.map Entity.name).map fun name => start ++ Name.label name := by
  induction h with
  | nil => rfl
  | cons hentry _ ih => simp [dataLabels_cons, hentry, ih]

omit [Entity α] in
theorem dataLabels_eq_nil
    (h : List.Forall₂ (fun (_ : α) entry => entry.data = none) entities entries) :
    dataLabels entries = [] := by
  induction h with
  | nil => rfl
  | cons hentry _ ih => simp [dataLabels_cons, hentry, ih]

end Entities

theorem labelled_drums
    {score : Score} {entries : List Entry} (h : drumEntries score = .ok entries) :
    Labelled score .drums entries := by
  have hentries : List.Forall₂
      (fun (drum : Drum) entry =>
        entry.label = "DR_" ++ Name.label (Entity.name drum) ∧ entry.data = none)
      score.drums.entries entries := by
    refine (forall₂_of_mapM h).imp fun drum entry hentry => ?_
    obtain ⟨labels, -, hlabels⟩ := outcome_bind_eq_ok (eq_ok_of_faultAt hentry)
    cases hlabels
    exact ⟨rfl, rfl⟩
  constructor
  · exact map_label_of_forall₂ (hentries.imp fun _ _ hentry => hentry.1)
  · exact dataLabels_eq_nil (hentries.imp fun _ _ hentry => hentry.2)

theorem labelled_patterns
    {score : Score} {entries : List Entry} (h : patternEntries score = .ok entries) :
    Labelled score .patterns entries := by
  have hentries : List.Forall₂
      (fun (pattern : Pattern) entry =>
        entry.label = "PP_" ++ Name.label (Entity.name pattern) ∧
          entry.data.map (·.label) = some ("PPDAT_" ++ Name.label (Entity.name pattern)))
      score.patterns.entries entries := by
    refine (forall₂_of_mapM h).imp fun pattern entry hentry => ?_
    obtain ⟨codes, -, hcodes⟩ := outcome_bind_eq_ok (eq_ok_of_faultAt hentry)
    cases hcodes
    exact ⟨rfl, rfl⟩
  constructor
  · exact map_label_of_forall₂ (hentries.imp fun _ _ hentry => hentry.1)
  · exact dataLabels_of_forall₂ (hentries.imp fun _ _ hentry => hentry.2)

theorem labelled_songs
    {score : Score} {entries : List Entry} {diagnostics later : Diagnostics}
    (h : songEntries score score.songs.entries diagnostics = .ok entries later) :
    Labelled score .songs entries := by
  have hentries : List.Forall₂
      (fun (song : Song) entry =>
        entry.label = "PS_" ++ Name.label (Entity.name song) ∧
          entry.data.map (·.label) = some ("PSDAT_" ++ Name.label (Entity.name song)))
      score.songs.entries entries := by
    refine (forall₂_of_songEntries h).imp fun song entry ⟨_, _, hentry⟩ => ?_
    obtain ⟨lines, _, -, hlines⟩ := bind_eq_ok hentry
    cases hlines
    exact ⟨rfl, rfl⟩
  constructor
  · exact map_label_of_forall₂ (hentries.imp fun _ _ hentry => hentry.1)
  · exact dataLabels_of_forall₂ (hentries.imp fun _ _ hentry => hentry.2)

theorem labelled_tables
    {score : Score} {diagnostics : Diagnostics} {assembly : Assembly}
    (h : ofScore score diagnostics = .ok assembly) :
    ∀ table ∈ assembly.tables, Labelled score table.directory table.entries := by
  obtain ⟨drums, patterns, songs, hdrums, hpatterns, hsongs, -, htables⟩ := ofScore_eq_ok h
  rw [htables]
  intro table htable
  simp only [List.mem_cons, List.not_mem_nil, or_false] at htable
  rcases htable with rfl | rfl | rfl | rfl | rfl
  · exact labelled_sfx score
  · exact labelled_instruments score
  · exact labelled_drums hdrums
  · exact labelled_patterns hpatterns
  · exact labelled_songs hsongs

theorem distinct_of_readSource
    {files : SourceFiles} {depthLimit : Nat} {source : Reader.Source} {reader : Reader}
    (h : Reader.readSource files source (Reader.initial depthLimit) = .ok () reader) :
    reader.score.Distinct := by
  have horder := inOrder_of_readSource h
  intro directory
  cases directory with
  | sfx => exact horder.sfx
  | instruments => exact horder.instruments
  | drums => exact horder.drums
  | patterns => exact horder.patterns
  | songs => exact horder.songs

/-! ## Distinct labels -/

/-- The labels of all data blocks of the output. -/
def blockLabels (assembly : Assembly) : List String :=
  assembly.tables.flatMap fun table => dataLabels table.entries

/-- Each label that has an alias names one block, and so does the block it lies in, which
is another one and has no alias. -/
def AliasesIdentify (assembly : Assembly) : Prop :=
  ∀ label found, (label, found) ∈ assembly.aliases →
    assembly.blockLabels.count label = 1 ∧ assembly.blockLabels.count found.base = 1 ∧
      found.base ≠ label ∧ assembly.alias? found.base = none

section OfScore

variable {score : Score} {diagnostics : Diagnostics} {assembly : Assembly}

theorem nodup_labels_iff
    (h : ofScore score diagnostics = .ok assembly) (hnames : score.Distinct)
    {table : DirectoryTable} (htable : table ∈ assembly.tables) :
    (table.entries.map (·.label)).Nodup ↔ Name.Apart (score.names table.directory) := by
  rw [(labelled_tables h table htable).labels]
  exact Name.nodup_map_label_iff (hnames table.directory) _

theorem nodup_dataLabels_iff
    (h : ofScore score diagnostics = .ok assembly) (hnames : score.Distinct)
    {table : DirectoryTable} (htable : table ∈ assembly.tables) :
    (dataLabels table.entries).Nodup ↔ Name.Apart (score.blockNames table.directory) := by
  rw [(labelled_tables h table htable).blocks]
  exact Name.nodup_map_label_iff (hnames.nodup_blockNames table.directory) _

theorem exists_table
    (h : ofScore score diagnostics = .ok assembly) (directory : Directory) :
    ∃ table ∈ assembly.tables, table.directory = directory := by
  obtain ⟨drums, patterns, songs, -, -, -, -, htables⟩ := ofScore_eq_ok h
  rw [htables]
  cases directory <;> simp

/-- Data labels of different tables begin differently. -/
theorem disjoint_dataLabels
    (h : ofScore score diagnostics = .ok assembly) :
    assembly.tables.Pairwise fun first second =>
      (dataLabels first.entries).Disjoint (dataLabels second.entries) := by
  have hdirectories : assembly.tables.Pairwise fun first second =>
      first.directory ≠ second.directory := by
    obtain ⟨drums, patterns, songs, -, -, -, -, htables⟩ := ofScore_eq_ok h
    rw [htables]
    simp
  refine hdirectories.imp_of_mem ?_
  intro first second hfirst hsecond hne label hlabel hlabel'
  rw [(labelled_tables h first hfirst).blocks] at hlabel
  rw [(labelled_tables h second hsecond).blocks] at hlabel'
  obtain ⟨name, hname, rfl⟩ := List.mem_map.mp hlabel
  obtain ⟨other, hother, heq⟩ := List.mem_map.mp hlabel'
  have hsame := Directory.eq_of_blockStart (Score.ne_drums_of_mem_blockNames hother)
    (Score.ne_drums_of_mem_blockNames hname) heq
  exact hne hsame.symm

theorem nodup_blockLabels_iff
    (h : ofScore score diagnostics = .ok assembly) (hnames : score.Distinct) :
    assembly.blockLabels.Nodup ↔ ∀ directory, Name.Apart (score.blockNames directory) := by
  rw [blockLabels, List.nodup_flatMap]
  constructor
  · rintro ⟨hnodup, -⟩ directory
    obtain ⟨table, htable, rfl⟩ := exists_table h directory
    exact (nodup_dataLabels_iff h hnames htable).mp (hnodup table htable)
  · intro hapart
    refine ⟨?_, disjoint_dataLabels h⟩
    intro table htable
    exact (nodup_dataLabels_iff h hnames htable).mpr (hapart table.directory)

/-- An alias among entries with distinct labels lies in another block, which has none. -/
theorem Packs.base_of_mem
    {entries : List Entry} (hpacks : assembly.Packs entries)
    (hlabels : (dataLabels entries).Nodup) {label : String} {found : Alias}
    (h : (label, found) ∈ tableAliases entries) :
    found.base ∈ dataLabels entries ∧ found.base ≠ label ∧
      assembly.alias? found.base = none := by
  have hbaseLabel := base_mem_dataLabels_of_mem_tableAliases h
  have hnone := not_mem_tableAliases_base hlabels h
  refine ⟨hbaseLabel, ?_, ?_⟩
  · intro heq
    exact hnone found (heq.symm ▸ h)
  · refine List.lookup_eq_none_iff.mpr ?_
    rintro ⟨other, otherFound⟩ hother
    rw [bne_iff_ne]
    rintro rfl
    exact hnone otherFound (hpacks _ hbaseLabel otherFound hother)

/-- An alias comes from the blocks of one table, which are packed. -/
theorem exists_table_of_mem_aliases
    (h : ofScore score diagnostics = .ok assembly) {label : String} {found : Alias}
    (hmem : (label, found) ∈ assembly.aliases) :
    ∃ table ∈ assembly.tables, assembly.Packs table.entries ∧
      (label, found) ∈ tableAliases table.entries := by
  obtain ⟨drums, patterns, songs, -, -, -, -, htables⟩ := ofScore_eq_ok h
  obtain ⟨hsfx, hinstruments⟩ := packs_ofScore h
  rw [aliases_ofScore h] at hmem
  rcases mem_foldl_setAlias hmem with hnone | hfound
  · cases hnone
  · rcases List.mem_append.mp hfound with hfound | hfound
    · exact ⟨⟨.sfx, sfxEntries score⟩, by simp [htables, sfxEntries], hsfx, hfound⟩
    · exact ⟨⟨.instruments, instrumentEntries score⟩, by simp [htables, instrumentEntries],
        hinstruments, hfound⟩

theorem aliasesIdentify
    (h : ofScore score diagnostics = .ok assembly) (hlabels : assembly.blockLabels.Nodup) :
    assembly.AliasesIdentify := by
  have htable : ∀ table ∈ assembly.tables, ∀ label ∈ dataLabels table.entries,
      assembly.blockLabels.count label = 1 := by
    intro table htable label hlabel
    exact List.count_eq_one_of_mem hlabels (List.mem_flatMap.mpr ⟨table, htable, hlabel⟩)
  have hnodup := (List.nodup_flatMap.mp hlabels).1
  intro label found hmem
  obtain ⟨table, hin, hpacks, halias⟩ := exists_table_of_mem_aliases h hmem
  obtain ⟨hbase, hne, hnone⟩ := hpacks.base_of_mem (hnodup table hin) halias
  refine ⟨htable table hin label (mem_dataLabels_of_mem_tableAliases halias),
    htable table hin found.base hbase, hne, hnone⟩

end OfScore

/-- In what a source compiles to, the names of every table are distinct, but the labels of
its entries are so only if no two names differ in other than alphanumeric characters
alone. The same holds of the data labels of the whole output; if they are distinct, then
aliases identify blocks. All labels are distinct if every name is a path. -/
theorem nodup_labels_iff_apart
    {files : SourceFiles} {depthLimit : Nat} {source : Reader.Source} {assembly : Assembly}
    (h : ofSource files depthLimit source = .ok assembly) :
    (∀ table ∈ assembly.tables, (assembly.score.names table.directory).Nodup ∧
      ((table.entries.map (·.label)).Nodup ↔
        Name.Apart (assembly.score.names table.directory))) ∧
    (assembly.blockLabels.Nodup ↔
      ∀ directory, Name.Apart (assembly.score.blockNames directory)) ∧
    (assembly.blockLabels.Nodup → assembly.AliasesIdentify) ∧
    (assembly.score.NamesArePaths →
      (∀ table ∈ assembly.tables, (table.entries.map (·.label)).Nodup) ∧
        assembly.blockLabels.Nodup) := by
  obtain ⟨reader, score, diagnostics, hread, hfinish, hassembly⟩ := ofSource_eq_ok h
  obtain ⟨-, -, -, -, -, -, hscore, -⟩ := ofScore_eq_ok hassembly
  have hnames := distinct_of_readSource hread
  rw [score_of_finish hfinish] at hnames
  rw [hscore]
  have hblocks := nodup_blockLabels_iff hassembly hnames
  refine ⟨?_, hblocks, aliasesIdentify hassembly, ?_⟩
  · intro table htable
    exact ⟨hnames table.directory, nodup_labels_iff hassembly hnames htable⟩
  · intro hpaths
    constructor
    · intro table htable
      rw [nodup_labels_iff hassembly hnames htable]
      exact Name.apart_of_isPath (hpaths table.directory)
    · rw [hblocks]
      intro directory
      apply Name.apart_of_isPath
      intro name hname
      exact hpaths directory name ((score.blockNames_sublist directory).mem hname)

/-- No file can be read. -/
def noFiles : SourceFiles := fun _ => .error .missing

/-- What `view` shows of that to which a source compiles. -/
def viewed? {α : Type} (view : Assembly → α) (source : Reader.Source) : Option α :=
  match ofSource noFiles 8 source with
  | .ok assembly => some (view assembly)
  | .error _ => none

theorem exists_of_viewed?
    {α : Type} {view : Assembly → α} {source : Reader.Source} {value : α}
    (h : viewed? view source = some value) :
    ∃ assembly, ofSource noFiles 8 source = .ok assembly ∧ view assembly = value := by
  unfold viewed? at h
  split at h
  next assembly hassembly => exact ⟨assembly, hassembly, Option.some.inj h⟩
  next => cases h

/-- A source of two sound effects. -/
def kitSource (first second : String) : Reader.Source :=
  ⟨"sfx " ++ first ++ " on noise\nsfx " ++ second ++ " on noise", "score", none⟩

/-- Two names that differ in letters have two labels. -/
theorem kick_snare_apart :
    ∃ assembly, ofSource noFiles 8 (kitSource "kick" "snare") = .ok assembly ∧
      assembly.score.names .sfx = ["kick", "snare"] ∧
      (∀ table ∈ assembly.tables, (table.entries.map (·.label)).Nodup) ∧
      assembly.blockLabels.Nodup ∧ assembly.AliasesIdentify := by
  have hview : viewed?
      (fun assembly => [.sfx, .instruments, .drums, .patterns, .songs].map assembly.score.names)
      (kitSource "kick" "snare") = some [["kick", "snare"], [], [], [], []] := by
    decide +kernel
  have hkick : Name.IsPath "kick" ∧ Name.IsPath "snare" := ⟨rfl, rfl⟩
  obtain ⟨assembly, hassembly, hnames⟩ := exists_of_viewed? hview
  simp only [List.map_cons, List.map_nil, List.cons.injEq] at hnames
  obtain ⟨hsfx, hinstruments, hdrums, hpatterns, hsongs, -⟩ := hnames
  obtain ⟨-, -, halias, hpaths⟩ := nodup_labels_iff_apart hassembly
  have hkit : assembly.score.NamesArePaths := by
    intro directory
    cases directory with
    | sfx => rw [hsfx, List.forall_mem_cons, List.forall_mem_singleton]; exact hkick
    | instruments => rw [hinstruments]; exact List.forall_mem_nil _
    | drums => rw [hdrums]; exact List.forall_mem_nil _
    | patterns => rw [hpatterns]; exact List.forall_mem_nil _
    | songs => rw [hsongs]; exact List.forall_mem_nil _
  obtain ⟨hlabels, hblocks⟩ := hpaths hkit
  exact ⟨assembly, hassembly, hsfx, hlabels, hblocks, halias hblocks⟩

/-- Two names that differ in punctuation share a label, and the block of one of them is
given out as an alias of itself. -/
theorem hi_hats_clash :
    ∃ assembly, ofSource noFiles 8 (kitSource "hi_hat" "hi-hat") = .ok assembly ∧
      (∃ table ∈ assembly.tables, ¬ (table.entries.map (·.label)).Nodup) ∧
      ¬ assembly.blockLabels.Nodup ∧
      ("PEDAT_hi_hat", ⟨"PEDAT_hi_hat", 0⟩) ∈ assembly.aliases := by
  have hview : viewed?
      (fun assembly => (assembly.tables.map fun table => table.entries.map (·.label),
        assembly.blockLabels)) (kitSource "hi_hat" "hi-hat") =
      some ([["PE_hi_hat", "PE_hi_hat"], [], [], [], []],
        ["PEDAT_hi_hat", "PEDAT_hi_hat"]) := by
    decide +kernel
  have hpackable : viewed?
      (fun assembly => [sfxEntries assembly.score, instrumentEntries assembly.score].map
        packableBlocks) (kitSource "hi_hat" "hi-hat") =
      some [[("PEDAT_hi_hat", [8, 0]), ("PEDAT_hi_hat", [8, 0])], []] := by
    decide +kernel
  obtain ⟨assembly, hassembly, hsame⟩ := exists_of_viewed? hview
  obtain ⟨hlabels, hblocks⟩ := Prod.mk.inj hsame
  obtain ⟨again, hagain, hpacked⟩ := exists_of_viewed? hpackable
  cases hassembly.symm.trans hagain
  simp only [List.map_cons, List.map_nil, List.cons.injEq] at hpacked
  obtain ⟨hsfx, hinstruments, -⟩ := hpacked
  have haliases : assembly.aliases = [("PEDAT_hi_hat", ⟨"PEDAT_hi_hat", 0⟩)] := by
    obtain ⟨-, score, diagnostics, -, -, hscore⟩ := ofSource_eq_ok hassembly
    obtain ⟨-, -, -, -, -, -, rfl, -⟩ := ofScore_eq_ok hscore
    rw [aliases_ofScore hscore, tableAliases, tableAliases, hsfx, hinstruments,
      Packing.pack, Packing.pack,
      Packing.byLength_of_isSorted (by decide), Packing.byLength_of_isSorted (by decide)]
    rfl
  have hclash : ["PE_hi_hat", "PE_hi_hat"] ∈
      assembly.tables.map fun table => table.entries.map (·.label) := by
    rw [hlabels]
    exact List.mem_cons_self
  obtain ⟨table, htable, hshared⟩ := List.mem_map.mp hclash
  refine ⟨assembly, hassembly, ⟨table, htable, ?_⟩, ?_, ?_⟩
  · rw [hshared]
    decide
  · rw [hblocks]
    decide
  · rw [haliases]
    exact List.mem_cons_self

end Assembly

end Chiptune
