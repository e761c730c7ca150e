import Chiptune.Proofs.Output.Wrapping
import Chiptune.Proofs.Output.Written
import Chiptune.Proofs.Reader.Composing

/-!
# Sizes and what is written

The size of an entry is counted when it is made, apart from the text that is written for it. It
is what the entry takes in its directory and what its data take, as counted in the lines of the
data: one byte for an operand of `.byte`, two for one of `.dbyt`, and for a statement the bytes
of its command. The sizes that the listing states are sums of these.
-/

namespace Chiptune

open Output Step
open Text (commaParts)

/-! ## Operands -/

namespace Output

/-- The operands of lines behind the same opening. -/
def operands (opening : String) (lines : List String) : List String :=
  lines.flatMap fun line => commaParts (behind opening line)

/-- The commas of a text. -/
def commas (text : String) : Nat := text.toList.count ','

@[simp] theorem commas_append (first second : String) :
    commas (first ++ second) = commas first + commas second := by
  rw [commas, String.toList_append, List.count_append, commas, commas]

theorem commas_eq_zero {text : String} (h : ',' ∉ text.toList) : commas text = 0 :=
  List.count_eq_zero_of_not_mem h

theorem commaParts_append (first second : String) :
    commaParts (first ++ "," ++ second) = commaParts first ++ commaParts second := by
  have hcomma : (first ++ "," ++ second).toList = first.toList ++ ',' :: second.toList := by simp
  rw [commaParts, hcomma, List.splitOn_append_cons_self, List.map_append]
  rfl

theorem commaParts_of_not_mem {text : String} (h : ',' ∉ text.toList) :
    commaParts text = [text] := by
  have hsplit : text.toList.splitOn ',' = [text.toList] :=
    List.splitOnP_eq_singleton fun c hc => by
      rw [beq_eq_false_iff_ne]
      rintro rfl
      exact h hc
  rw [commaParts, hsplit, List.map_singleton, String.ofList_toList]

/-- There is one part more than there are commas. -/
theorem length_commaParts (text : String) :
    (commaParts text).length = commas text + 1 := by
  rw [commaParts, List.length_map, commas]
  induction text.toList with
  | nil => rfl
  | cons c cs ih =>
      rw [List.splitOn_cons_eq_if_modifyHead, List.count_cons]
      split_ifs with hcomma
      · rw [List.length_cons, ih]
      · rw [List.length_modifyHead, ih]

theorem commaParts_intercalate {atoms : List String} (h : atoms ≠ []) :
    commaParts (String.intercalate "," atoms) = atoms.flatMap commaParts := by
  induction atoms with
  | nil => contradiction
  | cons atom atoms ih =>
      cases atoms with
      | nil => simp
      | cons next rest =>
          have hrest := ih (List.cons_ne_nil _ _)
          rw [String.intercalate_cons_cons, commaParts_append, hrest]
          rfl

/-- Wrapping moves no operand. -/
theorem operands_wrap (opening : String) (atoms : List String) :
    operands opening (wrap opening atoms) = atoms.flatMap commaParts := by
  have hspread := isSpread_fill opening atoms
  have hlines : wrap opening atoms =
      (fill (lineBytes - opening.utf8ByteSize) [] 0 atoms).map (lineOf opening) := rfl
  rw [hlines, operands, List.flatMap_map]
  generalize fill (lineBytes - opening.utf8ByteSize) [] 0 atoms = groups at hspread
  have hgroup : ∀ group ∈ groups, commaParts (behind opening (lineOf opening group)) =
      group.flatMap commaParts := fun group hmem => by
    rw [behind_lineOf, commaParts_intercalate (hspread.ne_nil group hmem)]
  rw [List.flatMap_congr hgroup, ← hspread.flatten, List.flatten_eq_flatMap, List.flatMap_assoc]
  rfl

end Output

/-! ## Bytes in lines -/

namespace Output

/-- The number of an operand with as many hexadecimal digits behind a dollar sign. -/
def operandNumber? (count : Nat) (operand : String) : Option Nat :=
  match operand.toList with
  | '$' :: digits => if digits.length = count then Text.hexNumber? digits else none
  | _ => none

/-- The bytes of the commands of the conductor. -/
def commandBytes : List (String × Nat) :=
  [("setTempo", 2), ("setBeatDuration", 1), ("waitRows", 2), ("playPat", 4), ("noteOn", 3),
    ("stopPat", 4), ("attackOn", 1), ("segno", 1), ("fine", 1), ("dalSegno", 1)]

/-- The bytes of a statement, by the command that it begins with. -/
def statementBytes (line : String) : Nat :=
  ((commandBytes.find? fun (command, _) => command.toList.isPrefixOf line.toList).map (·.2)).getD 0

end Output

namespace DataBlock

/-- The operands in the lines of the block. -/
def operands (block : DataBlock) : List String :=
  Output.operands (block.format.directive ++ " ") (blockLines block)

/-- The bytes that the lines of the block stand for. -/
def writtenBytes (block : DataBlock) : Nat :=
  match block.format with
  | .bytes => block.operands.length
  | .words => 2 * block.operands.length
  | .statements => ((blockLines block).map statementBytes).sum

/-- The bytes that the operands of the block are, if they are numbers of the right width. -/
def operandBytes? (block : DataBlock) : Option (List Nat) :=
  match block.format with
  | .bytes => block.operands.mapM (operandNumber? 2)
  | .words =>
    (block.operands.mapM (operandNumber? 4)).map fun words =>
      words.flatMap fun word => [word / 256, word % 256]
  | .statements => none

end DataBlock

/-- The bytes of an entry in its table. -/
def Directory.entryBytes : Directory → Nat
  | sfx => 4
  | instruments => 5
  | drums | patterns | songs => 2

namespace Entry

/-- The bytes of an entry in its table and of its data, as the lines have them. -/
def writtenBytes (directory : Directory) (entry : Entry) : Nat :=
  directory.entryBytes + (entry.data.map DataBlock.writtenBytes).getD 0

/-- The size of the entry is that of what is written, and data that can be packed are the bytes
that are written. -/
structure Accounted (directory : Directory) (entry : Entry) : Prop where
  byteSize : entry.byteSize = entry.writtenBytes directory
  packable : ∀ block ∈ entry.data, ∀ bytes ∈ block.packable,
    bytes.length = block.writtenBytes ∧ block.operandBytes? = some bytes

end Entry

/-! ## Voices -/

namespace Output

/-- The operand for a number. -/
def hexOperand (count n : Nat) : String := "$" ++ Text.upperHex count n

theorem operandNumber?_hexOperand {count n : Nat} (h : n < 16 ^ count) :
    operandNumber? count (hexOperand count n) = some n := by
  have hchars : (hexOperand count n).toList = '$' :: Text.hexDigits Text.upperHexDigit count n := by
    simp [hexOperand, Text.upperHex]
  simp only [operandNumber?, hchars]
  rw [if_pos (Text.length_hexDigits _ _ _), Text.hexNumber?_hexDigits, Nat.mod_eq_of_lt h]

theorem commaParts_hexOperand (count n : Nat) :
    commaParts (hexOperand count n) = [hexOperand count n] := by
  apply commaParts_of_not_mem
  rw [hexOperand, String.toList_append, List.mem_append]
  exact not_or.mpr ⟨by decide, Text.comma_not_mem_upperHex count n⟩

/-- The operands of numbers are read back from wrapped lines. -/
theorem operands_hexOperands (opening : String) (count : Nat) (values : List Nat) :
    operands opening (wrap opening (values.map (hexOperand count))) =
      values.map (hexOperand count) := by
  rw [operands_wrap, List.flatMap_map]
  simp only [commaParts_hexOperand]
  exact List.map_eq_flatMap.symm

theorem mapM_operandNumber? {count : Nat} {values : List Nat} (h : ∀ n ∈ values, n < 16 ^ count) :
    (values.map (hexOperand count)).mapM (operandNumber? count) = some values := by
  induction values with
  | nil => rfl
  | cons n values ih =>
      obtain ⟨hn, hvalues⟩ := List.forall_mem_cons.mp h
      rw [List.map_cons, List.mapM_cons, operandNumber?_hexOperand hn, ih hvalues]
      rfl

end Output

namespace DataBlock

variable (label : String) (values : List Nat) (packable : Option (List Nat))

theorem writtenBytes_bytes :
    writtenBytes ⟨label, .bytes, values.map (hexOperand 2), packable⟩ = values.length := by
  simp only [writtenBytes, operands, blockLines, operands_hexOperands, List.length_map]

theorem writtenBytes_words :
    writtenBytes ⟨label, .words, values.map (hexOperand 4), packable⟩ = 2 * values.length := by
  simp only [writtenBytes, operands, blockLines, operands_hexOperands, List.length_map]

variable {values}

theorem operandBytes?_bytes (h : ∀ byte ∈ values, byte < 256) :
    operandBytes? ⟨label, .bytes, values.map (hexOperand 2), packable⟩ = some values := by
  simp only [operandBytes?, operands, blockLines, operands_hexOperands]
  exact mapM_operandNumber? h

theorem operandBytes?_words (h : ∀ word ∈ values, word < 65536) :
    operandBytes? ⟨label, .words, values.map (hexOperand 4), packable⟩ =
      some (values.flatMap SoundEffect.wordBytes) := by
  simp only [operandBytes?, operands, blockLines, operands_hexOperands]
  rw [mapM_operandNumber? h]
  rfl

end DataBlock

namespace SoundEffect

variable {effect : SoundEffect}

theorem Defined.lt_of_mem_stepWords (h : effect.Defined) {word : Nat}
    (hword : word ∈ effect.stepWords) : word < 65536 := by
  obtain ⟨step, hstep, rfl⟩ := List.mem_map.mp hword
  have hframes : effect.frames ≠ [] := by
    intro hnone
    rw [hnone] at hstep
    cases hstep
  exact (h.isChecked.frame ((isTrimmed_audible hframes).mem_of_mem hstep)).1.frameWord_lt

theorem length_flatMap_wordBytes (words : List Nat) :
    (words.flatMap wordBytes).length = 2 * words.length := by
  induction words with
  | nil => rfl
  | cons word words ih =>
      rw [List.flatMap_cons, List.length_append, ih, List.length_cons, wordBytes]
      simp only [List.length_cons, List.length_nil]
      omega

theorem accounted_entry (h : effect.Defined) : effect.entry.Accounted .sfx := by
  have hdata : effect.entry.data = some ⟨"PEDAT_" ++ Name.label effect.name, .words,
      effect.stepWords.map (hexOperand 4), some (effect.stepWords.flatMap wordBytes)⟩ := rfl
  refine ⟨?_, ?_⟩
  · have hsize : effect.entry.byteSize = effect.stepWords.length * 2 + 4 := rfl
    rw [hsize, Entry.writtenBytes, hdata, Option.map_some, Option.getD_some,
      DataBlock.writtenBytes_words, Directory.entryBytes]
    omega
  · intro block hblock bytes hbytes
    rw [hdata, Option.mem_some] at hblock
    subst hblock
    rw [← Option.mem_some.mp hbytes]
    refine ⟨?_, DataBlock.operandBytes?_words _ _ fun _ => h.lt_of_mem_stepWords⟩
    rw [DataBlock.writtenBytes_words, length_flatMap_wordBytes]

end SoundEffect

namespace Instrument

variable {instrument : Instrument}

theorem Defined.lt_of_mem_attackBytes (h : instrument.Defined) {byte : Nat}
    (hbyte : byte ∈ instrument.attackBytes) : byte < 256 := by
  obtain ⟨step, hstep, hmem⟩ := List.mem_flatMap.mp hbyte
  exact (h.fits (List.mem_of_mem_dropLast hstep)).lt_of_mem_frameBytes hmem

theorem accounted_entry (h : instrument.Defined) : instrument.entry.Accounted .instruments := by
  have hsize : instrument.entry.byteSize = instrument.attackBytes.length + 5 := rfl
  have hdata := data_eq instrument
  by_cases hattack : 0 < instrument.attack.length
  · rw [if_pos hattack] at hdata
    have hoperands : (fun byte => "$" ++ Text.upperHex 2 byte) = hexOperand 2 := rfl
    rw [hoperands] at hdata
    refine ⟨?_, ?_⟩
    · rw [hsize, Entry.writtenBytes, hdata, Option.map_some, Option.getD_some,
        DataBlock.writtenBytes_bytes, Directory.entryBytes, Nat.add_comm]
    · intro block hblock bytes hbytes
      rw [hdata, Option.mem_some] at hblock
      subst hblock
      rw [← Option.mem_some.mp hbytes]
      refine ⟨?_, DataBlock.operandBytes?_bytes _ _ fun _ => h.lt_of_mem_attackBytes⟩
      rw [DataBlock.writtenBytes_bytes]
  · rw [if_neg hattack] at hdata
    have hnone : instrument.attack = [] := by
      rw [← List.length_eq_zero_iff]
      omega
    refine ⟨?_, fun block hblock => ?_⟩
    · rw [hsize, Entry.writtenBytes, hdata, attackBytes, hnone]
      rfl
    · rw [hdata] at hblock
      cases hblock

end Instrument

theorem Drum.accounted_entry {drum : Drum} {effects : Registry SoundEffect} {entry : Entry}
    (h : drum.entry effects = .ok entry) : entry.Accounted .drums := by
  obtain ⟨labels, -, hpure⟩ := outcome_bind_eq_ok h
  cases hpure
  exact ⟨rfl, fun block hblock => nomatch hblock⟩

/-! ## Patterns -/

namespace Output

@[simp] theorem commas_natText (n : Nat) : commas (Text.natText n) = 0 :=
  commas_eq_zero (Text.comma_not_mem_natText n)

@[simp] theorem commas_intText (n : Int) : commas (Text.intText n) = 0 :=
  commas_eq_zero (Text.comma_not_mem_intText n)

@[simp] theorem commas_upperHex (count n : Nat) : commas (Text.upperHex count n) = 0 :=
  commas_eq_zero (Text.comma_not_mem_upperHex count n)

@[simp] theorem commas_label (directory : Directory) (name : String) :
    commas (directory.start ++ Name.label name) = 0 := by
  refine commas_eq_zero fun hcomma => ?_
  have hword := (isWord_append_label directory.isWord_start name).2 ',' hcomma
  exact absurd hword (by decide)

end Output

namespace PatternCode

theorem commas_sound {sound : Sound} {length : Option NoteLength} {orchestra : Orchestra}
    (h : orchestra.Names (.note sound length)) : commas sound.text = 0 := by
  cases sound with
  | pitch offset =>
      have hnames : ∀ offset : Fin 25, commas (Sound.pitchNames.getD offset "") = 0 := by decide
      exact hnames offset
  | rest | tie => decide
  | drum label =>
      obtain ⟨name, -, rfl⟩ := h
      exact commas_label .drums name

theorem commas_chord (code : ChordCode) : commas code.text = 0 := by
  apply commas_eq_zero
  rw [ChordCode.text, String.toList_ofList, ChordCode.chars]
  simp [(Text.upperHexDigit_ne_comma _).symm]

/-- The bytes of a code: one, and another for an operand. -/
def bytes : PatternCode → Nat
  | .note .. | .fastArpeggio | .slowArpeggio | .legatoOn | .legatoOff | .patternEnd => 1
  | .grace _ | .instrument _ | .arpeggio _ | .bend _ | .vibrato _ | .transpose _
  | .channelVolume _ => 2

/-- No operand has a comma of its own. -/
theorem length_commaParts_text {code : PatternCode} {orchestra : Orchestra}
    (h : orchestra.Names code) : (commaParts code.text).length = code.bytes := by
  rw [length_commaParts]
  cases code with
  | note sound length =>
      have hsound := commas_sound h
      have hlength : ∀ length : NoteLength, commas ("|" ++ length.operand) = 0 := by
        intro length
        cases length <;> decide
      rcases text_note sound length with htext | ⟨found, htext⟩
      · rw [htext, hsound, bytes]
      · rw [htext, String.append_assoc, commas_append, hsound, hlength, bytes]
  | grace frames | vibrato frames | channelVolume frames =>
      rw [text, commas_append, commas_natText]
      rfl
  | transpose semitones =>
      rw [text, commas_append, commas_intText]
      rfl
  | instrument label =>
      obtain ⟨name, -, rfl⟩ := h
      have hlabel : commas (Instrument.labelOf name) = 0 := commas_label .instruments name
      rw [text, commas_append, hlabel]
      rfl
  | arpeggio chord =>
      rw [text, commas_append, commas_chord]
      rfl
  | bend rate =>
      rw [text, commas_append, commas_upperHex]
      rfl
  | fastArpeggio | slowArpeggio | legatoOn | legatoOff | patternEnd => rfl

end PatternCode

/-- The size of a pattern counts the bytes of its codes, and two in the directory. -/
theorem Pattern.byteSize_entry {pattern : Pattern} {orchestra : Orchestra} {entry : Entry}
    (h : pattern.entry orchestra = .ok entry) :
    ∃ codes, pattern.encode orchestra = .ok codes ∧
      entry.byteSize = (codes.map PatternCode.bytes).sum + 2 := by
  obtain ⟨codes, hcodes, hpure⟩ := outcome_bind_eq_ok h
  cases hpure
  have hsizes : codes.map PatternCode.size = codes.map PatternCode.bytes :=
    List.map_congr_left fun code hcode =>
      PatternCode.length_commaParts_text (names_encode hcodes code hcode)
  refine ⟨codes, hcodes, ?_⟩
  rw [← hsizes]
  rfl

theorem Pattern.accounted_entry {pattern : Pattern} {orchestra : Orchestra} {entry : Entry}
    (h : pattern.entry orchestra = .ok entry) : entry.Accounted .patterns := by
  obtain ⟨codes, hcodes, hpure⟩ := outcome_bind_eq_ok h
  cases hpure
  refine ⟨?_, ?_⟩
  · simp only [Entry.writtenBytes, Option.map_some, Option.getD_some, DataBlock.writtenBytes,
      DataBlock.operands, blockLines, operands_wrap, List.flatMap_map, List.length_flatMap]
    exact Nat.add_comm _ _
  · rintro block ⟨⟩ bytes hbytes
    cases hbytes

/-! ## Songs -/

namespace Song

variable {song : Song} {score : Score}

/-- No command begins another, so the first one found is the command of the line. -/
theorem statementBytes_append {command opening : String} {bytes : Nat}
    (h : (command, bytes) ∈ commandBytes) (hopening : command.toList <+: opening.toList)
    (rest : String) : statementBytes (opening ++ rest) = bytes := by
  obtain ⟨behind, hbehind⟩ := hopening
  rw [statementBytes, String.toList_append, ← hbehind, List.append_assoc]
  simp only [commandBytes, List.mem_cons, Prod.mk.injEq, List.not_mem_nil, or_false] at h
  rcases h with ⟨rfl, rfl⟩ | ⟨rfl, rfl⟩ | ⟨rfl, rfl⟩ | ⟨rfl, rfl⟩ | ⟨rfl, rfl⟩ | ⟨rfl, rfl⟩ |
    ⟨rfl, rfl⟩ | ⟨rfl, rfl⟩ | ⟨rfl, rfl⟩ | ⟨rfl, rfl⟩ <;> rfl

/-- A statement takes as many bytes as its event. -/
theorem statementBytes_command {event : ConductorEvent} {line : String}
    {before after : Diagnostics} (h : song.command score event before = .ok line after) :
    statementBytes line = event.size := by
  cases event with
  | play name track asked transpose place =>
      have hplay : ("playPat", 4) ∈ commandBytes := by decide
      obtain ⟨pattern, -, hline⟩ := playCommand_eq_ok h
      rcases hline with ⟨-, rfl⟩ | ⟨-, track, base, operand, -, -, -, -, rfl⟩
      · exact statementBytes_append hplay (by decide) _
      · simp only [String.append_assoc]
        exact statementBytes_append hplay (by decide) _
  | noteOn track pitch name place =>
      have hnote : ("noteOn", 3) ∈ commandBytes := by decide
      obtain ⟨instrument, -, rfl⟩ := noteOn_eq_ok h
      simp only [String.append_assoc]
      exact statementBytes_append hnote (by decide) _
  | setTempo rowsPerMinute =>
      cases h
      exact statementBytes_append (by decide : ("setTempo", 2) ∈ commandBytes) (by decide) _
  | setBeat length =>
      cases h
      exact statementBytes_append (by decide : ("setBeatDuration", 1) ∈ commandBytes) (by decide) _
  | waitRows rows =>
      cases h
      exact statementBytes_append (by decide : ("waitRows", 2) ∈ commandBytes) (by decide) _
  | stop track | attackOn track =>
      cases h
      cases track <;> decide
  | segno | fine | dalSegno =>
      cases h
      decide

theorem map_statementBytes {events : List ConductorEvent} {lines : List String}
    {before after : Diagnostics} (h : song.commands score events before = .ok lines after) :
    lines.map statementBytes = events.map ConductorEvent.size := by
  have hcommands := forall₂_of_commands h
  clear h
  induction hcommands with
  | nil => rfl
  | cons hcommand _ ih =>
      obtain ⟨_, _, hline⟩ := hcommand
      rw [List.map_cons, List.map_cons, statementBytes_command hline, ih]

/-- The lines of the song are the statements of its events, of the same sizes. -/
def IsStated (song : Song) (entry : Entry) : Prop :=
  ∃ block, entry.data = some block ∧
    (blockLines block).map statementBytes = song.events.map ConductorEvent.size

theorem isStated_entry {entry : Entry} {before after : Diagnostics}
    (h : song.entry score before = .ok entry after) : song.IsStated entry := by
  obtain ⟨lines, _, hlines, hpure⟩ := bind_eq_ok h
  cases hpure
  exact ⟨_, rfl, map_statementBytes hlines⟩

theorem accounted_entry (hbooks : song.Bookkept) {entry : Entry} {before after : Diagnostics}
    (h : song.entry score before = .ok entry after) : entry.Accounted .songs := by
  obtain ⟨lines, _, hlines, hpure⟩ := bind_eq_ok h
  cases hpure
  refine ⟨?_, ?_⟩
  · have hwritten : ((blockLines ⟨"PSDAT_" ++ Name.label song.name, .statements, lines, none⟩).map
        statementBytes).sum = (song.events.map ConductorEvent.size).sum :=
      congrArg List.sum (map_statementBytes hlines)
    simp only [Entry.writtenBytes, Option.map_some, Option.getD_some, DataBlock.writtenBytes,
      hwritten]
    exact hbooks.byteSize
  · rintro block ⟨⟩ bytes hbytes
    cases hbytes

end Song

/-! ## Sizes in the listing -/

namespace Output

/-- The number of bytes that a line ends in stating. -/
def statedBytes? (line : String) : Option Nat :=
  match (Text.words line).reverse with
  | "bytes" :: number :: _ => Text.digits? number.toList
  | _ => none

theorem words_append (first second : String) :
    Text.words (first ++ " " ++ second) = Text.words first ++ Text.words second := by
  have hblank : (first ++ " " ++ second).toList = first.toList ++ ' ' :: second.toList := by simp
  rw [Text.words, Text.runs, hblank, List.splitOnP_append_cons _ _ (by decide), List.filter_append,
    List.map_append]
  rfl

/-- The number in front of the last word is read back, if a blank stands before it. -/
theorem statedBytes?_append {opening : String} (h : opening.toList.getLast? = some ' ') (n : Nat) :
    statedBytes? (opening ++ Text.natText n ++ " bytes") = some n := by
  obtain ⟨front, hfront⟩ := List.getLast?_eq_some_iff.mp h
  have hopening : opening = String.ofList front ++ " " := by
    rw [← String.ofList_toList (s := opening), hfront, String.ofList_append]
  have hlast : (" bytes" : String) = " " ++ "bytes" := by decide
  have hwords : Text.words "bytes" = ["bytes"] := by decide
  have hline : Text.words (opening ++ Text.natText n ++ " bytes") =
      Text.words (String.ofList front) ++ [Text.natText n, "bytes"] := by
    rw [hopening, hlast, ← String.append_assoc, words_append, words_append, Text.words_natText,
      hwords, List.append_assoc]
    rfl
  rw [statedBytes?, hline, List.reverse_append]
  exact Text.digits?_natText n

end Output

/-- The bytes of a table and its data, as the lines have them. -/
def DirectoryTable.writtenBytes (table : DirectoryTable) : Nat :=
  (table.entries.map (·.writtenBytes table.directory)).sum

namespace Assembly

/-- The sizes of the assembly agree with what is written for it. -/
structure Accounted (assembly : Assembly) : Prop where
  entries : ∀ table ∈ assembly.tables, ∀ entry ∈ table.entries, entry.Accounted table.directory
  songs : List.Forall₂ Song.IsStated assembly.score.songs.entries (assembly.entriesOf .songs)
  /-- The first line of a table states its bytes. -/
  headings : ∀ table ∈ assembly.tables,
    (tableLines assembly table).head?.bind statedBytes? = some table.writtenBytes
  /-- The lines on sizes state the bytes of a table, and then of each entry. -/
  sizes : ∀ table ∈ assembly.tables,
    (sizeLines table).map statedBytes? =
      some table.writtenBytes :: table.entries.map fun entry =>
        some (entry.writtenBytes table.directory)
  /-- In front of the lines on sizes stands the total. -/
  total : ∀ options, ∃ before line,
    musicLines assembly options = before ++ line :: assembly.tables.flatMap sizeLines ∧
      statedBytes? line = some (assembly.tables.map (·.writtenBytes)).sum

theorem byteSize_eq_writtenBytes {table : DirectoryTable}
    (h : ∀ entry ∈ table.entries, entry.Accounted table.directory) :
    table.byteSize = table.writtenBytes := by
  have hsizes : table.entries.map (·.byteSize) =
      table.entries.map (·.writtenBytes table.directory) :=
    List.map_congr_left fun entry hentry => (h entry hentry).byteSize
  rw [DirectoryTable.byteSize, hsizes]
  rfl

theorem statedBytes?_heading (assembly : Assembly) (table : DirectoryTable) :
    (tableLines assembly table).head?.bind statedBytes? = some table.byteSize := by
  have hheading : ∃ opening : String, opening.toList.getLast? = some ' ' ∧
      (tableLines assembly table).head? =
        some (opening ++ (Text.natText table.byteSize ++ " bytes")) := by
    refine ⟨_, ?_, rfl⟩
    simp only [String.toList_append, List.getLast?_append]
    rfl
  obtain ⟨opening, hopening, hhead⟩ := hheading
  rw [hhead, Option.bind_some, ← String.append_assoc]
  exact statedBytes?_append hopening _

theorem map_statedBytes?_sizeLines (table : DirectoryTable) :
    (sizeLines table).map statedBytes? =
      some table.byteSize :: table.entries.map fun entry => some entry.byteSize := by
  -- Behind every label a colon and a blank stand before the number.
  have hstated : ∀ (opening label : String) (bytes : Nat),
      statedBytes? (opening ++ label ++ ": " ++ Text.natText bytes ++ " bytes") = some bytes := by
    intro opening label bytes
    apply statedBytes?_append
    simp only [String.toList_append, List.getLast?_append]
    rfl
  have htable := hstated "; " table.directory.label table.byteSize
  have hentry : ∀ entry : Entry,
      statedBytes? (";   " ++ entry.label ++ ": " ++ Text.natText entry.byteSize ++ " bytes") =
        some entry.byteSize := fun entry => hstated ";   " entry.label entry.byteSize
  simp only [sizeLines, toString, List.map_cons, List.map_map, Function.comp_def, htable, hentry]

theorem exists_total (assembly : Assembly) (options : Options) :
    ∃ before line,
      musicLines assembly options = before ++ line :: assembly.tables.flatMap sizeLines ∧
        statedBytes? line = some assembly.totalBytes := by
  have hopening : "; Total music data size: ".toList.getLast? = some ' ' := by decide
  obtain ⟨before, hlines⟩ : ∃ before, musicLines assembly options =
      before ++ ["", "; Total music data size: " ++ Text.natText assembly.totalBytes ++ " bytes"] ++
        assembly.tables.flatMap sizeLines := ⟨_, rfl⟩
  refine ⟨before ++ [""], _, ?_, statedBytes?_append hopening assembly.totalBytes⟩
  rw [hlines, List.append_assoc, List.append_assoc, List.cons_append, List.singleton_append,
    List.singleton_append]

/-- For every source that compiles, the sizes of entries, tables and the whole are those of what
is written. -/
theorem accounted_of_ofSource
    {files : SourceFiles} {depthLimit : Nat} {source : Reader.Source} {assembly : Assembly}
    (h : ofSource files depthLimit source = .ok assembly) : assembly.Accounted := by
  obtain ⟨reader, score, diagnostics, hread, hfinish, hassembly⟩ := ofSource_eq_ok h
  have hcomposed : score.Composed := score_of_finish hfinish ▸ composed_of_readSource hread
  have hentries : ∀ table ∈ assembly.tables, ∀ entry ∈ table.entries,
      entry.Accounted table.directory := by
    refine forall_entries hassembly (fun directory entry => entry.Accounted directory)
      ?_ ?_ ?_ ?_ ?_
    · exact fun effect heffect => SoundEffect.accounted_entry (hcomposed.sfx effect heffect)
    · exact fun instrument hinstrument =>
        Instrument.accounted_entry (hcomposed.instruments instrument hinstrument)
    · exact fun drum _ entry hentry => Drum.accounted_entry hentry
    · exact fun pattern _ entry hentry => Pattern.accounted_entry hentry
    · exact fun song hsong entry before after hentry =>
        Song.accounted_entry (hcomposed.songs song hsong) hentry
  have hbytes : ∀ table ∈ assembly.tables, table.byteSize = table.writtenBytes :=
    fun table htable => byteSize_eq_writtenBytes (hentries table htable)
  refine ⟨hentries, ?_, ?_, ?_, ?_⟩
  · obtain ⟨drums, patterns, songs, -, -, hsongs, rfl, htables⟩ := ofScore_eq_ok hassembly
    have hsongEntries : assembly.entriesOf .songs = songs := by simp [entriesOf, htables]
    rw [hsongEntries]
    refine (forall₂_of_songEntries hsongs).imp ?_
    rintro song entry ⟨before, after, hentry⟩
    exact Song.isStated_entry hentry
  · intro table htable
    rw [statedBytes?_heading, hbytes table htable]
  · intro table htable
    rw [map_statedBytes?_sizeLines, hbytes table htable]
    refine congrArg _ (List.map_congr_left fun entry hentry => ?_)
    rw [(hentries table htable entry hentry).byteSize]
  · intro options
    obtain ⟨before, line, hlines, htotal⟩ := exists_total assembly options
    refine ⟨before, line, hlines, htotal.trans (congrArg some ?_)⟩
    rw [totalBytes, List.map_congr_left hbytes]
    rfl

/-- A source with an entry in every table. -/
def fanfare : Reader.Source :=
  ⟨"sfx boom on noise\nvolume 9 4\ndrum kick boom\ninstrument lead\nvolume 9 8\npitch 2\n" ++
    "pattern air\n@lead c e\nsong fanfare\nplay air on pulse1\nat 2\nfine", "score", none⟩

theorem fanfare_accounted :
    ∃ assembly, ofSource noFiles 8 fanfare = .ok assembly ∧
      assembly.tables.map (fun table => table.entries.map (·.byteSize)) =
        [[8], [7], [2], [7], [12]] ∧
      assembly.Accounted := by
  have hview : viewed?
      (fun assembly => assembly.tables.map fun table => table.entries.map (·.byteSize)) fanfare =
      some [[8], [7], [2], [7], [12]] := by
    decide +kernel
  obtain ⟨assembly, hassembly, hbytes⟩ := exists_of_viewed? hview
  exact ⟨assembly, hassembly, hbytes, accounted_of_ofSource hassembly⟩

end Assembly

end Chiptune
