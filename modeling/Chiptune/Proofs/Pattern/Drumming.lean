import Chiptune.Pattern.Reading
import Chiptune.Proofs.Note.Scanning
import Chiptune.Proofs.Step
import Chiptune.Voice.Drum
import Mathlib.Data.List.Infix

/-!
# Drums that are played by name

A drum may have any name that begins and ends with a letter or an underscore. A word of a
drum pattern is first taken for a mode, a volume or an effect, and only then for a drum, whose
name is the longest that leaves a duration. So a drum is not struck by its name if the word
means something else, and never as a grace note: the suffix `g` is the end of a longer name.
-/

namespace Chiptune

open Step

/-! ## Numerals -/

theorem Text.isDigit_of_mem_toDigits {n : Nat} {c : Char} (h : c ∈ Nat.toDigits 10 n) :
    isDigit c = true :=
  Nat.isDigit_of_mem_toDigits (by decide) (by decide) h

theorem numberOf_toDigits {n : Nat} (h : n < 2 ^ 32) : numberOf (Nat.toDigits 10 n) = some n := by
  have hvalue : Text.decimalValue (Nat.toDigits 10 n) = n := Nat.ofDigitChars_ten_toDigits
  rw [numberOf, if_neg Nat.toDigits_ne_nil, ← Text.decimalValue_eq_ofDigits, hvalue,
    min_eq_left (by omega)]

/-! ## Scanning drum words -/

namespace DrumWord

variable {name : List Char}

theorem isNameChars_iff :
    isNameChars name = true ↔
      2 ≤ name.length ∧ name.head?.any isNameEdge = true ∧
        name.getLast?.any isNameEdge = true ∧ ∀ c ∈ name, isNameChar c = true := by
  simp [isNameChars, and_assoc]

theorem isNameChar_of_isDigit {c : Char} (h : Text.isDigit c = true) : isNameChar c = true := by
  simp [isNameChar, Text.isAlphanumeric, h]

theorem isNameEdge_of_isDigit {c : Char} (h : Text.isDigit c = true) : isNameEdge c = false := by
  have hunderscore : c ≠ '_' := by
    rintro rfl
    exact absurd h (by decide)
  simp [isNameEdge, Text.isLetter_of_isDigit h, hunderscore]

theorem stroke?_name (h : isNameChars name = true) :
    stroke? name = some (.hit (String.ofList name)) := by
  have hlong := (isNameChars_iff.mp h).1
  have hsingle (c : Char) : name ≠ [c] := by
    rintro rfl
    simp at hlong
  simp [stroke?, hsingle, h]

/-- No name ends in a digit. -/
theorem stroke?_of_digit {front : List Char} {c : Char} (hfront : front ≠ [])
    (hc : Text.isDigit c = true) : stroke? (front ++ [c]) = none := by
  have hsingle (d : Char) : front ++ [c] ≠ [d] := by
    intro heq
    have hlength := congrArg List.length heq
    have hpos := List.length_pos_iff.mpr hfront
    simp only [List.length_append, List.length_singleton] at hlength
    omega
  have hname : isNameChars (front ++ [c]) = false := by
    simp [isNameChars, isNameEdge_of_isDigit hc]
  simp [stroke?, hsingle, hname]

/-- Of the sizes that are tried from the greatest down, the first that serves is taken. -/
theorem findSome?_reverse_range
    {β : Type} {f : Nat → Option β} {size n : Nat} {found : β} (hlt : n < size)
    (hfound : f n = some found) (hlater : ∀ m, n < m → m < size → f m = none) :
    (List.range size).reverse.findSome? f = some found := by
  induction size with
  | zero => omega
  | succ size ih =>
      rw [List.range_succ, List.reverse_append, List.reverse_singleton, List.singleton_append,
        List.findSome?_cons]
      by_cases heq : n = size
      · rw [← heq, hfound]
      · rw [hlater size (by omega) (by omega)]
        exact ih (by omega) fun m hm hsize => hlater m hm (by omega)

/-- A name is taken off the front of its word, unless the word ends as a grace note does. -/
theorem scanChars?_append
    {digits : List Char} {augment : Augment} (hname : isNameChars name = true)
    (hdigits : ∀ c ∈ digits, Text.isDigit c = true) (haugment : augment ≠ .grace) :
    scanChars? (name ++ (digits ++ augment.suffix.toList)) =
      some ⟨.hit (String.ofList name), numberOf digits, augment⟩ := by
  obtain ⟨hlong, -, -, hchars⟩ := isNameChars_iff.mp hname
  have hdots : OneOf ["", ".", ".."] augment.suffix.toList := by
    cases augment with
    | plain | dotted | doubleDotted => decide
    | grace => exact absurd rfl haugment
  have hsuffix : ∀ c ∈ augment.suffix.toList.head?, isNameChar c = false :=
    hdots.forall_head? (by decide)
  have hdot : ∀ c ∈ augment.suffix.toList.head?, Text.isDigit c = false :=
    hdots.forall_head? (by decide)
  have htaken : (name ++ (digits ++ augment.suffix.toList)).takeWhile isNameChar =
      name ++ digits := by
    rw [← List.append_assoc]
    exact Text.takeWhile_run (List.forall_mem_append.mpr
      ⟨hchars, fun c hc => isNameChar_of_isDigit (hdigits c hc)⟩) hsuffix
  rw [scanChars?, htaken]
  apply findSome?_reverse_range (n := name.length - 1)
  · rw [List.length_append]
    omega
  · have hsize : name.length - 1 + 1 = name.length := by omega
    simp only [scanWith?, hsize, List.take_left, List.drop_left, stroke?_name hname,
      NoteWord.takeNumber_append hdigits hdot, NoteWord.takeAugment_suffix]
    rfl
  · -- A longer name would end in one of the digits.
    intro m hm hlt
    rw [List.length_append] at hlt
    have hdigit : m - name.length < digits.length := by omega
    have hbehind : (name ++ (digits ++ augment.suffix.toList))[m]? =
        some digits[m - name.length] := by
      rw [List.getElem?_append_right (by omega), List.getElem?_append_left hdigit,
        List.getElem?_eq_getElem hdigit]
    have hfront : (name ++ (digits ++ augment.suffix.toList)).take m ≠ [] := by
      intro hnil
      have hlength := congrArg List.length hnil
      simp only [List.length_take, List.length_append, List.length_nil] at hlength
      omega
    have hstroke := stroke?_of_digit hfront (hdigits _ (List.getElem_mem hdigit))
    simp [scanWith?, List.take_add_one, hbehind, hstroke]

theorem scan?_name {name : String} (hname : isName name = true) :
    scan? name = some ⟨.hit name, none, .plain⟩ := by
  have hplain : Augment.plain ≠ .grace := nofun
  have hscan := scanChars?_append hname (List.forall_mem_nil _) hplain
  simpa [scan?, Augment.suffix, numberOf] using hscan

theorem scan?_numbered
    {name : String} {number : Nat} {augment : Augment} (hname : isName name = true)
    (hnumber : number < 2 ^ 32) (haugment : augment ≠ .grace) :
    scan? (name ++ Text.natText number ++ augment.suffix) =
      some ⟨.hit name, some number, augment⟩ := by
  have hscan := scanChars?_append hname
    (fun c (hc : c ∈ Nat.toDigits 10 number) => Text.isDigit_of_mem_toDigits hc) haugment
  rw [numberOf_toDigits hnumber] at hscan
  simpa [scan?, Text.natText] using hscan

/-- A name with a number and the suffix of a grace note is a name itself. -/
theorem isName_grace {name : String} (hname : isName name = true) (number : Nat) :
    isName (name ++ Text.natText number ++ Augment.grace.suffix) = true := by
  obtain ⟨hlong, hhead, -, hchars⟩ := isNameChars_iff.mp hname
  have hdigits : ∀ c ∈ Nat.toDigits 10 number, isNameChar c = true := fun c hc =>
    isNameChar_of_isDigit (Text.isDigit_of_mem_toDigits hc)
  refine isNameChars_iff.mpr ?_
  simp only [Text.natText, String.toList_append, String.toList_ofList]
  refine ⟨?_, ?_, ?_, ?_⟩
  · simp only [List.length_append]
    omega
  · cases hname : name.toList with
    | nil => simp [hname] at hlong
    | cons c cs => simpa [hname] using hhead
  · have hsuffix : Augment.grace.suffix.toList = ['g'] := rfl
    rw [hsuffix, List.getLast?_concat]
    decide
  · refine List.forall_mem_append.mpr ⟨List.forall_mem_append.mpr ⟨hchars, hdigits⟩, ?_⟩
    exact Text.forall_mem_of_all (by decide)

end DrumWord

theorem Drum.isName_of_define
    {qualified name : String} {effects : List String} {place : Location} {drum : Drum}
    (h : define qualified name effects place = .ok drum) : DrumWord.isName name = true := by
  by_contra hname
  rw [define, eq_false_of_ne_true hname] at h
  cases h

theorem Meter.lt_of_writtenDuration
    {number : Nat} {augment : Augment} {written : Option Duration}
    (h : writtenDuration (some number) augment = .ok written) : number < 2 ^ 32 := by
  by_contra hlarge
  have hrange : number < 1 ∨ 64 < number := by omega
  rw [writtenDuration, if_pos hrange] at h
  cases h

theorem Text.exists_isDigit_natText (number : Nat) (rest : String) :
    ∃ c ∈ (natText number ++ rest).toList, isDigit c = true := by
  obtain ⟨c, hc⟩ := List.exists_mem_of_ne_nil _ (Nat.toDigits_ne_nil (n := number) (b := 10))
  refine ⟨c, ?_, isDigit_of_mem_toDigits hc⟩
  rw [natText, String.toList_append, String.toList_ofList]
  exact List.mem_append_left _ hc

/-! ## Words that are no notes -/

namespace PatternWord

/-- The words for octave modes and volumes. -/
def settings : List String :=
  ["absolute", "orelative", "relative", "pp", "mp", "mf", "ff"]

/-- The word begins as effects of arpeggio, bend and vibrato do. -/
def BeginsEffect (word : String) : Prop :=
  ∃ head ∈ ["EN", "EP", "MP"], head.toList <+: word.toList

instance (word : String) : Decidable (BeginsEffect word) :=
  inferInstanceAs (Decidable (∃ head ∈ _, _))

theorem after?_eq_none_iff {head text : String} :
    Text.after? head text = none ↔ ¬head.toList <+: text.toList := by
  rw [Text.after?, Option.map_eq_none_iff]
  constructor
  · rintro hnone ⟨rest, hrest⟩
    rw [Text.afterChars?_eq_some_iff.mpr hrest.symm] at hnone
    cases hnone
  · intro hnot
    cases hafter : Text.afterChars? head.toList text.toList with
    | none => rfl
    | some rest => exact absurd ⟨rest, (Text.afterChars?_eq_some_iff.mp hafter).symm⟩ hnot

theorem ofWord?_eq_none_iff {word : String} :
    OctaveMode.ofWord? word = none ↔ word ∉ ["absolute", "orelative", "relative"] := by
  unfold OctaveMode.ofWord?
  split_ifs <;> simp_all

theorem volumeLevel?_eq_none_iff {word : String} :
    volumeLevel? word = none ↔ word ∉ ["pp", "mp", "mf", "ff"] := by
  unfold volumeLevel?
  split_ifs <;> simp_all

theorem not_mem_settings_iff {word : String} :
    word ∉ settings ↔ OctaveMode.ofWord? word = none ∧ volumeLevel? word = none := by
  rw [ofWord?_eq_none_iff, volumeLevel?_eq_none_iff, ← not_or, ← List.mem_append]
  rfl

theorem not_beginsEffect_iff {word : String} :
    ¬BeginsEffect word ↔ Text.after? "EN" word = none ∧ Text.after? "EP" word = none ∧
      Text.after? "MP" word = none := by
  simp [BeginsEffect, after?_eq_none_iff]

/-- Whatever is no bar check, setting, effect or instrument is a note. -/
theorem classify_eq_note_iff {word : String} :
    classify word = note ↔ word ≠ "|" ∧ word ∉ settings ∧ ¬BeginsEffect word ∧
      ¬"@".toList <+: word.toList := by
  rw [not_mem_settings_iff, not_beginsEffect_iff, ← after?_eq_none_iff]
  unfold classify
  split
  · next hbar => simp [hbar]
  split
  · next hmode => simp [hmode]
  split
  · next hvolume => simp [hvolume]
  split
  · next harpeggio => simp [harpeggio]
  split
  · next hbend => simp [hbend]
  split
  · next hvibrato => simp [hvibrato]
  split
  · next hinstrument => simp [hinstrument]
  · next hbar _ hmode _ hvolume _ harpeggio _ hbend _ hvibrato _ hinstrument =>
      simp only [Option.eq_none_iff_forall_ne_some, true_iff]
      exact ⟨hbar, ⟨hmode, hvolume⟩, ⟨harpeggio, hbend, hvibrato⟩, hinstrument⟩

/-- No name begins as the word for an instrument does. -/
theorem not_at_of_isName {name : String} (hname : DrumWord.isName name = true) :
    ¬"@".toList <+: name.toList := by
  rintro ⟨rest, hrest⟩
  obtain ⟨-, hhead, -, -⟩ := DrumWord.isNameChars_iff.mp hname
  have hat : name.toList.head? = some '@' := by
    rw [← hrest]
    rfl
  rw [hat] at hhead
  exact absurd hhead (by decide)

theorem classify_name_iff {name : String} (hname : DrumWord.isName name = true) :
    classify name = note ↔ name ∉ settings ∧ ¬BeginsEffect name := by
  have hbar : name ≠ "|" := by
    rintro rfl
    exact absurd hname (by decide)
  have hat := not_at_of_isName hname
  rw [classify_eq_note_iff]
  exact ⟨fun ⟨_, hsetting, heffect, _⟩ => ⟨hsetting, heffect⟩,
    fun ⟨hsetting, heffect⟩ => ⟨hbar, hsetting, heffect, hat⟩⟩

theorem beginsEffect_append_iff {name rest : String} (hlong : 2 ≤ name.toList.length) :
    BeginsEffect (name ++ rest) ↔ BeginsEffect name := by
  have hiff : ∀ head ∈ ["EN", "EP", "MP"],
      (head.toList <+: (name ++ rest).toList ↔ head.toList <+: name.toList) := by
    intro head hhead
    have hsize : ∀ head ∈ ["EN", "EP", "MP"], head.toList.length = 2 := by decide
    rw [String.toList_append]
    exact List.isPrefix_append_of_length (by rw [hsize head hhead]; exact hlong)
  exact exists_congr fun head => and_congr_right (hiff head)

/-- A digit behind a name keeps the word from being a setting, but not from being an
effect. -/
theorem classify_append_iff
    {name rest : String} (hname : DrumWord.isName name = true)
    (hdigit : ∃ c ∈ rest.toList, Text.isDigit c = true) :
    classify (name ++ rest) = note ↔ ¬BeginsEffect name := by
  have hlong := (DrumWord.isNameChars_iff.mp hname).1
  obtain ⟨c, hc, hdigit⟩ := hdigit
  have hmem : c ∈ (name ++ rest).toList := by
    rw [String.toList_append]
    exact List.mem_append_right _ hc
  have hother : name ++ rest ∉ "|" :: settings := by
    intro hmember
    have hspelled : OneOf ("|" :: settings) (name ++ rest).toList := List.mem_map_of_mem hmember
    have hnone : ∀ d ∈ (name ++ rest).toList, Text.isDigit d = false :=
      hspelled.forall_mem (by decide)
    rw [hnone c hmem] at hdigit
    cases hdigit
  obtain ⟨hbar, hsetting⟩ := not_or.mp (List.mem_cons.not.mp hother)
  have hat : ¬"@".toList <+: (name ++ rest).toList := by
    have hone : "@".toList.length ≤ name.toList.length := Nat.le_of_lt hlong
    rw [String.toList_append, List.isPrefix_append_of_length hone]
    exact not_at_of_isName hname
  rw [classify_eq_note_iff, beginsEffect_append_iff hlong]
  exact ⟨fun ⟨_, _, heffect, _⟩ => heffect, fun heffect => ⟨hbar, hsetting, heffect, hat⟩⟩

end PatternWord

/-! ## Striking a drum -/

namespace Pattern

variable {book : ChordBook} {pattern next : Pattern} {word name : String} {rows : Int}

/-- Reading the word strikes the drum for the rows, and adds nothing else. -/
def Strikes (pattern : Pattern) (book : ChordBook) (word name : String) (rows : Int) : Prop :=
  ∃ warnings next, addWord book word pattern = .ok warnings next ∧
    next.items = pattern.items ++ [.note (.drum name) rows .none none]

theorem addNote_apply
    {note : PatternNote} {written : Option Duration} {slur : SlurMark} {chord : Option ChordCode}
    {meter : Meter} (hrows : Meter.noteRows written pattern.meter = .ok rows meter) :
    addNote note written slur chord pattern =
      .ok () ({ pattern with meter := meter }.pushNote note rows slur chord) := by
  have htake : takeRows written pattern = .ok rows { pattern with meter := meter } := by
    simp only [takeRows, Step.on, hrows]
  rw [addNote, bind_apply_of_ok htake]
  rfl

theorem addNote_items
    {note : PatternNote} {written : Option Duration} {slur : SlurMark} {chord : Option ChordCode}
    (h : addNote note written slur chord pattern = .ok () next) :
    ∃ rows, next.items = pattern.items ++ [.note note rows slur chord] := by
  obtain ⟨rows, reached, hrows, hpush⟩ := bind_eq_ok h
  have hitems : Ensures (· = pattern) (takeRows written)
      fun _ reached => reached.items = pattern.items := by
    apply ensures_on
    rintro _ _ _ rfl -
    rfl
  have hkept := hitems pattern rows reached rfl hrows
  cases hpush
  exact ⟨rows, by simp only [pushNote, hkept]⟩

theorem addWord_hit
    {number : Option Nat} {augment : Augment} (hnote : PatternWord.classify word = .note)
    (hmode : pattern.pitch.mode = .drum)
    (hscan : DrumWord.scan? word = some ⟨.hit name, number, augment⟩) :
    addWord book word pattern =
      (do addDrum ⟨.hit name, number, augment⟩; return [] : Step Pattern (List String)) pattern
    := by
  have hword : addNoteWord book word pattern = addDrum ⟨.hit name, number, augment⟩ pattern := by
    rw [addNoteWord, get_bind_apply]
    simp only [hmode, hscan]
  simp only [addWord, hnote]
  exact bind_apply_congr hword _

/-- A word that names a drum strikes it, if the duration has a number of rows. -/
theorem strikes_of_scan?
    {number : Option Nat} {augment : Augment} {written : Option Duration} {meter : Meter}
    (hnote : PatternWord.classify word = .note) (hmode : pattern.pitch.mode = .drum)
    (hscan : DrumWord.scan? word = some ⟨.hit name, number, augment⟩)
    (hwritten : Meter.writtenDuration number augment = .ok written)
    (hrows : Meter.noteRows written pattern.meter = .ok rows meter) :
    Strikes pattern book word name rows := by
  have hdrum : addDrum ⟨.hit name, number, augment⟩ pattern =
      .ok () ({ pattern with meter := meter }.pushNote (.drum name) rows .none none) := by
    simp only [addDrum, hwritten, decide_bind_apply, addNote_apply hrows]
  refine ⟨[], { pattern with meter := meter }.pushNote (.drum name) rows .none none, ?_, rfl⟩
  rw [addWord_hit hnote hmode hscan, bind_apply_of_ok hdrum]
  rfl

/-- A word strikes no drum but the one it names. -/
theorem Strikes.name_eq
    {found : String} {number : Option Nat} {augment : Augment}
    (h : Strikes pattern book word name rows) (hnote : PatternWord.classify word = .note)
    (hmode : pattern.pitch.mode = .drum)
    (hscan : DrumWord.scan? word = some ⟨.hit found, number, augment⟩) : found = name := by
  obtain ⟨warnings, next, hadd, hitems⟩ := h
  rw [addWord_hit hnote hmode hscan] at hadd
  obtain ⟨⟨⟩, reached, hdrum, hdone⟩ := bind_eq_ok hadd
  cases hdone
  obtain ⟨written, decided, hwritten, hplay⟩ := bind_eq_ok hdrum
  obtain ⟨-, rfl⟩ := decide_eq_ok hwritten
  obtain ⟨played, hplayed⟩ := addNote_items hplay
  have hlast := List.append_cancel_left (hplayed.symm.trans hitems)
  simp only [List.cons.injEq, PatternItem.note.injEq, PatternNote.drum.injEq] at hlast
  exact hlast.1.1

/-- The pattern gains nothing, or an effect. -/
def AddsNoNote (pattern next : Pattern) : Prop :=
  next.items = pattern.items ∨ ∃ effect, next.items = pattern.items ++ [.effect effect]

theorem addEffect_addsNoNote {effect : Option PatternEffect} {warning : String} :
    Ensures (· = pattern) (addEffect effect warning) fun _ next => AddsNoNote pattern next := by
  cases effect with
  | none =>
      apply ensures_pure
      rintro _ rfl
      exact .inl rfl
  | some effect =>
      rintro _ _ _ rfl hrun
      cases hrun
      exact .inr ⟨effect, rfl⟩

theorem addArpeggio_addsNoNote {argument : String} :
    Ensures (· = pattern) (addArpeggio book word argument)
      fun _ next => AddsNoNote pattern next := by
  unfold addArpeggio
  split_ifs
  · rintro _ _ _ rfl hrun
    cases hrun
    exact .inr ⟨_, rfl⟩
  · rintro _ _ _ rfl hrun
    cases hrun
    exact .inr ⟨_, rfl⟩
  · apply ensures_advance
    rintro _ _ rfl -
    exact .inl rfl
  · apply ensures_pure
    rintro _ rfl
    exact .inl rfl

/-- A word that is no note adds none. -/
theorem addWord_addsNoNote
    {warnings : List String} (hnote : PatternWord.classify word ≠ .note)
    (h : addWord book word pattern = .ok warnings next) : AddsNoNote pattern next := by
  unfold addWord at h
  cases hword : PatternWord.classify word with
  | note => exact absurd hword hnote
  | bar =>
      simp only [hword] at h
      rw [get_bind_apply] at h
      obtain ⟨-, rfl⟩ := decide_eq_ok h
      exact .inl rfl
  | mode mode =>
      simp only [hword] at h
      rw [selectMode, get_bind_apply] at h
      split_ifs at h
      · cases h
      · cases h
        exact .inl rfl
  | volume level =>
      simp only [hword] at h
      exact addEffect_addsNoNote pattern warnings next rfl h
  | arpeggio argument =>
      simp only [hword] at h
      exact addArpeggio_addsNoNote pattern warnings next rfl h
  | bend argument =>
      simp only [hword] at h
      exact addEffect_addsNoNote pattern warnings next rfl h
  | vibrato argument =>
      simp only [hword] at h
      exact addEffect_addsNoNote pattern warnings next rfl h
  | instrument selected =>
      simp only [hword] at h
      rw [selectInstrument] at h
      split_ifs at h
      · cases h
      · cases h
        exact .inr ⟨_, rfl⟩

theorem Strikes.classify_eq (h : Strikes pattern book word name rows) :
    PatternWord.classify word = .note := by
  by_contra hnote
  obtain ⟨warnings, next, hadd, hitems⟩ := h
  obtain hsame | ⟨effect, heffect⟩ := addWord_addsNoNote hnote hadd
  · rw [hitems] at hsame
    simp at hsame
  · rw [hitems] at heffect
    simp at heffect

/-- A drum is struck by its name and a duration exactly if the name does not begin as an
effect and the note is no grace note, and by its name alone exactly if that is moreover no
word for an octave mode or a volume. -/
theorem strikes_iff
    (book : ChordBook) {qualified : String} {effects : List String} {place : Location} {drum : Drum}
    (hdrum : Drum.define qualified name effects place = .ok drum)
    (hmode : pattern.pitch.mode = .drum) :
    (∀ number augment written rows meter,
      Meter.writtenDuration (some number) augment = .ok written →
      Meter.noteRows written pattern.meter = .ok rows meter →
      (Strikes pattern book (name ++ Text.natText number ++ augment.suffix) name rows ↔
        augment ≠ .grace ∧ ¬PatternWord.BeginsEffect name)) ∧
    ∀ rows meter, Meter.noteRows none pattern.meter = .ok rows meter →
      (Strikes pattern book name name rows ↔
        name ∉ PatternWord.settings ∧ ¬PatternWord.BeginsEffect name) := by
  have hname := Drum.isName_of_define hdrum
  refine ⟨?_, ?_⟩
  · intro number augment written rows meter hwritten hrows
    have hclass := PatternWord.classify_append_iff hname
      (Text.exists_isDigit_natText number augment.suffix)
    rw [← String.append_assoc] at hclass
    constructor
    · intro hstrikes
      refine ⟨?_, hclass.mp hstrikes.classify_eq⟩
      -- The whole word is a longer name.
      rintro rfl
      have hlonger := DrumWord.scan?_name (DrumWord.isName_grace hname number)
      have heq := hstrikes.name_eq hstrikes.classify_eq hmode hlonger
      have hlength := congrArg (fun text : String => text.toList.length) heq
      simp [Augment.suffix] at hlength
    · rintro ⟨haugment, heffect⟩
      have hscan := DrumWord.scan?_numbered hname (Meter.lt_of_writtenDuration hwritten) haugment
      exact strikes_of_scan? (hclass.mpr heffect) hmode hscan hwritten hrows
  · intro rows meter hrows
    rw [← PatternWord.classify_name_iff hname]
    constructor
    · exact Strikes.classify_eq
    · intro hnote
      exact strikes_of_scan? hnote hmode (DrumWord.scan?_name hname) rfl hrows

/-- A drum pattern without notes. -/
def groove : Pattern := blank "groove" ⟨"score", 1⟩ (some .drum) none .initial .initial

/-- A digit inside the name does not end it. -/
theorem groove_strikes_hat :
    groove.pitch.mode = .drum ∧
      Drum.define "hat2x" "hat2x" ["tick"] ⟨"score", 2⟩ =
        .ok ⟨"hat2x", ⟨"score", 2⟩, ["tick"]⟩ ∧
      Strikes groove .blank "hat2x8." "hat2x" 3 ∧ Strikes groove .blank "hat2x" "hat2x" 4 := by
  have hdrum : Drum.define "hat2x" "hat2x" ["tick"] ⟨"score", 2⟩ =
      .ok ⟨"hat2x", ⟨"score", 2⟩, ["tick"]⟩ := rfl
  have hword : "hat2x" ++ Text.natText 8 ++ Augment.dotted.suffix = "hat2x8." := by decide
  obtain ⟨hnumbered, hbare⟩ := strikes_iff .blank hdrum (rfl : groove.pitch.mode = .drum)
  have hstrikes := (hnumbered 8 .dotted (some ⟨8, .dotted⟩) 3 _ rfl rfl).mpr (by decide)
  rw [hword] at hstrikes
  exact ⟨rfl, hdrum, hstrikes, (hbare 4 _ rfl).mpr (by decide)⟩

/-- The word for a grace note of the drum `kick` strikes the drum `kick4g`. -/
theorem groove_misses_grace :
    Drum.define "kick" "kick" ["thump"] ⟨"score", 2⟩ =
        .ok ⟨"kick", ⟨"score", 2⟩, ["thump"]⟩ ∧
      Meter.writtenDuration (some 4) .grace = .ok (some ⟨4, .grace⟩) ∧
      Meter.noteRows (some ⟨4, .grace⟩) groove.meter = .ok (-4) groove.meter ∧
      Strikes groove .blank "kick4g" "kick4g" 4 ∧ ¬Strikes groove .blank "kick4g" "kick" (-4) := by
  have hname : DrumWord.isName "kick4g" = true := by decide
  have hnote : PatternWord.classify "kick4g" = .note :=
    (PatternWord.classify_name_iff hname).mpr (by decide)
  have hscan := DrumWord.scan?_name hname
  refine ⟨rfl, rfl, rfl, strikes_of_scan? hnote rfl hscan rfl rfl, ?_⟩
  intro hstrikes
  exact absurd (hstrikes.name_eq hnote rfl hscan) (by decide)

end Pattern

end Chiptune
