import Chiptune.Note.Word
import Mathlib.Data.Char

/-!
# The spelling of note words

The grammar of note words is told here on their characters, part by part and apart from
any scanner. What one part is made of never begins what stands behind it, so a word is
spelled in at most one way.
-/

namespace Chiptune

/-! ## Runs of characters -/

namespace Text

section Runs

variable {p : Char → Bool} {run rest : List Char}

theorem takeWhile_run
    (hrun : ∀ c ∈ run, p c = true) (hrest : ∀ c ∈ rest.head?, p c = false) :
    (run ++ rest).takeWhile p = run := by
  have hstop : rest.takeWhile p = [] := by
    cases rest with
    | nil => rfl
    | cons c cs => simp [hrest c rfl]
  rw [List.takeWhile_append_of_pos hrun, hstop, List.append_nil]

theorem dropWhile_run
    (hrun : ∀ c ∈ run, p c = true) (hrest : ∀ c ∈ rest.head?, p c = false) :
    (run ++ rest).dropWhile p = rest := by
  have hstop : rest.dropWhile p = rest := by
    cases rest with
    | nil => rfl
    | cons c cs => simp [hrest c rfl]
  rw [List.dropWhile_append_of_pos hrun, hstop]

end Runs

/-- A run of characters of a class can be told from what begins outside the class. -/
theorem run_unique
    {p : Char → Prop} {run rest run' rest' : List Char}
    (hrun : ∀ c ∈ run, p c) (hrest : ∀ c ∈ rest.head?, ¬p c)
    (hrun' : ∀ c ∈ run', p c) (hrest' : ∀ c ∈ rest'.head?, ¬p c)
    (h : run ++ rest = run' ++ rest') : run = run' ∧ rest = rest' := by
  classical
  have htake {run rest : List Char} (hrun : ∀ c ∈ run, p c) (hrest : ∀ c ∈ rest.head?, ¬p c) :
      (run ++ rest).takeWhile p = run :=
    takeWhile_run (by simpa using hrun) (by simpa using hrest)
  have hsame : run = run' := by rw [← htake hrun hrest, h, htake hrun' hrest']
  subst hsame
  exact ⟨rfl, List.append_cancel_left h⟩

theorem mem_head?_append {c : Char} {front behind : List Char}
    (h : c ∈ (front ++ behind).head?) : c ∈ front.head? ∨ c ∈ behind.head? := by
  cases front with
  | nil => exact .inr h
  | cons first later => exact .inl h

/-- A property of listed characters, decided one by one. -/
theorem forall_mem_of_all
    {q : Char → Prop} [DecidablePred q] {cs : List Char} (h : cs.all (q ·) = true) :
    ∀ c ∈ cs, q c := by
  simpa using h

theorem not_mem_of_class
    {p : Char → Bool} {c : Char} {cs : List Char} (hc : p c = true) (hcs : cs.any p = false) :
    c ∉ cs := by
  intro hmem
  have hany : cs.any p = true := List.any_eq_true.mpr ⟨c, hmem, hc⟩
  rw [hcs] at hany
  cases hany

theorem isAlphanumeric_of_isHexDigit {c : Char} (h : isHexDigit c = true) :
    isAlphanumeric c = true := by
  unfold isHexDigit hexValue? at h
  unfold isAlphanumeric isLetter
  split at h
  · next hdigit => simp [hdigit]
  split at h
  · next hlower =>
      simp only [Bool.and_eq_true, decide_eq_true_eq] at hlower
      have hz : c ≤ 'z' := le_trans hlower.2 (by decide : 'f' ≤ 'z')
      simp [hlower.1, hz]
  split at h
  · next hupper =>
      simp only [Bool.and_eq_true, decide_eq_true_eq] at hupper
      have hz : c ≤ 'Z' := le_trans hupper.2 (by decide : 'F' ≤ 'Z')
      simp [hupper.1, hz]
  · cases h

theorem isLetter_of_isDigit {c : Char} (h : isDigit c = true) : isLetter c = false := by
  simp only [isDigit, Bool.and_eq_true, decide_eq_true_eq] at h
  have hlower : c < 'a' := lt_of_le_of_lt h.2 (by decide : '9' < 'a')
  have hupper : c < 'A' := lt_of_le_of_lt h.2 (by decide : '9' < 'A')
  simp [isLetter, not_le.mpr hlower, not_le.mpr hupper]

end Text

/-! ## The grammar -/

/-- The characters are one of the spellings. -/
def OneOf (spellings : List String) (part : List Char) : Prop :=
  part ∈ spellings.map String.toList

instance (spellings : List String) (part : List Char) : Decidable (OneOf spellings part) :=
  inferInstanceAs (Decidable (_ ∈ _))

/-- Any number of the one mark or any number of the other. -/
def IsRun (up down : Char) (marks : List Char) : Prop :=
  ∃ count, marks = List.replicate count up ∨ marks = List.replicate count down

/-- The name of a chord: a letter and what is alphanumeric behind it, or a digit and at
most one hexadecimal digit. -/
inductive IsChordName : List Char → Prop where
  | letter {c : Char} {cs : List Char} (hc : Text.isLetter c = true)
      (hcs : ∀ d ∈ cs, Text.isAlphanumeric d = true) : IsChordName (c :: cs)
  | digit {c : Char} (hc : Text.isDigit c = true) : IsChordName [c]
  | digits {c d : Char} (hc : Text.isDigit c = true) (hd : Text.isHexDigit d = true) :
      IsChordName [c, d]

/-- The written parts of a chord. -/
@[ext] structure ChordSpelling where
  sign : List Char
  name : List Char
  inversion : List Char
  isSign : OneOf ["", "-"] sign
  isName : IsChordName name
  isInversion : OneOf ["", "/1", "/2"] inversion

/-- The written parts of a note word behind its accidental. -/
@[ext] structure TailSpelling where
  marks : List Char
  digits : List Char
  suffix : List Char
  chord : Option ChordSpelling
  slur : List Char
  isMarks : IsRun '\'' ',' marks
  isDigits : ∀ c ∈ digits, Text.isDigit c = true
  isSuffix : OneOf ["", ".", "..", "g"] suffix
  isSlur : OneOf ["", "(", ")", "~"] slur

/-- No accidental, and the fifteen spellings of one. -/
def accidentalSpellings : List String :=
  ["", "b", "bb", "-", "--", "es", "eses", "#", "##", "+", "++", "s", "ss", "is", "isis", "x"]

/-- The letters of tones, and those of a rest, a wait, a length and a repeated chord. -/
def noteLetters : List Char := ['a', 'b', 'c', 'd', 'e', 'f', 'g', 'h', 'r', 'w', 'l', 'q']

/-- The written parts of a note word. -/
@[ext] structure NoteSpelling where
  leading : List Char
  letter : Char
  accidental : List Char
  tail : TailSpelling
  isLeading : IsRun '>' '<' leading
  isLetter : letter ∈ noteLetters
  isAccidental : OneOf accidentalSpellings accidental

namespace ChordSpelling

/-- The characters of a chord. -/
def chars (chord : ChordSpelling) : List Char :=
  chord.sign ++ (chord.name ++ chord.inversion)

/-- The text of a chord. -/
def text (chord : ChordSpelling) : String := String.ofList chord.chars

/-- A chord with its colon, if there is one. -/
def colonChars : Option ChordSpelling → List Char
  | none => []
  | some chord => ':' :: chord.chars

end ChordSpelling

namespace TailSpelling

/-- What stands behind the suffix. -/
def ending (tail : TailSpelling) : List Char :=
  ChordSpelling.colonChars tail.chord ++ tail.slur

/-- What stands behind the number. -/
def augmented (tail : TailSpelling) : List Char := tail.suffix ++ tail.ending

/-- What stands behind the octave marks. -/
def timed (tail : TailSpelling) : List Char := tail.digits ++ tail.augmented

/-- What stands behind the accidental. -/
def chars (tail : TailSpelling) : List Char := tail.marks ++ tail.timed

end TailSpelling

namespace NoteSpelling

/-- The characters of a note word. -/
def chars (word : NoteSpelling) : List Char :=
  word.leading ++ word.letter :: (word.accidental ++ word.tail.chars)

/-- The note word. -/
def text (word : NoteSpelling) : String := String.ofList word.chars

end NoteSpelling

/-! ## What parts are made of -/

@[simp] theorem oneOf_nil (part : List Char) : ¬OneOf [] part := List.not_mem_nil

@[simp] theorem oneOf_cons (spelling : String) (spellings : List String) (part : List Char) :
    OneOf (spelling :: spellings) part ↔ part = spelling.toList ∨ OneOf spellings part :=
  List.mem_cons

theorem OneOf.forall_mem
    {spellings : List String} {part : List Char} {q : Char → Prop} [DecidablePred q]
    (h : OneOf spellings part) (hall : spellings.all (·.toList.all (q ·)) = true) :
    ∀ c ∈ part, q c := by
  obtain ⟨spelling, hmem, rfl⟩ := List.mem_map.mp h
  exact Text.forall_mem_of_all (List.all_eq_true.mp hall spelling hmem)

theorem OneOf.forall_head?
    {spellings : List String} {part : List Char} {q : Char → Prop} [DecidablePred q]
    (h : OneOf spellings part) (hall : spellings.all (·.toList.head?.all (q ·)) = true) :
    ∀ c ∈ part.head?, q c := by
  obtain ⟨spelling, hmem, rfl⟩ := List.mem_map.mp h
  intro c hc
  have hhead := List.all_eq_true.mp hall spelling hmem
  rw [Option.mem_def.mp hc] at hhead
  exact of_decide_eq_true hhead

theorem IsRun.forall_mem {up down : Char} {marks : List Char} (h : IsRun up down marks) :
    ∀ c ∈ marks, c ∈ [up, down] := by
  intro c hc
  obtain ⟨count, rfl | rfl⟩ := h
  · simp [List.eq_of_mem_replicate hc]
  · simp [List.eq_of_mem_replicate hc]

theorem IsChordName.isAlphanumeric {name : List Char} (h : IsChordName name) :
    ∀ c ∈ name, Text.isAlphanumeric c = true := by
  cases h with
  | letter hc hcs =>
      refine List.forall_mem_cons.mpr ⟨?_, hcs⟩
      simp [Text.isAlphanumeric, hc]
  | digit hc => simp [Text.isAlphanumeric, hc]
  | digits hc hd =>
      refine List.forall_mem_cons.mpr ⟨?_, ?_⟩
      · simp [Text.isAlphanumeric, hc]
      · simpa using Text.isAlphanumeric_of_isHexDigit hd

theorem IsChordName.isAlphanumeric_head
    {name rest : List Char} (h : IsChordName name) :
    ∀ c ∈ (name ++ rest).head?, Text.isAlphanumeric c = true := by
  intro c hc
  have hmem : c ∈ name := by
    cases h with
    | letter | digit | digits =>
        cases hc
        exact List.mem_cons_self
  exact h.isAlphanumeric c hmem

namespace ChordSpelling

variable (chord : ChordSpelling)

theorem head?_inversion : ∀ c ∈ chord.inversion.head?, ¬Text.isAlphanumeric c = true :=
  chord.isInversion.forall_head? (by decide)

/-- No slur mark stands in a chord. -/
theorem not_slur_of_mem_chars : ∀ c ∈ chord.chars, c ∉ ['(', ')', '~'] := by
  have hsign : ∀ c ∈ chord.sign, c ∉ ['(', ')', '~'] := chord.isSign.forall_mem (by decide)
  have hname : ∀ c ∈ chord.name, c ∉ ['(', ')', '~'] := fun c hc =>
    Text.not_mem_of_class (chord.isName.isAlphanumeric c hc) (by decide)
  have hinversion : ∀ c ∈ chord.inversion, c ∉ ['(', ')', '~'] :=
    chord.isInversion.forall_mem (by decide)
  exact List.forall_mem_append.mpr ⟨hsign, List.forall_mem_append.mpr ⟨hname, hinversion⟩⟩

theorem chars_injective : Function.Injective chars := by
  intro chord other h
  have hsign (chord : ChordSpelling) : ∀ c ∈ chord.sign, c = '-' :=
    chord.isSign.forall_mem (by decide)
  have hname (chord : ChordSpelling) :
      ∀ c ∈ (chord.name ++ chord.inversion).head?, c ≠ '-' := by
    rintro c hc rfl
    exact absurd (chord.isName.isAlphanumeric_head _ hc) (by decide)
  obtain ⟨hsigns, hrest⟩ :=
    Text.run_unique (hsign chord) (hname chord) (hsign other) (hname other) h
  obtain ⟨hnames, hinversions⟩ :=
    Text.run_unique chord.isName.isAlphanumeric chord.head?_inversion
      other.isName.isAlphanumeric other.head?_inversion hrest
  exact ChordSpelling.ext hsigns hnames hinversions

theorem not_slur_of_mem_colonChars (chord : Option ChordSpelling) :
    ∀ c ∈ colonChars chord, c ∉ ['(', ')', '~'] := by
  cases chord with
  | none => exact List.forall_mem_nil _
  | some chord => exact List.forall_mem_cons.mpr ⟨by decide, chord.not_slur_of_mem_chars⟩

theorem colonChars_injective : Function.Injective colonChars := by
  intro chord other h
  cases chord with
  | none =>
      cases other with
      | none => rfl
      | some other => cases h
  | some chord =>
      cases other with
      | none => cases h
      | some other => rw [chars_injective (List.cons.inj h).2]

end ChordSpelling

namespace TailSpelling

variable (tail : TailSpelling)

theorem head?_slur : ∀ c ∈ tail.slur.head?, ¬c ∉ ['(', ')', '~'] :=
  tail.isSlur.forall_head? (by decide)

theorem head?_ending : ∀ c ∈ tail.ending.head?, c ∈ [':', '(', ')', '~'] := by
  intro c hc
  rcases Text.mem_head?_append hc with hchord | hslur
  · cases hspelled : tail.chord with
    | none =>
        rw [hspelled] at hchord
        cases hchord
    | some chord =>
        rw [hspelled] at hchord
        cases hchord
        decide
  · exact List.mem_cons_of_mem _ (not_not.mp (tail.head?_slur c hslur))

theorem head?_augmented :
    ∀ c ∈ tail.augmented.head?, c ∈ ['.', 'g', ':', '(', ')', '~'] := by
  have hsuffix : ∀ c ∈ tail.suffix.head?, c ∈ ['.', 'g', ':', '(', ')', '~'] :=
    tail.isSuffix.forall_head? (by decide)
  have hending : ∀ c ∈ [':', '(', ')', '~'], c ∈ ['.', 'g', ':', '(', ')', '~'] :=
    Text.forall_mem_of_all (by decide)
  intro c hc
  rcases Text.mem_head?_append hc with hfirst | hrest
  · exact hsuffix c hfirst
  · exact hending c (tail.head?_ending c hrest)

theorem head?_timed :
    ∀ c ∈ tail.timed.head?,
      Text.isDigit c = true ∨ c ∈ ['.', 'g', ':', '(', ')', '~'] := by
  intro c hc
  rcases Text.mem_head?_append hc with hfirst | hrest
  · exact .inl (tail.isDigits c (List.mem_of_mem_head? hfirst))
  · exact .inr (tail.head?_augmented c hrest)

/-- What a tail can begin with. -/
theorem head?_chars :
    ∀ c ∈ tail.chars.head?,
      Text.isDigit c = true ∨ c ∈ ['\'', ',', '.', 'g', ':', '(', ')', '~'] := by
  have hmarks : ∀ c ∈ ['\'', ','], c ∈ ['\'', ',', '.', 'g', ':', '(', ')', '~'] :=
    Text.forall_mem_of_all (by decide)
  intro c hc
  rcases Text.mem_head?_append hc with hfirst | hrest
  · exact .inr (hmarks c (tail.isMarks.forall_mem c (List.mem_of_mem_head? hfirst)))
  · rcases tail.head?_timed c hrest with hdigit | hlater
    · exact .inl hdigit
    · exact .inr (List.mem_cons_of_mem _ (List.mem_cons_of_mem _ hlater))

theorem timed_not_mark : ∀ c ∈ tail.timed.head?, c ∉ ['\'', ','] := by
  have hrest : ∀ c ∈ ['.', 'g', ':', '(', ')', '~'], c ∉ ['\'', ','] :=
    Text.forall_mem_of_all (by decide)
  intro c hc
  rcases tail.head?_timed c hc with hdigit | hlater
  · exact Text.not_mem_of_class hdigit (by decide)
  · exact hrest c hlater

theorem augmented_not_digit : ∀ c ∈ tail.augmented.head?, Text.isDigit c = false := by
  have hrest : ∀ c ∈ ['.', 'g', ':', '(', ')', '~'], Text.isDigit c = false :=
    Text.forall_mem_of_all (by decide)
  exact fun c hc => hrest c (tail.head?_augmented c hc)

theorem ending_not_suffix : ∀ c ∈ tail.ending.head?, c ∉ ['.', 'g'] := by
  have hrest : ∀ c ∈ [':', '(', ')', '~'], c ∉ ['.', 'g'] :=
    Text.forall_mem_of_all (by decide)
  exact fun c hc => hrest c (tail.head?_ending c hc)

theorem chars_injective : Function.Injective chars := by
  intro tail other h
  have hsuffix (tail : TailSpelling) : ∀ c ∈ tail.suffix, c ∈ ['.', 'g'] :=
    tail.isSuffix.forall_mem (by decide)
  obtain ⟨hmarks, htimed⟩ := Text.run_unique tail.isMarks.forall_mem tail.timed_not_mark
    other.isMarks.forall_mem other.timed_not_mark h
  obtain ⟨hdigits, haugmented⟩ := Text.run_unique tail.isDigits
    (by simpa using tail.augmented_not_digit) other.isDigits
    (by simpa using other.augmented_not_digit) htimed
  obtain ⟨hsuffixes, hending⟩ := Text.run_unique (hsuffix tail) tail.ending_not_suffix
    (hsuffix other) other.ending_not_suffix haugmented
  obtain ⟨hchords, hslurs⟩ :=
    Text.run_unique (ChordSpelling.not_slur_of_mem_colonChars tail.chord) tail.head?_slur
      (ChordSpelling.not_slur_of_mem_colonChars other.chord) other.head?_slur hending
  exact TailSpelling.ext hmarks hdigits hsuffixes (ChordSpelling.colonChars_injective hchords)
    hslurs

end TailSpelling

/-- No character of an accidental begins a tail. So where one accidental is the beginning of
another, only one of the two stands in front of a tail. -/
theorem accidental_unique
    {accidental accidental' : List Char} {tail tail' : TailSpelling}
    (h : OneOf accidentalSpellings accidental) (h' : OneOf accidentalSpellings accidental')
    (hsame : accidental ++ tail.chars = accidental' ++ tail'.chars) :
    accidental = accidental' ∧ tail = tail' := by
  have hclass {part : List Char} (hpart : OneOf accidentalSpellings part) :
      ∀ c ∈ part, c ∈ ['b', '-', 'e', 's', '#', '+', 'i', 'x'] :=
    hpart.forall_mem (by decide)
  have htail (tail : TailSpelling) :
      ∀ c ∈ tail.chars.head?, c ∉ ['b', '-', 'e', 's', '#', '+', 'i', 'x'] := by
    have hmarks : ∀ c ∈ ['\'', ',', '.', 'g', ':', '(', ')', '~'],
        c ∉ ['b', '-', 'e', 's', '#', '+', 'i', 'x'] := Text.forall_mem_of_all (by decide)
    intro c hc
    rcases tail.head?_chars c hc with hdigit | hmark
    · exact Text.not_mem_of_class hdigit (by decide)
    · exact hmarks c hmark
  obtain ⟨haccidental, hchars⟩ :=
    Text.run_unique (hclass h) (htail tail) (hclass h') (htail tail') hsame
  exact ⟨haccidental, TailSpelling.chars_injective hchars⟩

namespace NoteSpelling

theorem letter_not_mark (word : NoteSpelling) :
    ∀ c ∈ (word.letter :: (word.accidental ++ word.tail.chars)).head?, c ∉ ['>', '<'] := by
  have hletters : ∀ c ∈ noteLetters, c ∉ ['>', '<'] := Text.forall_mem_of_all (by decide)
  intro c hc
  cases hc
  exact hletters _ word.isLetter

theorem text_injective : Function.Injective text := by
  intro word other h
  have hchars : word.chars = other.chars := String.ofList_injective h
  obtain ⟨hleading, hrest⟩ := Text.run_unique word.isLeading.forall_mem word.letter_not_mark
    other.isLeading.forall_mem other.letter_not_mark hchars
  obtain ⟨hletters, hbehind⟩ := List.cons.inj hrest
  obtain ⟨haccidental, htail⟩ := accidental_unique word.isAccidental other.isAccidental hbehind
  exact NoteSpelling.ext hleading hletters haccidental htail

end NoteSpelling

end Chiptune
