import Chiptune.Proofs.Note.Spelling
import Mathlib.Data.List.Induction
import Mathlib.Data.List.TakeWhile
import Mathlib.Data.Nat.Digits.Defs

/-!
# Scanning note words

The scanner takes the longest run at every part of a note word and tries the accidentals
in turn. It accepts the words that the grammar spells and no others, and gives the parts of
their spelling.
-/

namespace Chiptune

/-! ## Scanning parts -/

theorem Text.afterChars?_eq_some_iff {head cs rest : List Char} :
    afterChars? head cs = some rest ↔ cs = head ++ rest := by
  induction head generalizing cs with
  | nil => simp [afterChars?]
  | cons h hs ih =>
      cases cs with
      | nil => simp [afterChars?]
      | cons c cs =>
          by_cases heq : h = c
          · simp [afterChars?, heq, ih]
          · simp [afterChars?, heq, Ne.symm heq]

theorem Text.decimalValue_eq_ofDigits (cs : List Char) :
    decimalValue cs = Nat.ofDigits 10 (cs.reverse.map fun c => c.toNat - '0'.toNat) := by
  induction cs using List.reverseRecOn with
  | nil => rfl
  | append_singleton cs c ih =>
      rw [List.reverse_append, List.reverse_singleton, List.singleton_append, List.map_cons,
        Nat.ofDigits_cons, ← ih]
      simp only [decimalValue, List.foldl_append, List.foldl_cons, List.foldl_nil]
      push_cast
      omega

/-- The marks that a signed count stands for. -/
def octaveMarks (up down : Char) (count : Int) : List Char :=
  List.replicate count.toNat up ++ List.replicate (-count).toNat down

/-- The number that digits denote, held at the greatest number of 32 bits. -/
def numberOf (digits : List Char) : Option Nat :=
  if digits = [] then none
  else some (min (Nat.ofDigits 10 (digits.reverse.map fun c => c.toNat - '0'.toNat)) (2 ^ 32 - 1))

/-- The character of a slur mark. -/
def SlurMark.spelling : SlurMark → String
  | none => ""
  | start => "("
  | finish => ")"
  | tie => "~"

theorem octaveMarks_ofNat (up down : Char) (count : Nat) :
    octaveMarks up down (Int.ofNat count) = List.replicate count up := by
  simp [octaveMarks]

theorem octaveMarks_neg (up down : Char) (count : Nat) :
    octaveMarks up down (-Int.ofNat count) = List.replicate count down := by
  simp [octaveMarks]

theorem isRun_octaveMarks (up down : Char) (count : Int) :
    IsRun up down (octaveMarks up down count) := by
  rcases Int.eq_nat_or_neg count with ⟨n, rfl | rfl⟩
  · exact ⟨n, .inl (octaveMarks_ofNat up down n)⟩
  · exact ⟨n, .inr (octaveMarks_neg up down n)⟩

namespace NoteWord

theorem takeMarks_append
    {up down : Char} (hne : up ≠ down) {marks rest : List Char} (hmarks : IsRun up down marks)
    (hrest : ∀ c ∈ rest.head?, c ∉ [up, down]) :
    ∃ count, takeMarks up down (marks ++ rest) = (count, rest) ∧
      marks = octaveMarks up down count := by
  have hrun (c : Char) (count : Nat) : ∀ d ∈ List.replicate count c, (d == c) = true := by
    intro d hd
    simpa using List.eq_of_mem_replicate hd
  have hup : ∀ c ∈ rest.head?, (c == up) = false := fun c hc => by
    simpa using fun heq => hrest c hc (by simp [heq])
  have hdown : ∀ c ∈ rest.head?, (c == down) = false := fun c hc => by
    simpa using fun heq => hrest c hc (by simp [heq])
  have hdowns (count : Nat) : takeMarks up down (List.replicate count down ++ rest) =
      (-Int.ofNat count, rest) := by
    have hnone : (List.replicate count down ++ rest).takeWhile (· == up) = [] := by
      cases count with
      | zero => exact Text.takeWhile_run (List.forall_mem_nil _) hup
      | succ count => simp [List.replicate_succ, Ne.symm hne]
    simp [takeMarks, hnone, Text.takeWhile_run (hrun down count) hdown,
      Text.dropWhile_run (hrun down count) hdown]
  obtain ⟨count, rfl | rfl⟩ := hmarks
  · refine ⟨Int.ofNat count, ?_, (octaveMarks_ofNat up down count).symm⟩
    cases count with
    | zero => exact hdowns 0
    | succ count =>
        simp [takeMarks, Text.takeWhile_run (hrun up (count + 1)) hup,
          Text.dropWhile_run (hrun up (count + 1)) hup]
  · exact ⟨-Int.ofNat count, hdowns count, (octaveMarks_neg up down count).symm⟩

theorem append_takeMarks (up down : Char) (cs : List Char) :
    octaveMarks up down (takeMarks up down cs).1 ++ (takeMarks up down cs).2 = cs := by
  have hrun (c : Char) : List.replicate (cs.takeWhile (· == c)).length c =
      cs.takeWhile (· == c) :=
    (List.eq_replicate_of_mem fun d hd => by simpa using List.mem_takeWhile_imp hd).symm
  simp only [takeMarks]
  split
  · rw [octaveMarks_neg, hrun, List.takeWhile_append_dropWhile]
  · rw [octaveMarks_ofNat, hrun, List.takeWhile_append_dropWhile]

theorem takeNumber_append
    {digits rest : List Char} (hdigits : ∀ c ∈ digits, Text.isDigit c = true)
    (hrest : ∀ c ∈ rest.head?, Text.isDigit c = false) :
    takeNumber (digits ++ rest) = (numberOf digits, rest) := by
  simp only [takeNumber, Text.takeWhile_run hdigits hrest, Text.dropWhile_run hdigits hrest]
  split
  · next hempty =>
      rw [List.isEmpty_iff] at hempty
      simp [hempty, numberOf]
  · next hsome =>
      rw [List.isEmpty_iff] at hsome
      rw [numberOf, if_neg hsome, Text.decimalValue_eq_ofDigits]
      rfl

theorem exists_append_takeNumber (cs : List Char) :
    ∃ digits, (∀ c ∈ digits, Text.isDigit c = true) ∧ digits ++ (takeNumber cs).2 = cs := by
  simp only [takeNumber]
  split
  · exact ⟨[], List.forall_mem_nil _, rfl⟩
  · exact ⟨cs.takeWhile Text.isDigit, fun c hc => List.mem_takeWhile_imp hc,
      List.takeWhile_append_dropWhile⟩

theorem takeAugment_append
    {suffix rest : List Char} (hsuffix : OneOf ["", ".", "..", "g"] suffix)
    (hrest : ∀ c ∈ rest.head?, c ∉ ['.', 'g']) :
    ∃ augment : Augment, takeAugment (suffix ++ rest) = (augment, rest) ∧
      suffix = augment.suffix.toList := by
  have hplain : takeAugment rest = (.plain, rest) := by
    unfold takeAugment
    split
    · exact absurd List.mem_cons_self (hrest '.' rfl)
    · exact absurd List.mem_cons_self (hrest '.' rfl)
    · exact absurd (by decide) (hrest 'g' rfl)
    · rfl
  have hdotted : takeAugment ('.' :: rest) = (.dotted, rest) := by
    unfold takeAugment
    split
    · next heq =>
        cases heq
        exact absurd List.mem_cons_self (hrest '.' rfl)
    · next heq =>
        cases heq
        rfl
    · next heq => cases heq
    · next hdot _ => exact absurd rfl (hdot rest)
  simp only [oneOf_cons, oneOf_nil, or_false] at hsuffix
  rcases hsuffix with rfl | rfl | rfl | rfl
  · exact ⟨.plain, hplain, rfl⟩
  · exact ⟨.dotted, hdotted, rfl⟩
  · exact ⟨.doubleDotted, rfl, rfl⟩
  · exact ⟨.grace, rfl, rfl⟩

theorem append_takeAugment (cs : List Char) :
    (takeAugment cs).1.suffix.toList ++ (takeAugment cs).2 = cs := by
  unfold takeAugment
  split <;> simp [Augment.suffix]

theorem takeAugment_suffix (augment : Augment) :
    takeAugment augment.suffix.toList = (augment, []) := by
  cases augment <;> rfl

theorem takeSign_append
    {sign rest : List Char} (hsign : OneOf ["", "-"] sign) (hrest : ∀ c ∈ rest.head?, c ≠ '-') :
    takeSign (sign ++ rest) = (sign, rest) := by
  have hnone : takeSign rest = ([], rest) := by
    unfold takeSign
    split
    · exact absurd rfl (hrest '-' rfl)
    · rfl
  simp only [oneOf_cons, oneOf_nil, or_false] at hsign
  rcases hsign with rfl | rfl
  · exact hnone
  · rfl

theorem append_takeSign (cs : List Char) :
    OneOf ["", "-"] (takeSign cs).1 ∧ (takeSign cs).1 ++ (takeSign cs).2 = cs := by
  unfold takeSign
  split <;> simp

theorem takeInversion_append
    {inversion rest : List Char} (hinversion : OneOf ["", "/1", "/2"] inversion)
    (hrest : ∀ c ∈ rest.head?, c ≠ '/') :
    takeInversion (inversion ++ rest) = (inversion, rest) := by
  have hnone : takeInversion rest = ([], rest) := by
    unfold takeInversion
    split
    · exact absurd rfl (hrest '/' rfl)
    · exact absurd rfl (hrest '/' rfl)
    · rfl
  simp only [oneOf_cons, oneOf_nil, or_false] at hinversion
  rcases hinversion with rfl | rfl | rfl
  · exact hnone
  · rfl
  · rfl

theorem append_takeInversion (cs : List Char) :
    OneOf ["", "/1", "/2"] (takeInversion cs).1 ∧
      (takeInversion cs).1 ++ (takeInversion cs).2 = cs := by
  unfold takeInversion
  split <;> simp

theorem takeChordName_append
    {name rest : List Char} (hname : IsChordName name)
    (hrest : ∀ c ∈ rest.head?, Text.isAlphanumeric c = false) :
    takeChordName (name ++ rest) = some (name, rest) := by
  cases hname with
  | letter hc hcs =>
      simp [takeChordName, hc, Text.takeWhile_run hcs hrest, Text.dropWhile_run hcs hrest]
  | digit hc =>
      have hletter := Text.isLetter_of_isDigit hc
      cases rest with
      | nil => simp [takeChordName, hc, hletter]
      | cons d later =>
          have hhex : ¬Text.isHexDigit d = true := fun hhex => by
            have hnot := hrest d rfl
            rw [Text.isAlphanumeric_of_isHexDigit hhex] at hnot
            cases hnot
          simp [takeChordName, hc, hletter, hhex]
  | digits hc hd => simp [takeChordName, hc, hd, Text.isLetter_of_isDigit hc]

theorem append_of_takeChordName
    {cs name rest : List Char} (h : takeChordName cs = some (name, rest)) :
    IsChordName name ∧ name ++ rest = cs := by
  unfold takeChordName at h
  split at h
  · cases h
  next c cs =>
  split at h
  · next hletter =>
      cases h
      refine ⟨.letter hletter fun d hd => List.mem_takeWhile_imp hd, ?_⟩
      rw [List.cons_append, List.takeWhile_append_dropWhile]
  split at h
  · next hdigit =>
      split at h
      · cases h
        exact ⟨.digit hdigit, rfl⟩
      · split at h
        · next hhex =>
            cases h
            exact ⟨.digits hdigit hhex, rfl⟩
        · cases h
          exact ⟨.digit hdigit, rfl⟩
  · cases h

theorem takeChord_append
    (chord : ChordSpelling) {rest : List Char} (hrest : ∀ c ∈ rest.head?, c ∈ ['(', ')', '~']) :
    takeChord (chord.chars ++ rest) = some (chord.chars, rest) := by
  have hslash : ∀ c ∈ rest.head?, c ≠ '/' := by
    rintro c hc rfl
    exact absurd (hrest _ hc) (by decide)
  have hname : ∀ c ∈ (chord.inversion ++ rest).head?, Text.isAlphanumeric c = false := by
    have hmarks : ∀ c ∈ ['(', ')', '~'], Text.isAlphanumeric c = false :=
      Text.forall_mem_of_all (by decide)
    intro c hc
    rcases Text.mem_head?_append hc with hinversion | hslur
    · simpa using chord.head?_inversion c hinversion
    · exact hmarks c (hrest c hslur)
  have hsign : ∀ c ∈ (chord.name ++ (chord.inversion ++ rest)).head?, c ≠ '-' := by
    rintro c hc rfl
    exact absurd (chord.isName.isAlphanumeric_head _ hc) (by decide)
  simp only [takeChord, ChordSpelling.chars, List.append_assoc, takeSign_append chord.isSign hsign,
    takeChordName_append chord.isName hname, takeInversion_append chord.isInversion hslash]

theorem append_of_takeChord
    {cs text rest : List Char} (h : takeChord cs = some (text, rest)) :
    ∃ chord : ChordSpelling, chord.chars = text ∧ text ++ rest = cs := by
  simp only [takeChord] at h
  split at h
  · cases h
  next name behind hname =>
  obtain ⟨hsign, hcs⟩ := append_takeSign cs
  obtain ⟨hisName, hrest⟩ := append_of_takeChordName hname
  obtain ⟨hinversion, hbehind⟩ := append_takeInversion behind
  cases h
  refine ⟨⟨_, name, _, hsign, hisName, hinversion⟩, ?_, ?_⟩
  · simp [ChordSpelling.chars]
  · rw [List.append_assoc, List.append_assoc, hbehind, hrest, hcs]

theorem takeColonChord_ending (tail : TailSpelling) :
    takeColonChord tail.ending = some (tail.chord.map ChordSpelling.text, tail.slur) := by
  have hslur : ∀ c ∈ tail.slur.head?, c ∈ ['(', ')', '~'] := fun c hc =>
    not_not.mp (tail.head?_slur c hc)
  unfold TailSpelling.ending
  cases tail.chord with
  | none =>
      rw [ChordSpelling.colonChars, List.nil_append]
      unfold takeColonChord
      split
      · next heq => exact absurd (hslur ':' (by rw [heq]; rfl)) (by decide)
      · rfl
  | some chord =>
      simp [takeColonChord, takeChord_append chord hslur, ChordSpelling.colonChars,
        ChordSpelling.text]

theorem append_of_takeColonChord
    {cs rest : List Char} {text : Option String} (h : takeColonChord cs = some (text, rest)) :
    ∃ chord, ChordSpelling.colonChars chord ++ rest = cs := by
  unfold takeColonChord at h
  split at h
  · obtain ⟨⟨chars, behind⟩, hchord, hpair⟩ := Option.map_eq_some_iff.mp h
    cases hpair
    obtain ⟨chord, rfl, rfl⟩ := append_of_takeChord hchord
    exact ⟨some chord, rfl⟩
  · cases h
    exact ⟨none, rfl⟩

theorem exists_slurMark? {slur : List Char} (h : OneOf ["", "(", ")", "~"] slur) :
    ∃ mark, slurMark? slur = some mark ∧ slur = mark.spelling.toList := by
  simp only [oneOf_cons, oneOf_nil, or_false] at h
  rcases h with rfl | rfl | rfl | rfl
  · exact ⟨.none, rfl, rfl⟩
  · exact ⟨.start, rfl, rfl⟩
  · exact ⟨.finish, rfl, rfl⟩
  · exact ⟨.tie, rfl, rfl⟩

theorem oneOf_of_slurMark? {cs : List Char} {mark : SlurMark} (h : slurMark? cs = some mark) :
    OneOf ["", "(", ")", "~"] cs := by
  unfold slurMark? at h
  split at h
  · decide
  · decide
  · decide
  · decide
  · cases h

end NoteWord

/-! ## Scanning words -/

/-- The parts of a tail are as they are spelled. -/
structure TailSpelling.Reads (spelling : TailSpelling) (tail : NoteTail) : Prop where
  marks : spelling.marks = octaveMarks '\'' ',' tail.marks
  number : tail.number = numberOf spelling.digits
  suffix : spelling.suffix = tail.augment.suffix.toList
  chord : tail.chord = spelling.chord.map ChordSpelling.text
  slur : spelling.slur = tail.slur.spelling.toList

/-- The parts of a note word are as they are spelled. -/
structure NoteSpelling.Reads (spelling : NoteSpelling) (word : NoteWord) : Prop where
  leading : spelling.leading = octaveMarks '>' '<' word.leading
  letter : spelling.letter = word.letter.char
  accidental : spelling.accidental = word.accidental.spelling.toList
  tail : spelling.tail.Reads word.tail

namespace NoteWord

theorem scanTail?_chars (spelling : TailSpelling) :
    ∃ tail, scanTail? spelling.chars = some tail ∧ spelling.Reads tail := by
  obtain ⟨count, hmarks, hcount⟩ :=
    takeMarks_append (by decide) spelling.isMarks spelling.timed_not_mark
  have hnumber := takeNumber_append spelling.isDigits spelling.augmented_not_digit
  obtain ⟨augment, haugment, hsuffix⟩ :=
    takeAugment_append spelling.isSuffix spelling.ending_not_suffix
  have hchord := takeColonChord_ending spelling
  obtain ⟨slur, hslur, hspelling⟩ := exists_slurMark? spelling.isSlur
  refine ⟨⟨count, numberOf spelling.digits, augment, spelling.chord.map ChordSpelling.text, slur⟩,
    ?_, ⟨hcount, rfl, hsuffix, rfl, hspelling⟩⟩
  simp only [scanTail?, TailSpelling.chars, hmarks]
  simp only [TailSpelling.timed, hnumber]
  simp only [TailSpelling.augmented, haugment, hchord, hslur, Option.map_some]

theorem exists_tailSpelling {cs : List Char} {tail : NoteTail} (h : scanTail? cs = some tail) :
    ∃ spelling : TailSpelling, spelling.chars = cs := by
  simp only [scanTail?] at h
  split at h
  · cases h
  next text slur hchord =>
  obtain ⟨mark, hmark, -⟩ := Option.map_eq_some_iff.mp h
  obtain ⟨chord, hending⟩ := append_of_takeColonChord hchord
  obtain ⟨digits, hdigits, htimed⟩ := exists_append_takeNumber (takeMarks '\'' ',' cs).2
  have hsuffix (augment : Augment) : OneOf ["", ".", "..", "g"] augment.suffix.toList := by
    cases augment <;> decide
  have haugmented := append_takeAugment (takeNumber (takeMarks '\'' ',' cs).2).2
  have hmarks := append_takeMarks '\'' ',' cs
  rw [← hending] at haugmented
  rw [← haugmented] at htimed
  rw [← htimed] at hmarks
  exact ⟨⟨_, digits, _, chord, slur, isRun_octaveMarks _ _ _, hdigits, hsuffix _,
    oneOf_of_slurMark? hmark⟩, hmarks⟩

theorem exists_accidental {spelling : List Char} (h : OneOf accidentalSpellings spelling) :
    ∃ accidental ∈ Accidental.all, spelling = accidental.spelling.toList := by
  obtain ⟨text, hmem, rfl⟩ := List.mem_map.mp h
  have hall : ∀ text ∈ accidentalSpellings, ∃ accidental ∈ Accidental.all,
      text = accidental.spelling := by decide
  obtain ⟨accidental, hlisted, rfl⟩ := hall text hmem
  exact ⟨accidental, hlisted, rfl⟩

theorem oneOf_spelling (accidental : Accidental) :
    OneOf accidentalSpellings accidental.spelling.toList := by
  cases accidental <;> decide

theorem scanAccidental?_eq_some
    {cs : List Char} {accidental : Accidental} {tail : NoteTail}
    (h : scanAccidental? cs = some (accidental, tail)) :
    ∃ spelling : TailSpelling,
      cs = accidental.spelling.toList ++ spelling.chars ∧ spelling.Reads tail := by
  obtain ⟨tried, -, htried⟩ := List.exists_of_findSome?_eq_some h
  split at htried
  · cases htried
  next rest hrest =>
  obtain ⟨found, hfound, hpair⟩ := Option.map_eq_some_iff.mp htried
  cases hpair
  obtain ⟨spelling, rfl⟩ := exists_tailSpelling hfound
  obtain ⟨read, hread, hreads⟩ := scanTail?_chars spelling
  cases hread.symm.trans hfound
  exact ⟨spelling, Text.afterChars?_eq_some_iff.mp hrest, hreads⟩

/-- Whatever the order in which accidentals are tried, the one that is written is found. -/
theorem scanAccidental?_append
    {accidental : List Char} (haccidental : OneOf accidentalSpellings accidental)
    (spelling : TailSpelling) :
    ∃ found tail, scanAccidental? (accidental ++ spelling.chars) = some (found, tail) ∧
      accidental = found.spelling.toList ∧ spelling.Reads tail := by
  obtain ⟨written, hlisted, hwritten⟩ := exists_accidental haccidental
  obtain ⟨tail, htail, -⟩ := scanTail?_chars spelling
  have hsome : (scanAccidental? (accidental ++ spelling.chars)).isSome = true := by
    refine List.findSome?_isSome_iff.mpr ⟨written, hlisted, ?_⟩
    rw [Text.afterChars?_eq_some_iff.mpr (by rw [hwritten])]
    simp [htail]
  obtain ⟨⟨found, read⟩, hscan⟩ := Option.isSome_iff_exists.mp hsome
  obtain ⟨other, hsame, hreads⟩ := scanAccidental?_eq_some hscan
  obtain ⟨hspelled, rfl⟩ := accidental_unique haccidental (oneOf_spelling found) hsame
  exact ⟨found, read, hscan, hspelled, hreads⟩

theorem exists_letter {c : Char} (h : c ∈ noteLetters) :
    ∃ letter, NoteLetter.ofChar? c = some letter ∧ c = letter.char := by
  have hall : ∀ c ∈ noteLetters, (NoteLetter.ofChar? c).map NoteLetter.char = some c :=
    Text.forall_mem_of_all (by decide)
  obtain ⟨letter, hletter, hchar⟩ := Option.map_eq_some_iff.mp (hall c h)
  exact ⟨letter, hletter, hchar.symm⟩

theorem mem_letters_of_ofChar? {c : Char} {letter : NoteLetter}
    (h : NoteLetter.ofChar? c = some letter) :
    c ∈ noteLetters ∧ c = letter.char := by
  unfold NoteLetter.ofChar? at h
  split at h <;> cases h <;> exact ⟨by decide, rfl⟩

theorem scan?_text (spelling : NoteSpelling) :
    ∃ word, scan? spelling.text = some word ∧ spelling.Reads word := by
  obtain ⟨count, hleading, hcount⟩ :=
    takeMarks_append (by decide) spelling.isLeading spelling.letter_not_mark
  obtain ⟨letter, hofChar, hchar⟩ := exists_letter spelling.isLetter
  obtain ⟨accidental, tail, hscan, hspelled, hreads⟩ :=
    scanAccidental?_append spelling.isAccidental spelling.tail
  refine ⟨⟨count, letter, accidental, tail⟩, ?_, ⟨hcount, hchar, hspelled, hreads⟩⟩
  simp only [scan?, NoteSpelling.text, String.toList_ofList, scanChars?, NoteSpelling.chars,
    hleading, hofChar, hscan, Option.map_some]

theorem exists_noteSpelling {text : String} {word : NoteWord} (h : scan? text = some word) :
    ∃ spelling : NoteSpelling, spelling.text = text ∧ spelling.Reads word := by
  have hmarks := append_takeMarks '>' '<' text.toList
  simp only [scan?, scanChars?] at h
  split at h
  · cases h
  next leading c cs htake =>
  rw [htake] at hmarks
  split at h
  · cases h
  next letter hofChar =>
  obtain ⟨⟨accidental, tail⟩, hscan, rfl⟩ := Option.map_eq_some_iff.mp h
  obtain ⟨hletter, hchar⟩ := mem_letters_of_ofChar? hofChar
  obtain ⟨spelling, rfl, hreads⟩ := scanAccidental?_eq_some hscan
  refine ⟨⟨_, c, _, spelling, isRun_octaveMarks '>' '<' leading, hletter,
    oneOf_spelling accidental⟩, ?_, ⟨rfl, hchar, rfl, hreads⟩⟩
  rw [NoteSpelling.text, NoteSpelling.chars, hmarks, String.ofList_toList]

/-- The scanner accepts a word if and only if the grammar spells it, which it does in one way,
and the parts that the scanner gives are those of the spelling. -/
theorem scan?_spelling (text : String) :
    ((scan? text).isSome = true ↔ ∃ spelling : NoteSpelling, spelling.text = text) ∧
    (∀ spelling other : NoteSpelling,
      spelling.text = text → other.text = text → spelling = other) ∧
    ∀ (spelling : NoteSpelling) (word : NoteWord),
      spelling.text = text → scan? text = some word → spelling.Reads word := by
  refine ⟨⟨?_, ?_⟩, ?_, ?_⟩
  · intro hsome
    obtain ⟨word, hword⟩ := Option.isSome_iff_exists.mp hsome
    obtain ⟨spelling, htext, -⟩ := exists_noteSpelling hword
    exact ⟨spelling, htext⟩
  · rintro ⟨spelling, rfl⟩
    obtain ⟨word, hword, -⟩ := scan?_text spelling
    simp [hword]
  · rintro spelling other rfl hother
    exact (NoteSpelling.text_injective hother).symm
  · rintro spelling word rfl hword
    obtain ⟨read, hread, hreads⟩ := scan?_text spelling
    cases hread.symm.trans hword
    exact hreads

/-- A flat in front of a comma, a number with a zero in front, and an inverted chord. -/
def ornament : NoteSpelling where
  leading := ['<', '<']
  letter := 'b'
  accidental := ['e', 's']
  tail :=
    { marks := [',']
      digits := ['0', '1', '6']
      suffix := ['.', '.']
      chord := some ⟨['-'], ['4', 'b'], ['/', '1'], by decide, .digits rfl rfl, by decide⟩
      slur := ['~']
      isMarks := ⟨1, .inr rfl⟩
      isDigits := Text.forall_mem_of_all (by decide)
      isSuffix := by decide
      isSlur := by decide }
  isLeading := ⟨2, .inr rfl⟩
  isLetter := by decide
  isAccidental := by decide

theorem ornament_spelling :
    (scan? "<<bes,016..:-4b/1~").isSome = true ∧
      (∀ other : NoteSpelling, other.text = "<<bes,016..:-4b/1~" → other = ornament) ∧
      ornament.Reads
        ⟨-2, .tone .b, .es, ⟨-1, some 16, .doubleDotted, some "-4b/1", .tie⟩⟩ := by
  have htext : ornament.text = "<<bes,016..:-4b/1~" := by decide
  have hscan : scan? "<<bes,016..:-4b/1~" =
      some ⟨-2, .tone .b, .es, ⟨-1, some 16, .doubleDotted, some "-4b/1", .tie⟩⟩ := by decide
  obtain ⟨haccepts, hunique, hreads⟩ := scan?_spelling "<<bes,016..:-4b/1~"
  exact ⟨haccepts.mpr ⟨ornament, htext⟩, fun other hother => hunique other ornament hother htext,
    hreads ornament _ htext hscan⟩

end NoteWord

end Chiptune
