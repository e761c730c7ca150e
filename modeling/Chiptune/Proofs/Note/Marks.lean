import Chiptune.Pitch
import Chiptune.Proofs.Note.Scanning

/-!
# The octave marks of note words

Octave marks stand in a note word at two places and nowhere else. So they can be counted on
the characters of the word, and the two signs before the letter can be exchanged in the whole
text.
-/

namespace Chiptune

/-! ## Where marks stand -/

/-- The characters that are no octave marks. -/
def IsUnmarked (c : Char) : Prop := c ∉ ['>', '<', '\'', ',']

instance (c : Char) : Decidable (IsUnmarked c) := inferInstanceAs (Decidable (c ∉ _))

theorem isUnmarked_of_isAlphanumeric {c : Char} (h : Text.isAlphanumeric c = true) : IsUnmarked c :=
  Text.not_mem_of_class h (by decide)

theorem ChordSpelling.isUnmarked_colonChars (chord : Option ChordSpelling) :
    ∀ c ∈ colonChars chord, IsUnmarked c := by
  cases chord with
  | none => exact List.forall_mem_nil _
  | some chord =>
      have hsign : ∀ c ∈ chord.sign, IsUnmarked c := chord.isSign.forall_mem (by decide)
      have hname : ∀ c ∈ chord.name, IsUnmarked c := fun c hc =>
        isUnmarked_of_isAlphanumeric (chord.isName.isAlphanumeric c hc)
      have hinversion : ∀ c ∈ chord.inversion, IsUnmarked c :=
        chord.isInversion.forall_mem (by decide)
      refine List.forall_mem_cons.mpr ⟨by decide, ?_⟩
      exact List.forall_mem_append.mpr ⟨hsign, List.forall_mem_append.mpr ⟨hname, hinversion⟩⟩

theorem TailSpelling.isUnmarked_timed (tail : TailSpelling) : ∀ c ∈ tail.timed, IsUnmarked c := by
  have hdigits : ∀ c ∈ tail.digits, IsUnmarked c := fun c hc =>
    isUnmarked_of_isAlphanumeric (by simp [Text.isAlphanumeric, tail.isDigits c hc])
  have hsuffix : ∀ c ∈ tail.suffix, IsUnmarked c := tail.isSuffix.forall_mem (by decide)
  have hslur : ∀ c ∈ tail.slur, IsUnmarked c := tail.isSlur.forall_mem (by decide)
  have hending := List.forall_mem_append.mpr
    ⟨ChordSpelling.isUnmarked_colonChars tail.chord, hslur⟩
  exact List.forall_mem_append.mpr ⟨hdigits, List.forall_mem_append.mpr ⟨hsuffix, hending⟩⟩

namespace NoteSpelling

theorem isUnmarked_accidental (spelling : NoteSpelling) : ∀ c ∈ spelling.accidental, IsUnmarked c :=
  spelling.isAccidental.forall_mem (by decide)

theorem isUnmarked_letter (spelling : NoteSpelling) : IsUnmarked spelling.letter := by
  have hletters : ∀ c ∈ noteLetters, IsUnmarked c := Text.forall_mem_of_all (by decide)
  exact hletters _ spelling.isLetter

/-- No sign stands behind the first letter. -/
theorem not_sign_of_mem (spelling : NoteSpelling) :
    ∀ c ∈ spelling.letter :: (spelling.accidental ++ spelling.tail.chars), c ∉ ['>', '<'] := by
  have hsigns {c : Char} (h : IsUnmarked c) : c ∉ ['>', '<'] := fun hmem =>
    h (List.mem_append_left ['\'', ','] hmem)
  have hmarks : ∀ c ∈ spelling.tail.marks, c ∉ ['>', '<'] := by
    have hmark : ∀ c ∈ ['\'', ','], c ∉ ['>', '<'] := Text.forall_mem_of_all (by decide)
    exact fun c hc => hmark c (spelling.tail.isMarks.forall_mem c hc)
  have htail : ∀ c ∈ spelling.tail.chars, c ∉ ['>', '<'] := List.forall_mem_append.mpr
    ⟨hmarks, fun c hc => hsigns (spelling.tail.isUnmarked_timed c hc)⟩
  refine List.forall_mem_cons.mpr ⟨hsigns spelling.isUnmarked_letter, ?_⟩
  exact List.forall_mem_append.mpr
    ⟨fun c hc => hsigns (spelling.isUnmarked_accidental c hc), htail⟩

end NoteSpelling

/-! ## Counting marks -/

theorem count_octaveMarks (up down mark : Char) (count : Int) :
    (octaveMarks up down count).count mark =
      (if up = mark then count.toNat else 0) + if down = mark then (-count).toNat else 0 := by
  simp [octaveMarks, List.count_replicate]

theorem octaveMarks_injective {up down : Char} (hne : up ≠ down) :
    Function.Injective (octaveMarks up down) := by
  intro count other h
  have hup := congrArg (List.count up) h
  have hdown := congrArg (List.count down) h
  simp only [count_octaveMarks, if_neg hne, if_neg hne.symm, if_true] at hup hdown
  omega

/-- The octaves that the marks in a text go up. -/
def octavesUp (signs : OctaveSigns) (text : String) : Int :=
  let count (c : Char) : Int := (text.toList.count c : Int)
  match signs with
  | .normal => count '>' - count '<' + (count '\'' - count ',')
  | .swapped => count '<' - count '>' + (count '\'' - count ',')

theorem count_of_isUnmarked {cs : List Char} (h : ∀ c ∈ cs, IsUnmarked c) {mark : Char}
    (hmark : ¬IsUnmarked mark) : cs.count mark = 0 :=
  List.count_eq_zero.mpr fun hmem => hmark (h mark hmem)

/-- All marks of a word are those before the letter and those behind the accidental. -/
theorem NoteSpelling.count_text
    {spelling : NoteSpelling} {word : NoteWord} (h : spelling.Reads word) {mark : Char}
    (hmark : ¬IsUnmarked mark) :
    spelling.text.toList.count mark =
      (octaveMarks '>' '<' word.leading).count mark +
        (octaveMarks '\'' ',' word.tail.marks).count mark := by
  have hletter : spelling.letter ≠ mark := by
    rintro rfl
    exact hmark spelling.isUnmarked_letter
  rw [text, String.toList_ofList, chars, TailSpelling.chars, ← h.leading, ← h.tail.marks]
  simp only [List.count_append, List.count_cons_of_ne hletter,
    count_of_isUnmarked spelling.isUnmarked_accidental hmark,
    count_of_isUnmarked spelling.tail.isUnmarked_timed hmark, Nat.zero_add, Nat.add_zero]

theorem NoteWord.octavesUp_of_scan?
    {text : String} {word : NoteWord} (h : scan? text = some word) (signs : OctaveSigns) :
    octavesUp signs text =
      (match signs with
        | .normal => word.leading
        | .swapped => -word.leading) + word.tail.marks := by
  obtain ⟨spelling, rfl, hreads⟩ := exists_noteSpelling h
  have hgreater := NoteSpelling.count_text hreads (by decide : ¬IsUnmarked '>')
  have hless := NoteSpelling.count_text hreads (by decide : ¬IsUnmarked '<')
  have hapostrophe := NoteSpelling.count_text hreads (by decide : ¬IsUnmarked '\'')
  have hcomma := NoteSpelling.count_text hreads (by decide : ¬IsUnmarked ',')
  simp only [count_octaveMarks, Char.reduceEq, if_true, if_false]
    at hgreater hless hapostrophe hcomma
  cases signs with
  | normal =>
      simp only [octavesUp, hgreater, hless, hapostrophe, hcomma]
      omega
  | swapped =>
      simp only [octavesUp, hgreater, hless, hapostrophe, hcomma]
      omega

/-! ## One word for a spelling -/

theorem NoteLetter.char_injective : Function.Injective char := by
  have hofChar (letter : NoteLetter) : ofChar? letter.char = some letter := by
    rcases letter with ⟨⟨⟩⟩ | _ | _ | _ | _ <;> rfl
  intro letter other h
  exact Option.some.inj ((hofChar letter).symm.trans (h ▸ hofChar other))

theorem Accidental.spelling_injective : Function.Injective spelling := by
  have hofSpelling (accidental : Accidental) :
      ofSpelling? accidental.spelling = some accidental := by
    cases accidental <;> decide
  intro accidental other h
  exact Option.some.inj ((hofSpelling accidental).symm.trans (h ▸ hofSpelling other))

theorem SlurMark.spelling_injective : Function.Injective spelling := by
  have hslurMark (mark : SlurMark) : NoteWord.slurMark? mark.spelling.toList = some mark := by
    cases mark <;> rfl
  intro mark other h
  exact Option.some.inj ((hslurMark mark).symm.trans (h ▸ hslurMark other))

theorem Augment.suffix_injective : Function.Injective suffix := by
  intro augment other h
  have hsame := NoteWord.takeAugment_suffix other
  rw [← h, NoteWord.takeAugment_suffix] at hsame
  exact (Prod.mk.inj hsame).1

theorem TailSpelling.Reads.unique
    {spelling : TailSpelling} {tail other : NoteTail} (h : spelling.Reads tail)
    (hother : spelling.Reads other) : tail = other := by
  have hmarks := octaveMarks_injective (by decide) (h.marks.symm.trans hother.marks)
  have hnumber := h.number.trans hother.number.symm
  have haugment := Augment.suffix_injective
    (String.toList_injective (h.suffix.symm.trans hother.suffix))
  have hchord := h.chord.trans hother.chord.symm
  have hslur := SlurMark.spelling_injective
    (String.toList_injective (h.slur.symm.trans hother.slur))
  cases tail
  cases other
  simp_all

theorem NoteSpelling.Reads.unique
    {spelling : NoteSpelling} {word other : NoteWord} (h : spelling.Reads word)
    (hother : spelling.Reads other) : word = other := by
  have hleading := octaveMarks_injective (by decide) (h.leading.symm.trans hother.leading)
  have hletter := NoteLetter.char_injective (h.letter.symm.trans hother.letter)
  have haccidental := Accidental.spelling_injective
    (String.toList_injective (h.accidental.symm.trans hother.accidental))
  have htail := h.tail.unique hother.tail
  cases word
  cases other
  simp_all

/-! ## Exchanging the signs -/

/-- The other sign before a letter. -/
def exchangeSign (c : Char) : Char :=
  if c = '>' then '<' else if c = '<' then '>' else c

/-- The text with the signs `>` and `<` exchanged. -/
def exchangeSigns (text : String) : String := String.ofList (text.toList.map exchangeSign)

theorem exchangeSign_exchangeSign (c : Char) : exchangeSign (exchangeSign c) = c := by
  unfold exchangeSign
  split_ifs <;> simp_all

theorem exchangeSigns_exchangeSigns (text : String) :
    exchangeSigns (exchangeSigns text) = text := by
  simp [exchangeSigns, Function.comp_def, exchangeSign_exchangeSign]

theorem map_exchangeSign_of_not_sign {cs : List Char} (h : ∀ c ∈ cs, c ∉ ['>', '<']) :
    cs.map exchangeSign = cs := by
  have hsame : ∀ c ∈ cs, exchangeSign c = id c := by
    intro c hc
    have hsign := h c hc
    simp only [List.mem_cons, List.not_mem_nil, or_false, not_or] at hsign
    rw [exchangeSign, if_neg hsign.1, if_neg hsign.2, id]
  rw [List.map_congr_left hsame, List.map_id]

theorem map_exchangeSign_octaveMarks (count : Int) :
    (octaveMarks '>' '<' count).map exchangeSign = octaveMarks '>' '<' (-count) := by
  rcases Int.eq_nat_or_neg count with ⟨n, rfl | rfl⟩
  · rw [← Int.ofNat_eq_natCast, octaveMarks_ofNat, octaveMarks_neg, List.map_replicate]
    rfl
  · rw [neg_neg, ← Int.ofNat_eq_natCast, octaveMarks_ofNat, octaveMarks_neg, List.map_replicate]
    rfl

/-- The word with its marks before the letter turned round. -/
def NoteWord.exchanged (word : NoteWord) : NoteWord := { word with leading := -word.leading }

theorem NoteWord.scan?_exchangeSigns_of_some
    {text : String} {word : NoteWord} (h : scan? text = some word) :
    scan? (exchangeSigns text) = some word.exchanged := by
  obtain ⟨spelling, rfl, hreads⟩ := exists_noteSpelling h
  have hrun : IsRun '>' '<' (octaveMarks '>' '<' (-word.leading)) := isRun_octaveMarks _ _ _
  let turned : NoteSpelling := { spelling with
    leading := octaveMarks '>' '<' (-word.leading), isLeading := hrun }
  have htext : exchangeSigns spelling.text = turned.text := by
    rw [exchangeSigns, NoteSpelling.text, String.toList_ofList, NoteSpelling.chars,
      List.map_append, map_exchangeSign_of_not_sign spelling.not_sign_of_mem, hreads.leading,
      map_exchangeSign_octaveMarks]
    rfl
  have hturned : turned.Reads word.exchanged :=
    ⟨rfl, hreads.letter, hreads.accidental, hreads.tail⟩
  obtain ⟨read, hread, hreads⟩ := scan?_text turned
  rw [htext, hread, hreads.unique hturned]

/-- Exchanging the signs in a text turns the marks before the letter round, and changes
nothing else. -/
theorem NoteWord.scan?_exchangeSigns (text : String) :
    scan? (exchangeSigns text) = (scan? text).map exchanged := by
  cases hscan : scan? text with
  | some word => exact scan?_exchangeSigns_of_some hscan
  | none =>
      cases hturned : scan? (exchangeSigns text) with
      | none => rfl
      | some word =>
          have hback := scan?_exchangeSigns_of_some hturned
          rw [exchangeSigns_exchangeSigns, hscan] at hback
          cases hback

end Chiptune
