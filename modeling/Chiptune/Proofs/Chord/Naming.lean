import Chiptune.Chord.Book
import Chiptune.Proofs.Step
import Mathlib.Data.List.Basic

/-!
# Reading a chord name back

A name that is defined is meant to be read as the chord of its definition. A text is read as
digits and cut at a slash before it is looked up, and a definition takes no notice of that:
a name of one or two hexadecimal digits or with a slash is accepted, and goes on being read
as it was before.
-/

namespace Chiptune

open Step

/-! ## Cutting texts -/

namespace Text

theorem after?_of_head?
    {head text : String} {first : Char} (hhead : head.toList.head? = some first)
    (h : text.toList.head? ≠ some first) : after? head text = none := by
  obtain ⟨later, hlater⟩ := List.head?_eq_some_iff.mp hhead
  rw [after?, hlater]
  cases hchars : text.toList with
  | nil => rfl
  | cons c cs =>
      have hne : first ≠ c := by
        rintro rfl
        exact h (by rw [hchars]; rfl)
      simp [afterChars?, hne]

theorem cutChars?_eq_none
    {mark : Char} {cs : List Char} (h : mark ∉ cs) : cutChars? mark cs = none := by
  induction cs with
  | nil => rfl
  | cons c cs ih =>
      have hne : c ≠ mark := fun heq => h (heq ▸ List.mem_cons_self)
      have hrest := ih fun hmem => h (List.mem_cons_of_mem c hmem)
      simp [cutChars?, hne, hrest]

/-- The text is cut at the first mark: there is none before. -/
theorem exists_cutChars?
    {mark : Char} {cs : List Char} (h : mark ∈ cs) :
    ∃ before behind, cutChars? mark cs = some (before, behind) ∧ mark ∉ before := by
  induction cs with
  | nil => cases h
  | cons c cs ih =>
      by_cases heq : c = mark
      · exact ⟨[], cs, by simp [cutChars?, heq], List.not_mem_nil⟩
      · have hrest : mark ∈ cs := (List.mem_cons.mp h).resolve_left (Ne.symm heq)
        obtain ⟨before, behind, hcut, hnone⟩ := ih hrest
        refine ⟨c :: before, behind, by simp [cutChars?, heq, hcut], ?_⟩
        rw [List.mem_cons, not_or]
        exact ⟨Ne.symm heq, hnone⟩

end Text

namespace ChordBook

variable {book next : ChordBook} {lineage : Lineage} {name definition : String}

/-! ## Looking names up -/

@[simp] theorem lookup?_nil (book : ChordBook) (name : String) :
    book.lookup? [] name = builtinChords.lookup name := rfl

@[simp] theorem lookup?_cons (book : ChordBook) (index : Nat) (outer : Lineage) (name : String) :
    book.lookup? (index :: outer) name =
      ((book.layer index).lookup name).or (book.lookup? outer name) := by
  unfold lookup?
  cases hown : (book.layer index).lookup name with
  | some code => simp [hown]
  | none => simp [hown]

/-- The book has the context's own layer, as it has for all contexts that grow from the root. -/
def Has (book : ChordBook) (lineage : Lineage) : Prop :=
  ∃ own outer, lineage = own :: outer ∧ own < book.layers.length

/-- Recording a name changes its meaning in one layer and nothing else. -/
theorem lookup_layer_record
    {own : Nat} (hown : own < book.layers.length) (outer : Lineage) (name : String)
    (code : ChordCode) (index : Nat) (query : String) :
    ((book.record (own :: outer) name code).layer index).lookup query =
      if index = own ∧ query = name then some code else (book.layer index).lookup query := by
  by_cases hindex : index = own
  · subst hindex
    have hlayer : (book.record (index :: outer) name code).layer index =
        (name, code) :: book.layer index := by
      simp [record, layer, List.getD_eq_getElem?_getD, hown]
    by_cases hquery : query = name
    · simp [hlayer, hquery]
    · have hbeq : (query == name) = false := beq_false_of_ne hquery
      simp [hlayer, List.lookup_cons, hbeq, hquery]
  · have hlayer : (book.record (own :: outer) name code).layer index = book.layer index := by
      simp [record, layer, List.getD_eq_getElem?_getD, List.getElem?_set_ne (Ne.symm hindex)]
    simp [hlayer, hindex]

/-- A layer that is new is empty, as is a layer that the book does not have. -/
theorem layer_nest (book : ChordBook) (lineage : Lineage) (index : Nat) :
    (book.nest lineage).2.layer index = book.layer index := by
  simp only [nest, layer, List.getD_eq_getElem?_getD]
  by_cases hold : index < book.layers.length
  · rw [List.getElem?_append_left hold]
  · have hnone : book.layers[index]? = none := List.getElem?_eq_none (by omega)
    rw [List.getElem?_append_right (by omega), hnone, List.getElem?_singleton]
    split
    · rfl
    · rfl

theorem lookup?_record_self (hhas : book.Has lineage) (name : String) (code : ChordCode) :
    (book.record lineage name code).lookup? lineage name = some code := by
  obtain ⟨own, outer, rfl, hown⟩ := hhas
  rw [lookup?_cons, lookup_layer_record hown, if_pos ⟨rfl, rfl⟩, Option.some_or]

theorem lookup?_record_of_not_mem
    {own : Nat} (hown : own < book.layers.length) (outer : Lineage) (name : String)
    (code : ChordCode) {seen : Lineage} (hnot : own ∉ seen) (query : String) :
    (book.record (own :: outer) name code).lookup? seen query = book.lookup? seen query := by
  induction seen with
  | nil => rfl
  | cons index seen ih =>
      obtain ⟨hne, hrest⟩ := not_or.mp (List.mem_cons.not.mp hnot)
      have hlayer := lookup_layer_record hown outer name code index query
      rw [if_neg fun h => hne h.1.symm] at hlayer
      rw [lookup?_cons, lookup?_cons, hlayer, ih hrest]

theorem lookup?_record_of_ne
    (hhas : book.Has lineage) (code : ChordCode) {query : String} (hne : query ≠ name)
    (seen : Lineage) :
    (book.record lineage name code).lookup? seen query = book.lookup? seen query := by
  obtain ⟨own, outer, rfl, hown⟩ := hhas
  induction seen with
  | nil => rfl
  | cons index seen ih =>
      have hlayer := lookup_layer_record hown outer name code index query
      rw [if_neg fun h => hne h.2] at hlayer
      rw [lookup?_cons, lookup?_cons, hlayer, ih]

/-! ## Definitions -/

/-- What a definition that is accepted has passed, and what it puts into the book. -/
theorem define_eq_ok (h : book.define lineage name definition = .ok next) :
    Text.after? "-" definition = none ∧ name.toList.head?.any Text.isLetter = true ∧
      book.definesOwn lineage name = false ∧
      ∃ arpeggio, book.interpret lineage definition = .ok (some arpeggio) ∧
        next = book.record lineage name arpeggio.code := by
  unfold define at h
  dsimp only at h
  split at h
  · cases h
  next hupward =>
  split at h
  · cases h
  next hletter =>
  split at h
  · cases h
  split at h
  · cases h
  next hnew =>
  obtain ⟨chord, hchord, hrecord⟩ := outcome_bind_eq_ok h
  split at hrecord
  · next arpeggio =>
      cases hrecord
      exact ⟨by simpa using hupward, by simpa using hletter, by simpa using hnew,
        arpeggio, hchord, rfl⟩
  · cases hrecord

/-- A text without a minus sign in front is read upward. -/
theorem interpret_upward
    (book : ChordBook) (lineage : Lineage) {text : String}
    (hupward : Text.after? "-" text = none) (hnonempty : text.isEmpty = false) :
    book.interpret lineage text =
      (do
        let (name, times) ← splitInversion text
        let base ← book.code lineage name
        let inverted ← base.invert times
        return some ⟨inverted, false⟩) := by
  unfold interpret
  rw [hupward, hnonempty]
  rfl

theorem downward_of_interpret
    {text : String} {arpeggio : Arpeggio} (hupward : Text.after? "-" text = none)
    (h : book.interpret lineage text = .ok (some arpeggio)) : arpeggio.downward = false := by
  by_cases hempty : text.isEmpty = true
  · unfold interpret at h
    rw [if_pos hempty] at h
    cases h
  · rw [interpret_upward book lineage hupward (by simpa using hempty)] at h
    obtain ⟨⟨name, times⟩, -, hcode⟩ := outcome_bind_eq_ok h
    obtain ⟨base, -, hinvert⟩ := outcome_bind_eq_ok hcode
    obtain ⟨inverted, -, hpure⟩ := outcome_bind_eq_ok hinvert
    cases hpure
    rfl

theorem code_of_literal
    (book : ChordBook) (lineage : Lineage) {code : ChordCode} (h : literal? name = some code) :
    book.code lineage name = .ok code := by
  simp [ChordBook.code, h]

theorem code_of_lookup?
    {code : ChordCode} (hname : literal? name = none)
    (h : book.lookup? lineage name = some code) : book.code lineage name = .ok code := by
  simp [ChordBook.code, hname, h]

/-- The name is read as a name: it is no digits, and has no inversion. -/
def IsPlain (name : String) : Prop := literal? name = none ∧ '/' ∉ name.toList

instance (name : String) : Decidable (IsPlain name) :=
  inferInstanceAs (Decidable (_ ∧ _))

section Letters

variable (hletter : name.toList.head?.any Text.isLetter = true)
include hletter

theorem interpret_of_letter (book : ChordBook) (lineage : Lineage) :
    book.interpret lineage name =
      (do
        let (name, times) ← splitInversion name
        let base ← book.code lineage name
        let inverted ← base.invert times
        return some ⟨inverted, false⟩) := by
  apply interpret_upward
  · refine Text.after?_of_head? (by decide : _ = some '-') fun hminus => ?_
    rw [hminus] at hletter
    exact absurd hletter (by decide)
  · by_contra hempty
    have hnil : name = "" := by simpa using hempty
    subst hnil
    exact absurd hletter (by decide)

theorem interpret_of_slash_not_mem
    (book : ChordBook) (lineage : Lineage) (hslash : '/' ∉ name.toList) :
    book.interpret lineage name =
      (book.code lineage name).map fun code => some ⟨code, false⟩ := by
  have hsplit : splitInversion name = .ok (name, 0) := by
    simp [splitInversion, Text.cut?, Text.cutChars?_eq_none hslash]
  rw [interpret_of_letter hletter, hsplit]
  cases hcode : book.code lineage name with
  | error fault => simp [bind, Except.bind, hcode, Except.map]
  | ok code => simp [bind, Except.bind, hcode, Except.map, ChordCode.invert, pure, Except.pure]

/-- What stands before a slash is not the name, so recording the name does not change how it
is read. -/
theorem interpret_record_of_slash_mem
    (hhas : book.Has lineage) (code : ChordCode) (hslash : '/' ∈ name.toList) :
    (book.record lineage name code).interpret lineage name = book.interpret lineage name := by
  obtain ⟨before, behind, hcut, hnone⟩ := Text.exists_cutChars? hslash
  have hne : String.ofList before ≠ name := by
    rintro rfl
    exact hnone (by simpa using hslash)
  have hcode : (book.record lineage name code).code lineage (String.ofList before) =
      book.code lineage (String.ofList before) := by
    simp only [ChordBook.code, lookup?_record_of_ne hhas code hne lineage]
  rw [interpret_of_letter hletter, interpret_of_letter hletter]
  cases hinversion : inversion? (String.ofList behind) with
  | none =>
      have hsplit : splitInversion name = .error (.badInversion (String.ofList behind)) := by
        simp [splitInversion, Text.cut?, hcut, hinversion]
      rw [hsplit]
      rfl
  | some times =>
      have hsplit : splitInversion name = .ok (String.ofList before, times) := by
        simp [splitInversion, Text.cut?, hcut, hinversion]
      simp only [hsplit, bind, Except.bind, hcode]

end Letters

/-- After a definition a plain name is read as the chord of the definition, and any other
name as before. -/
theorem interpret_define
    (h : book.define lineage name definition = .ok next) (hhas : book.Has lineage) :
    ∃ code, book.interpret lineage definition = .ok (some ⟨code, false⟩) ∧
      next.interpret lineage name =
        if IsPlain name then .ok (some ⟨code, false⟩) else book.interpret lineage name := by
  obtain ⟨hupward, hletter, -, ⟨code, downward⟩, hchord, rfl⟩ := define_eq_ok h
  have hdirection : downward = false := downward_of_interpret hupward hchord
  subst hdirection
  refine ⟨code, hchord, ?_⟩
  by_cases hslash : '/' ∈ name.toList
  · rw [if_neg fun hplain => hplain.2 hslash]
    exact interpret_record_of_slash_mem hletter hhas code hslash
  · rw [interpret_of_slash_not_mem hletter _ lineage hslash]
    cases hliteral : literal? name with
    | none =>
        rw [if_pos ⟨hliteral, hslash⟩,
          code_of_lookup? hliteral (lookup?_record_self hhas name code)]
        rfl
    | some digits =>
        have hread : ¬IsPlain name := fun hplain => by
          rw [hplain.1] at hliteral
          cases hliteral
        rw [if_neg hread, interpret_of_slash_not_mem hletter book lineage hslash,
          code_of_literal _ lineage hliteral, code_of_literal book lineage hliteral]

/-- An accepted definition denotes a chord, and afterwards its name is read as that chord if
and only if the name is plain or was read as that chord already. -/
theorem reads_back_iff_isPlain
    {book next : ChordBook} {lineage : Lineage} {name definition : String}
    (hhas : book.Has lineage) (h : book.define lineage name definition = .ok next) :
    ∃ code, book.interpret lineage definition = .ok (some ⟨code, false⟩) ∧
      (next.interpret lineage name = .ok (some ⟨code, false⟩) ↔
        IsPlain name ∨ book.interpret lineage name = .ok (some ⟨code, false⟩)) := by
  obtain ⟨code, hchord, hread⟩ := interpret_define h hhas
  refine ⟨code, hchord, ?_⟩
  rw [hread]
  by_cases hplain : IsPlain name
  · simp [hplain]
  · simp [hplain]

/-- The outermost layer with a suspended chord. -/
def suspended : ChordBook := ⟨[[("sus4", .ofNats 2 7)]]⟩

/-- A plain name is read as the inverted chord of its definition. -/
theorem sus4_reads_back :
    blank.Has root ∧ blank.define root "sus4" "57/1" = .ok suspended ∧
      suspended.interpret root "sus4" = .ok (some ⟨.ofNats 2 7, false⟩) := by
  have hhas : blank.Has root := ⟨0, [], rfl, by decide⟩
  have hdefine : blank.define root "sus4" "57/1" = .ok suspended := rfl
  have hcode : blank.interpret root "57/1" = .ok (some ⟨.ofNats 2 7, false⟩) := rfl
  obtain ⟨code, hchord, hiff⟩ := reads_back_iff_isPlain hhas hdefine
  cases hchord.symm.trans hcode
  exact ⟨hhas, hdefine, hiff.mpr (.inl (by decide))⟩

/-- A name of two digits is accepted, and is read as its digits afterwards. -/
theorem ab_not_read_back :
    ∃ next, blank.define root "ab" "47" = .ok next ∧
      blank.interpret root "47" = .ok (some ⟨.ofNats 4 7, false⟩) ∧
      next.interpret root "ab" ≠ .ok (some ⟨.ofNats 4 7, false⟩) := by
  have hread : ChordBook.interpret ⟨[[("ab", .ofNats 4 7)]]⟩ root "ab" =
      .ok (some ⟨.ofNats 10 11, false⟩) := rfl
  refine ⟨⟨[[("ab", .ofNats 4 7)]]⟩, rfl, rfl, ?_⟩
  rw [hread]
  intro hsame
  cases hsame

end ChordBook

end Chiptune
