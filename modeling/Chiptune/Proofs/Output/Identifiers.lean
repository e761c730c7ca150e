import Chiptune.Chord.Code
import Chiptune.Proofs.Labels
import Chiptune.Proofs.Output.Wrapping
import Chiptune.Proofs.Text.Numerals

/-!
# Identifiers in lines of output

An identifier is a longest run of letters, digits and underscores. Where a character that
stands in no identifier separates two texts, the identifiers of both together are those of
the one and then those of the other. So the identifiers of a line can be read off from how
it is put together.
-/

namespace Chiptune

namespace Output

/-- Whether a character may stand in an identifier. -/
def isIdentifier (c : Char) : Bool := Text.isAlphanumeric c || c == '_'

/-- The identifiers of a text, in order. -/
def identifiers (text : String) : List String :=
  ((text.toList.splitOnP fun c => !isIdentifier c).filter fun run => !run.isEmpty).map String.ofList

/-! ## Texts one after the other -/

/-- Whether a text begins with a character that stands in no identifier. -/
def beginsApart (text : String) : Bool := text.toList.head?.any fun c => !isIdentifier c

/-- Whether a text ends in a character that stands in no identifier. -/
def endsApart (text : String) : Bool := text.toList.getLast?.any fun c => !isIdentifier c

theorem endsApart_append (first : String) {second : String} (h : endsApart second = true) :
    endsApart (first ++ second) = true := by
  obtain ⟨c, hlast, hc⟩ := (Option.any_eq_true _ _).mp h
  rw [endsApart, Option.any_eq_true]
  refine ⟨c, ?_, hc⟩
  rw [String.toList_append, List.getLast?_append, hlast]
  rfl

theorem identifiers_append_of_endsApart
    {first : String} (h : endsApart first = true) (second : String) :
    identifiers (first ++ second) = identifiers first ++ identifiers second := by
  obtain ⟨c, hlast, hc⟩ := (Option.any_eq_true _ _).mp h
  obtain ⟨before, hfirst⟩ := List.getLast?_eq_some_iff.mp hlast
  simp only [identifiers, String.toList_append, hfirst, List.append_assoc, List.singleton_append]
  rw [List.splitOnP_append_cons before second.toList hc, List.splitOnP_append_cons before [] hc]
  simp

theorem identifiers_append_of_beginsApart
    (first : String) {second : String} (h : beginsApart second = true) :
    identifiers (first ++ second) = identifiers first ++ identifiers second := by
  obtain ⟨c, hhead, hc⟩ := (Option.any_eq_true _ _).mp h
  obtain ⟨after, hsecond⟩ := List.head?_eq_some_iff.mp hhead
  simp only [identifiers, String.toList_append, hsecond]
  rw [List.splitOnP_append_cons first.toList after hc, ← List.nil_append (c :: after),
    List.splitOnP_append_cons [] after hc]
  simp

/-- Whether a text has no identifiers and keeps those around it apart. -/
def isSeparator (text : String) : Bool :=
  beginsApart text && endsApart text && (identifiers text).isEmpty

theorem identifiers_between
    (first : String) {separator : String} (h : isSeparator separator = true) (second : String) :
    identifiers (first ++ separator ++ second) = identifiers first ++ identifiers second := by
  simp only [isSeparator, Bool.and_eq_true, List.isEmpty_iff] at h
  obtain ⟨⟨hbegins, hends⟩, hnone⟩ := h
  rw [identifiers_append_of_endsApart (endsApart_append first hends),
    identifiers_append_of_beginsApart first hbegins, hnone, List.append_nil]

theorem identifiers_intercalate
    {separator : String} (h : isSeparator separator = true) (parts : List String) :
    identifiers (String.intercalate separator parts) = parts.flatMap identifiers := by
  induction parts with
  | nil => rfl
  | cons part parts ih =>
      cases parts with
      | nil => simp
      | cons next rest =>
          rw [String.intercalate_cons_cons, List.flatMap_cons, identifiers_between part h, ih]

section Members

variable {first second separator opening text word : String}

theorem mem_identifiers_behind
    (hends : endsApart opening = true) (h : word ∈ identifiers text) :
    word ∈ identifiers (opening ++ text) := by
  rw [identifiers_append_of_endsApart hends]
  exact List.mem_append_right _ h

theorem mem_identifiers_left
    (hseparator : isSeparator separator = true) (h : word ∈ identifiers first) :
    word ∈ identifiers (first ++ separator ++ second) := by
  rw [identifiers_between first hseparator]
  exact List.mem_append_left _ h

theorem mem_identifiers_right
    (hseparator : isSeparator separator = true) (h : word ∈ identifiers second) :
    word ∈ identifiers (first ++ separator ++ second) := by
  rw [identifiers_between first hseparator]
  exact List.mem_append_right _ h

theorem mem_identifiers_operands
    (hends : endsApart opening = true) {operands : List String} (hmem : text ∈ operands)
    (h : word ∈ identifiers text) :
    word ∈ identifiers (opening ++ String.intercalate ", " operands) := by
  apply mem_identifiers_behind hends
  rw [identifiers_intercalate (by decide)]
  exact List.mem_flatMap.mpr ⟨text, hmem, h⟩

end Members

theorem mem_toList_of_mem_identifiers
    {text word : String} (h : word ∈ identifiers text) {c : Char} (hc : c ∈ word.toList) :
    c ∈ text.toList := by
  obtain ⟨run, hrun, rfl⟩ := List.mem_map.mp h
  rw [String.toList_ofList] at hc
  exact (Name.forall_mem_of_mem_splitOnP (List.mem_filter.mp hrun).1 c hc).1

/-! ## Labels -/

/-- A text that is one identifier. -/
def IsWord (text : String) : Prop :=
  text.toList ≠ [] ∧ ∀ c ∈ text.toList, isIdentifier c = true

theorem IsWord.identifiers {text : String} (h : IsWord text) : identifiers text = [text] := by
  have hsplit : text.toList.splitOnP (fun c => !isIdentifier c) = [text.toList] :=
    List.splitOnP_eq_singleton fun c hc => by simp [h.2 c hc]
  simp [Output.identifiers, hsplit, h.1]

theorem mem_intercalate
    {α : Type} {separator : List α} {parts : List (List α)} {item : α}
    (h : item ∈ separator.intercalate parts) :
    item ∈ separator ∨ ∃ part ∈ parts, item ∈ part := by
  induction parts with
  | nil => cases h
  | cons part parts ih =>
      cases parts with
      | nil =>
          rw [List.intercalate_singleton] at h
          exact .inr ⟨part, List.mem_cons_self, h⟩
      | cons next rest =>
          rw [List.intercalate_cons_cons, List.append_assoc, List.mem_append,
            List.mem_append] at h
          rcases h with h | h | h
          · exact .inr ⟨part, List.mem_cons_self, h⟩
          · exact .inl h
          · refine (ih h).imp id ?_
            rintro ⟨other, hother, hitem⟩
            exact ⟨other, List.mem_cons_of_mem _ hother, hitem⟩

theorem isIdentifier_of_mem_label {name : String} {c : Char} (h : c ∈ (Name.label name).toList) :
    isIdentifier c = true := by
  rw [Name.toList_label] at h
  rcases mem_intercalate h with h | ⟨run, hrun, hc⟩
  · rw [List.mem_singleton.mp h]
    decide
  · simp [isIdentifier, Name.isAlphanumeric_of_mem_runs hrun hc]

/-- A label behind a beginning of its kind is one identifier. -/
theorem isWord_append_label {start : String} (h : IsWord start) (name : String) :
    IsWord (start ++ Name.label name) := by
  constructor
  · simp [String.toList_append, h.1]
  · intro c hc
    rw [String.toList_append, List.mem_append] at hc
    exact hc.elim (h.2 c) isIdentifier_of_mem_label

/-! ## Numerals

Numerals have no underscore, so they hold no labels. -/

theorem underscore_not_mem_natText (n : Nat) : '_' ∉ (Text.natText n).toList := by
  intro hmem
  exact absurd (Text.isDigit_of_mem_natText hmem) (by decide)

theorem underscore_not_mem_intText (n : Int) : '_' ∉ (Text.intText n).toList := by
  unfold Text.intText
  split
  · rw [String.toList_append, List.mem_append]
    exact not_or.mpr ⟨by decide, underscore_not_mem_natText _⟩
  · exact underscore_not_mem_natText _

theorem upperHexDigit_ne_underscore (n : Nat) : Text.upperHexDigit n ≠ '_' := by
  have hdigits : ∀ i : Fin 16, "0123456789ABCDEF".toList.getD i '0' ≠ '_' := by decide
  exact hdigits ⟨n % 16, Nat.mod_lt n (by decide)⟩

theorem underscore_not_mem_upperHex (count n : Nat) : '_' ∉ (Text.upperHex count n).toList := by
  rw [Text.upperHex, String.toList_ofList]
  induction count generalizing n with
  | zero => exact List.not_mem_nil
  | succ count ih =>
      rw [Text.hexDigits, List.mem_append, List.mem_singleton]
      exact not_or.mpr ⟨ih _, (upperHexDigit_ne_underscore n).symm⟩

theorem underscore_not_mem_code (code : ChordCode) : '_' ∉ code.text.toList := by
  rw [ChordCode.text, String.toList_ofList, ChordCode.chars]
  simp [(upperHexDigit_ne_underscore _).symm]

/-! ## Wrapped lines -/

theorem mem_identifiers_of_mem_wrap
    {opening line word : String} {atoms : List String} (hends : endsApart opening = true)
    (hline : line ∈ wrap opening atoms) (hword : word ∈ identifiers line) :
    word ∈ identifiers opening ∨ ∃ atom ∈ atoms, word ∈ identifiers atom := by
  obtain ⟨filled, hfilled, rfl⟩ := List.mem_map.mp hline
  rw [identifiers_append_of_endsApart hends,
    identifiers_intercalate (by decide), List.mem_append,
    List.mem_flatMap] at hword
  refine hword.imp id ?_
  rintro ⟨atom, hatom, hword⟩
  have hmem : atom ∈ (fill (lineBytes - opening.utf8ByteSize) [] 0 atoms).flatten :=
    List.mem_flatten.mpr ⟨filled, hfilled, hatom⟩
  rw [flatten_fill] at hmem
  exact ⟨atom, hmem, hword⟩

end Output

end Chiptune
