import Chiptune.Chord.Book
import Chiptune.Proofs.Text.Numerals
import Mathlib.Data.List.Basic
import Mathlib.Data.List.GetD

/-!
# Chord codes as texts

The type of chord codes has room for two digits only. Here a code is a text of which nothing is
promised: a literal is filled up and put into upper case, a built-in chord is a text of a table,
and an inversion writes the numbers that it comes to with as many digits as they take. All that
a book of such texts answers is the text of what the book of codes answers.
-/

namespace Chiptune

/-! ## Hexadecimal digits -/

namespace Text

/-- The upper-case hexadecimal digits of a number, as many as it takes. -/
def hexText (n : Nat) : List Char := (Nat.toDigits 16 n).map Char.toUpper

theorem hexText_of_lt {n : Nat} (h : n < 16) : hexText n = [upperHexDigit n] := by
  have hdigits : ∀ n < 16, hexText n = [upperHexDigit n] := by decide
  exact hdigits n h

/-- A hexadecimal digit has a value below sixteen, and is its digit in upper case. -/
theorem toUpper_of_hexValue? {c : Char} {value : Nat} (h : hexValue? c = some value) :
    value < 16 ∧ c.toUpper = upperHexDigit value := by
  have hchars : ∀ n < 103, ∀ value ∈ hexValue? (Char.ofNat n),
      value < 16 ∧ (Char.ofNat n).toUpper = upperHexDigit value := by decide
  have hsmall : c.toNat < 103 := by
    simp only [hexValue?, isDigit, Char.le_def, UInt32.le_iff_toNat_le, Bool.and_eq_true,
      decide_eq_true_eq] at h
    split at h
    · next hdigit => exact Nat.lt_of_le_of_lt hdigit.2 (by decide)
    · split at h
      · next hlower => exact Nat.lt_of_le_of_lt hlower.2 (by decide)
      · split at h
        · next hupper => exact Nat.lt_of_le_of_lt hupper.2 (by decide)
        · cases h
  have hfound := hchars c.toNat hsmall value
  rw [Char.ofNat_toNat] at hfound
  exact hfound h

/-- The text is two upper-case hexadecimal digits. -/
def IsHexPair (text : String) : Prop :=
  text.toList.length = 2 ∧ ∀ c ∈ text.toList, c ∈ "0123456789ABCDEF".toList

theorem isHexPair_text (code : ChordCode) : IsHexPair code.text := by
  have hdigits : ∀ n < 16, upperHexDigit n ∈ "0123456789ABCDEF".toList := by decide
  have hfirst := hdigits code.first code.first.isLt
  have hsecond := hdigits code.second code.second.isLt
  rw [IsHexPair, ChordCode.text, String.toList_ofList, ChordCode.chars]
  constructor
  · rfl
  · exact List.forall_mem_cons.mpr ⟨hfirst, List.forall_mem_singleton.mpr hsecond⟩

theorem exists_upperHexDigit {c : Char} (h : c ∈ "0123456789ABCDEF".toList) :
    ∃ n < 16, upperHexDigit n = c := by
  obtain ⟨n, hn, rfl⟩ := List.getElem_of_mem h
  have hsmall : n < 16 := hn
  have hdigit : upperHexDigit n = "0123456789ABCDEF".toList.getD (n % 16) '0' := rfl
  refine ⟨n, hsmall, ?_⟩
  rw [hdigit, Nat.mod_eq_of_lt hsmall]
  exact List.getD_eq_getElem _ _ hn

/-- Two hexadecimal digits are the number of a byte. -/
theorem IsHexPair.exists_hexNumber?
    {text : String} (h : IsHexPair text) : ∃ n < 256, hexNumber? text.toList = some n := by
  obtain ⟨hlength, hdigits⟩ := h
  obtain ⟨first, second, htext⟩ := List.length_eq_two.mp hlength
  rw [htext] at hdigits ⊢
  obtain ⟨high, hhigh, rfl⟩ := exists_upperHexDigit (hdigits first (by simp))
  obtain ⟨low, hlow, rfl⟩ := exists_upperHexDigit (hdigits second (by simp))
  refine ⟨16 * (high % 16) + low % 16, by omega, ?_⟩
  simp [hexNumber?, hexValue?_upperHexDigit]

end Text

/-! ## Inverting texts -/

/-- A chord whose code is a text. -/
structure TextChord where
  code : String
  downward : Bool

namespace TextChord

/-- The values of the digits in a code; other characters are passed over. -/
def values (code : String) : List Nat := code.toList.filterMap Text.hexValue?

/-- The greatest distance in a code. -/
def span (code : String) : Nat := (values code).foldl max 0

/-- A distance, where none is the octave. -/
def orOctave (distance : Nat) : Nat := if distance = 0 then 12 else distance

/-- The notes of a chord whose base is an octave up, counted from the lowest and turned until
that one is in front. -/
def turned (low high : Nat) : List Nat :=
  let notes := [12, orOctave low, orOctave high]
  let distances := notes.map (· - notes.foldl min 12)
  distances.dropWhile (· ≠ 0) ++ distances.takeWhile (· ≠ 0)

/-- The code of the chord with its base moved up an octave. -/
def invertOnce (code : String) : Except Fault String :=
  match values code with
  | [low, high] =>
    if 12 ≤ low ∨ 12 ≤ high then .error (.wideChord code)
    else if high = 0 then .ok (String.ofList (Text.hexText (12 - low) ++ ['0']))
    else .ok (String.ofList ((turned low high).tail.flatMap Text.hexText))
  | _ => .error (.notTwoDigitChord code)

/-- The code inverted `times` times. -/
def invert (code : String) : Nat → Except Fault String
  | 0 => .ok code
  | times + 1 => invertOnce code >>= fun next => invert next times

variable {low high first second : Nat}

theorem values_text (code : ChordCode) :
    values code.text = [code.first.val, code.second.val] := by
  simp [values, ChordCode.text, ChordCode.chars, Text.hexValue?_upperHexDigit,
    Nat.mod_eq_of_lt code.first.isLt, Nat.mod_eq_of_lt code.second.isLt]

theorem span_text (code : ChordCode) : span code.text = code.span := by
  simp [span, values_text, ChordCode.span]

theorem text_ofNats_digits (hfirst : first < 16) (hsecond : second < 16) :
    (ChordCode.ofNats first second).text =
      String.ofList [Text.upperHexDigit first, Text.upperHexDigit second] := by
  simp [ChordCode.text, ChordCode.chars, ChordCode.ofNats, Nat.mod_eq_of_lt hfirst,
    Nat.mod_eq_of_lt hsecond]

theorem text_ofNats (hfirst : first < 16) (hsecond : second < 16) :
    (ChordCode.ofNats first second).text =
      String.ofList (Text.hexText first ++ Text.hexText second) := by
  rw [text_ofNats_digits hfirst hsecond, Text.hexText_of_lt hfirst, Text.hexText_of_lt hsecond]
  rfl

/-- The chord is turned by one note, or by two if the second is the lower one. -/
theorem turned_eq (hlow : low < 12) (hhigh : high < 12) (hpos : high ≠ 0) :
    turned low high =
      if low = 0 then [0, 12 - high, 12 - high]
      else if low ≤ high then [0, high - low, 12 - low]
      else [0, 12 - high, low - high] := by
  by_cases hzero : low = 0
  · have hlowest : [12, 12, high].foldl min 12 = high := by
      simp only [List.foldl_cons, List.foldl_nil]
      omega
    have hbase : 12 - high ≠ 0 := by omega
    simp only [turned, orOctave, if_pos hzero, if_neg hpos, hlowest]
    simp [hbase]
  · by_cases hle : low ≤ high
    · have hlowest : [12, low, high].foldl min 12 = low := by
        simp only [List.foldl_cons, List.foldl_nil]
        omega
      have hbase : 12 - low ≠ 0 := by omega
      simp only [turned, orOctave, if_neg hzero, if_pos hle, if_neg hpos, hlowest]
      simp [hbase]
    · have hlowest : [12, low, high].foldl min 12 = high := by
        simp only [List.foldl_cons, List.foldl_nil]
        omega
      have hbase : 12 - high ≠ 0 := by omega
      have hfirst : low - high ≠ 0 := by omega
      simp only [turned, orOctave, if_neg hzero, if_neg hle, if_neg hpos, hlowest]
      simp [hbase, hfirst]

/-- The numbers of an inversion are single digits, so its text is that of a code. -/
theorem invertOnce_text (code : ChordCode) :
    invertOnce code.text =
      match code.inverted? with
      | some next => .ok next.text
      | none => .error (.wideChord code.text) := by
  have hvalues := values_text code
  simp only [invertOnce, hvalues, ChordCode.inverted?]
  generalize code.first.val = low
  generalize code.second.val = high
  by_cases hwide : 12 ≤ low ∨ 12 ≤ high
  · rw [if_pos hwide, if_pos hwide]
  obtain ⟨hlow, hhigh⟩ : low < 12 ∧ high < 12 := by omega
  rw [if_neg hwide, if_neg hwide]
  by_cases hpos : high = 0
  · rw [if_pos hpos, if_pos hpos]
    dsimp only
    rw [text_ofNats (by omega) (by decide)]
    rfl
  rw [if_neg hpos, if_neg hpos, turned_eq hlow hhigh hpos]
  split_ifs
  all_goals
    dsimp only
    rw [text_ofNats (by omega) (by omega)]
    simp

theorem invert_text (code : ChordCode) (times : Nat) :
    invert code.text times = (code.invert times).map ChordCode.text := by
  induction times generalizing code with
  | zero => rfl
  | succ times ih =>
      rw [invert, invertOnce_text, ChordCode.invert]
      cases code.inverted? with
      | none => rfl
      | some next => exact ih next

end TextChord

/-- The chord with the text of its code. -/
def Arpeggio.inText (arpeggio : Arpeggio) : TextChord := ⟨arpeggio.code.text, arpeggio.downward⟩

/-! ## Books of texts -/

/-- The built-in chords with their codes in text. -/
def builtinTexts : List (String × String) :=
  [("OF", "00"), ("M", "47"), ("m", "37"), ("maj7", "4B"), ("m7", "3A"), ("dom7", "4A"),
    ("dim", "36"), ("dim7", "39"), ("aug", "48")]

/-- A book whose codes are texts. -/
structure TextBook where
  layers : List (List (String × String))

namespace TextBook

/-- The names of one layer. -/
def layer (book : TextBook) (index : Nat) : List (String × String) := book.layers.getD index []

/-- The text that a name stands for: the nearest layer that defines it decides. -/
def lookup? (book : TextBook) (lineage : Lineage) (name : String) : Option String :=
  (lineage.findSome? fun index => (book.layer index).lookup name).or (builtinTexts.lookup name)

/-- Whether the context's own layer defines the name. -/
def definesOwn (book : TextBook) (lineage : Lineage) (name : String) : Bool :=
  lineage.head?.any fun own => ((book.layer own).lookup name).isSome

/-- Put a name into the context's own layer. -/
def record (book : TextBook) (lineage : Lineage) (name code : String) : TextBook :=
  match lineage with
  | own :: _ => ⟨book.layers.set own ((name, code) :: book.layer own)⟩
  | [] => book

/-- A new empty layer inside a lineage. -/
def nest (book : TextBook) (lineage : Lineage) : Lineage × TextBook :=
  (book.layers.length :: lineage, ⟨book.layers ++ [[]]⟩)

/-- A name of one or two hexadecimal digits is a code, in upper case and filled up with a zero. -/
def literal? (name : String) : Option String :=
  if name.toList.length < 3 ∧ name.toList ≠ [] ∧ name.toList.all Text.isHexDigit then
    some (String.ofList ((name.toList.map Char.toUpper).leftpad 2 '0'))
  else none

/-- The code of a chord by name or by digits. -/
def code (book : TextBook) (lineage : Lineage) (name : String) : Except Fault String :=
  match (literal? name).or (book.lookup? lineage name) with
  | some code => .ok code
  | none => .error (.unknownChord name)

/-- The chord that a text denotes; an empty text denotes none. -/
def interpret (book : TextBook) (lineage : Lineage) (text : String) :
    Except Fault (Option TextChord) := do
  if text.isEmpty then return none
  let downward := (Text.after? "-" text).isSome
  let (name, times) ← ChordBook.splitInversion ((Text.after? "-" text).getD text)
  let base ← book.code lineage name
  let inverted ← TextChord.invert base times
  return some ⟨inverted, downward⟩

/-- Define a chord name in the context's own layer. -/
def define (book : TextBook) (lineage : Lineage) (name definition : String) :
    Except Fault TextBook := do
  if (Text.after? "-" definition).isSome then throw (.downwardChordDefinition name)
  if !(name.toList.head?.any Text.isLetter) then throw (.chordNameStart name)
  if name = "P1" || name = "P2" then throw (.reservedChordName name)
  if book.definesOwn lineage name then throw (.chordAlreadyDefined name)
  match ← book.interpret lineage definition with
  | some chord => return book.record lineage name chord.code
  | none => throw (.emptyChordDefinition name)

end TextBook

/-- The book with the texts of its codes. -/
def ChordBook.inText (book : ChordBook) : TextBook :=
  ⟨book.layers.map fun layer => layer.map fun (name, code) => (name, code.text)⟩

namespace TextBook

theorem lookup_map_text (layer : List (String × ChordCode)) (name : String) :
    (layer.map fun (name, code) => (name, code.text)).lookup name =
      (layer.lookup name).map ChordCode.text := by
  induction layer with
  | nil => rfl
  | cons entry layer ih =>
      rw [List.map_cons, List.lookup_cons, List.lookup_cons, ih]
      split <;> rfl

theorem layer_inText (book : ChordBook) (index : Nat) :
    book.inText.layer index = (book.layer index).map fun (name, code) => (name, code.text) := by
  rw [layer, ChordBook.inText, ChordBook.layer, List.getD_eq_getElem?_getD,
    List.getD_eq_getElem?_getD, List.getElem?_map]
  cases book.layers[index]? <;> rfl

theorem lookup?_inText (book : ChordBook) (lineage : Lineage) (name : String) :
    book.inText.lookup? lineage name = (book.lookup? lineage name).map ChordCode.text := by
  have hbuiltin : builtinTexts = builtinChords.map fun (name, code) => (name, code.text) := by
    decide
  have hlayers : (lineage.findSome? fun index => (book.inText.layer index).lookup name) =
      (lineage.findSome? fun index => (book.layer index).lookup name).map ChordCode.text := by
    simp only [layer_inText, lookup_map_text, List.map_findSome?]
    rfl
  rw [lookup?, ChordBook.lookup?, hlayers, hbuiltin, lookup_map_text]
  split
  · next hfound => rw [hfound]; rfl
  · next hnone => rw [hnone]; rfl

theorem definesOwn_inText (book : ChordBook) (lineage : Lineage) (name : String) :
    book.inText.definesOwn lineage name = book.definesOwn lineage name := by
  cases lineage with
  | nil => rfl
  | cons own outer =>
      simp [definesOwn, ChordBook.definesOwn, layer_inText, lookup_map_text]

theorem record_inText (book : ChordBook) (lineage : Lineage) (name : String) (code : ChordCode) :
    book.inText.record lineage name code.text = (book.record lineage name code).inText := by
  cases lineage with
  | nil => rfl
  | cons own outer =>
      rw [record, ChordBook.record, layer_inText]
      simp [ChordBook.inText, List.map_set]

theorem nest_inText (book : ChordBook) (lineage : Lineage) :
    book.inText.nest lineage = (book.nest lineage).map id ChordBook.inText := by
  simp [nest, ChordBook.nest, ChordBook.inText]

theorem literal?_eq (name : String) :
    literal? name = (ChordBook.literal? name).map ChordCode.text := by
  rw [literal?, ChordBook.literal?]
  rcases name.toList with _ | ⟨c, _ | ⟨d, _ | ⟨e, rest⟩⟩⟩
  · rfl
  · cases hc : Text.hexValue? c with
    | none => simp [Text.isHexDigit, hc]
    | some value =>
        obtain ⟨hvalue, hupper⟩ := Text.toUpper_of_hexValue? hc
        have htext := TextChord.text_ofNats_digits (by decide : 0 < 16) hvalue
        have hzero : Text.upperHexDigit 0 = '0' := rfl
        simp [Text.isHexDigit, hc, hupper, htext, hzero, List.leftpad]
  · cases hc : Text.hexValue? c with
    | none => simp [Text.isHexDigit, hc]
    | some first =>
        cases hd : Text.hexValue? d with
        | none => simp [Text.isHexDigit, hd]
        | some second =>
            obtain ⟨hfirst, hupper⟩ := Text.toUpper_of_hexValue? hc
            obtain ⟨hsecond, hupper'⟩ := Text.toUpper_of_hexValue? hd
            have htext := TextChord.text_ofNats_digits hfirst hsecond
            simp [Text.isHexDigit, hc, hd, hupper, hupper', htext, List.leftpad]
  · rw [if_neg fun hshort => absurd hshort.1 (by simp)]
    rfl

theorem code_inText (book : ChordBook) (lineage : Lineage) (name : String) :
    book.inText.code lineage name = (book.code lineage name).map ChordCode.text := by
  rw [code, ChordBook.code, literal?_eq, lookup?_inText]
  cases ChordBook.literal? name with
  | some code => rfl
  | none => cases book.lookup? lineage name <;> rfl

theorem interpret_inText (book : ChordBook) (lineage : Lineage) (text : String) :
    book.inText.interpret lineage text =
      (book.interpret lineage text).map (Option.map Arpeggio.inText) := by
  have hchord (downward : Bool) (name : String) (times : Nat) :
      (do
        let base ← book.inText.code lineage name
        let inverted ← TextChord.invert base times
        return some (TextChord.mk inverted downward)) =
      (do
        let base ← book.code lineage name
        let inverted ← base.invert times
        return some (Arpeggio.mk inverted downward)).map (Option.map Arpeggio.inText) := by
    rw [code_inText]
    cases book.code lineage name with
    | error fault => rfl
    | ok base =>
        change (TextChord.invert base.text times >>= _) = Except.map _ (base.invert times >>= _)
        rw [TextChord.invert_text]
        cases base.invert times <;> rfl
  unfold interpret ChordBook.interpret
  by_cases hempty : text.isEmpty = true
  · rw [if_pos hempty, if_pos hempty]
    rfl
  rw [if_neg hempty, if_neg hempty]
  cases Text.after? "-" text with
  | none =>
      dsimp only [Option.getD_none, Option.isSome_none]
      cases ChordBook.splitInversion text with
      | error fault => rfl
      | ok parts => exact hchord false parts.1 parts.2
  | some rest =>
      dsimp only [Option.getD_some, Option.isSome_some]
      cases ChordBook.splitInversion rest with
      | error fault => rfl
      | ok parts => exact hchord true parts.1 parts.2

theorem define_inText (book : ChordBook) (lineage : Lineage) (name definition : String) :
    book.inText.define lineage name definition =
      (book.define lineage name definition).map ChordBook.inText := by
  unfold define ChordBook.define
  rw [definesOwn_inText, interpret_inText]
  dsimp only
  by_cases hdownward : (Text.after? "-" definition).isSome = true
  · rw [if_pos hdownward, if_pos hdownward]
    rfl
  rw [if_neg hdownward, if_neg hdownward]
  by_cases hstart : (!(name.toList.head?.any Text.isLetter)) = true
  · rw [if_pos hstart, if_pos hstart]
    rfl
  rw [if_neg hstart, if_neg hstart]
  by_cases hreserved : (name = "P1" || name = "P2") = true
  · rw [if_pos hreserved, if_pos hreserved]
    rfl
  rw [if_neg hreserved, if_neg hreserved]
  by_cases hknown : book.definesOwn lineage name = true
  · rw [if_pos hknown, if_pos hknown]
    rfl
  rw [if_neg hknown, if_neg hknown]
  rcases book.interpret lineage definition with fault | _ | arpeggio
  · rfl
  · rfl
  · exact congrArg Except.ok (record_inText book lineage name arpeggio.code)

end TextBook

end Chiptune
