import Chiptune.Text.Blank
import Chiptune.Text.Numeral
import Mathlib.Algebra.Ring.Nat

/-!
# Numerals that are read back

A number is read back from its decimal digits, and modulo a power of sixteen from as many
hexadecimal digits.
-/

namespace Chiptune.Text

/-! ## Decimal digits -/

theorem natText_ne_nil (n : Nat) : (natText n).toList ≠ [] := by
  rw [natText, String.toList_ofList]
  exact Nat.toDigits_ne_nil

theorem isDigit_of_mem_natText {n : Nat} {c : Char} (h : c ∈ (natText n).toList) :
    isDigit c = true := by
  rw [natText, String.toList_ofList] at h
  exact Nat.isDigit_of_mem_toDigits (by decide) (by decide) h

theorem digits?_natText (n : Nat) : digits? (natText n).toList = some n := by
  have hsome : (natText n).toList.isEmpty = false :=
    List.isEmpty_eq_false_iff.mpr (natText_ne_nil n)
  have hdigits : (natText n).toList.all isDigit = true :=
    List.all_eq_true.mpr fun _ => isDigit_of_mem_natText
  have hvalue : decimalValue (Nat.toDigits 10 n) = n := Nat.ofDigitChars_ten_toDigits
  rw [digits?, hdigits, hsome, natText, String.toList_ofList, hvalue]
  rfl

theorem isBlank_of_isDigit {c : Char} (h : isDigit c = true) : isBlank c = false := by
  have hrange : 48 ≤ c.toNat ∧ c.toNat ≤ 57 := by
    simpa [isDigit, Char.le_def, UInt32.le_iff_toNat_le] using h
  simp only [isBlank, Bool.or_eq_false_iff, Bool.and_eq_false_iff, decide_eq_false_iff_not,
    beq_eq_false_iff_ne]
  omega

theorem words_natText (n : Nat) : words (natText n) = [natText n] := by
  have hsplit : (natText n).toList.splitOnP isBlank = [(natText n).toList] :=
    List.splitOnP_eq_singleton fun _ hc => isBlank_of_isDigit (isDigit_of_mem_natText hc)
  have hsome : (!(natText n).toList.isEmpty) = true := by
    simpa using natText_ne_nil n
  simp only [words, runs, hsplit, List.filter_cons, hsome, if_true, List.filter_nil,
    List.map_singleton, String.ofList_toList]

theorem comma_not_mem_natText (n : Nat) : ',' ∉ (natText n).toList := fun hmem =>
  absurd (isDigit_of_mem_natText hmem) (by decide)

theorem comma_not_mem_intText (n : Int) : ',' ∉ (intText n).toList := by
  unfold intText
  split
  · rw [String.toList_append, List.mem_append, not_or]
    exact ⟨by decide, comma_not_mem_natText _⟩
  · exact comma_not_mem_natText _

/-! ## Hexadecimal digits -/

/-- The value of hexadecimal digits, most significant first. -/
def hexNumber? (digits : List Char) : Option Nat :=
  digits.foldl
    (fun value? c => value?.bind fun value => (hexValue? c).map (16 * value + ·)) (some 0)

theorem hexValue?_upperHexDigit (n : Nat) : hexValue? (upperHexDigit n) = some (n % 16) := by
  have hdigits : ∀ i : Fin 16, hexValue? ("0123456789ABCDEF".toList.getD i '0') = some i.val := by
    decide
  exact hdigits ⟨n % 16, Nat.mod_lt n (by decide)⟩

theorem length_hexDigits (digit : Nat → Char) (count n : Nat) :
    (hexDigits digit count n).length = count := by
  induction count generalizing n with
  | zero => rfl
  | succ count ih => rw [hexDigits, List.length_append, ih, List.length_singleton]

theorem hexNumber?_hexDigits (count n : Nat) :
    hexNumber? (hexDigits upperHexDigit count n) = some (n % 16 ^ count) := by
  induction count generalizing n with
  | zero => simp [hexDigits, hexNumber?, Nat.mod_one]
  | succ count ih =>
      have hrest := ih (n / 16)
      unfold hexNumber? at hrest ⊢
      rw [hexDigits, List.foldl_append, hrest, List.foldl_cons, List.foldl_nil, Option.bind_some,
        hexValue?_upperHexDigit, Option.map_some, Nat.pow_succ, Nat.mul_comm (16 ^ count),
        Nat.mod_mul, Nat.add_comm]

theorem upperHexDigit_ne_comma (n : Nat) : upperHexDigit n ≠ ',' := by
  intro hcomma
  have hvalue := hexValue?_upperHexDigit n
  rw [hcomma] at hvalue
  cases hvalue

theorem comma_not_mem_upperHex (count n : Nat) : ',' ∉ (upperHex count n).toList := by
  rw [upperHex, String.toList_ofList]
  induction count generalizing n with
  | zero => exact List.not_mem_nil
  | succ count ih =>
      rw [hexDigits, List.mem_append, List.mem_singleton]
      exact not_or.mpr ⟨ih _, (upperHexDigit_ne_comma n).symm⟩

end Chiptune.Text
