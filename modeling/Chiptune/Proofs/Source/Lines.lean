import Chiptune.Source.Statement

/-!
# Lines of a source

The words of the lines of a source do not depend on its name or on where a line
stands, so that the lines of texts under each other are those of the texts.
-/

namespace Chiptune.Statement

/-- The words of the lines that have any. -/
def wordsOf (lines : List (List Char)) : List (List String) :=
  (lines.map lineWords).filter (· ≠ [])

/-- The words of the lines of a text. -/
def lines (text : String) : List (List String) := wordsOf (text.toList.splitOn '\n')

theorem words_ofLines (file : String) (number : Nat) (lines : List (List Char)) :
    (ofLines file number lines).map (·.words) = wordsOf lines := by
  induction lines generalizing number with
  | nil => rfl
  | cons line rest ih =>
      have hrest := ih (number + 1)
      unfold ofLines
      cases hwords : lineWords line with
      | nil => simpa [wordsOf, hwords] using hrest
      | cons word words => simpa [wordsOf, hwords] using hrest

theorem words_ofSource (file text : String) :
    (ofSource file text).map (·.words) = lines text :=
  words_ofLines file 1 _

theorem ofLines_append (file : String) (number : Nat) (first second : List (List Char)) :
    ofLines file number (first ++ second) =
      ofLines file number first ++ ofLines file (number + first.length) second := by
  induction first generalizing number with
  | nil => rfl
  | cons line rest ih =>
      have hnumber : number + 1 + rest.length = number + (line :: rest).length := by
        simp only [List.length_cons]
        omega
      rw [List.cons_append, ofLines, ofLines, ih, hnumber]
      cases lineWords line <;> rfl

/-- A line break parts the statements before it from those behind it. -/
theorem ofSource_append (file first second : String) :
    ∃ list, ofSource file (first ++ "\n" ++ second) = ofSource file first ++ list ∧
      list.map (·.words) = lines second := by
  have hbreak : (first ++ "\n" ++ second).toList = first.toList ++ '\n' :: second.toList := by
    simp
  have hlist := ofLines_append file 1 (first.toList.splitOn '\n') (second.toList.splitOn '\n')
  rw [← List.splitOn_append_cons_self, ← hbreak] at hlist
  exact ⟨_, hlist, words_ofLines file _ _⟩

end Chiptune.Statement
