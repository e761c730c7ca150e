/-!
# Blanks and words

The white space of Unicode, and the words of a text: its maximal runs without
white space.
-/

namespace Chiptune.Text

/-- White space is the Unicode property of that name. -/
def isBlank (c : Char) : Bool :=
  let n := c.toNat
  (9 ≤ n && n ≤ 13) || n == 0x20 || n == 0x85 || n == 0xA0 || n == 0x1680 ||
    (0x2000 ≤ n && n ≤ 0x200A) || n == 0x2028 || n == 0x2029 || n == 0x202F ||
    n == 0x205F || n == 0x3000

/-- The maximal runs of a text that hold no blank, in order. -/
def runs (cs : List Char) : List (List Char) :=
  (cs.splitOnP isBlank).filter fun run => !run.isEmpty

/-- The words of a text. -/
def words (text : String) : List String :=
  (runs text.toList).map String.ofList

/-- The characters without the blanks at either end. -/
def trimChars (cs : List Char) : List Char :=
  ((cs.dropWhile isBlank).reverse.dropWhile isBlank).reverse

/-- The text without the blanks at either end. -/
def trim (text : String) : String :=
  String.ofList (trimChars text.toList)

/-- Words written in a row, one space between neighbours. -/
def unwords (ws : List String) : String :=
  String.intercalate " " ws

end Chiptune.Text
