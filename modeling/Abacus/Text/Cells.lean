import Abacus.Text.Blank

/-!
# Cells of a line

Blanks, commas and semicolons stand between the cells of a line, in any mixture. The line without the blanks
on both sides is split at its longest runs of them; what is empty is no cell.
-/

namespace Abacus.Text

/-- Whether `c` stands between cells. -/
def separatesCells (c : Char) : Bool :=
  isBlank c || c == ',' || c == ';'

/-- Whether `c` is part of a cell. -/
def inCell (c : Char) : Bool :=
  !separatesCells c

/-- The pieces of a text between its longest runs of characters that separate, from left to right. A run at
either end has an empty piece on its outer side. -/
def splitAtRuns (separates : Char → Bool) : List Char → List (List Char)
  | [] => [[]]
  | c :: rest =>
    if separates c then [] :: splitAtRuns separates (rest.dropWhile separates)
    else (splitAtRuns separates rest).modifyHead (c :: ·)
termination_by chars => chars.length
decreasing_by
  · exact Nat.lt_succ_of_le (List.dropWhile_suffix separates).sublist.length_le
  · simp

/-- The cells of a line from left to right. -/
def splitCells (line : List Char) : List (List Char) :=
  (splitAtRuns separatesCells (strip line)).filter fun piece => !piece.isEmpty

end Abacus.Text
