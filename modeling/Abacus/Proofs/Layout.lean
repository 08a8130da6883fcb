import Abacus.Proofs.Cells
import Abacus.Proofs.Rows
import Abacus.Value

/-!
# What is shown can be told apart again

A shown number is what follows the label. A shown matrix is its lines, and each line between the top
and the bottom of the box holds the texts of one row, which are found again as the cells between the
sides (`splitCells_inner`).
-/

namespace Abacus.Display

/-- What follows the label on its line. -/
def afterLabel (shown : String) : List Char :=
  shown.toList.drop (label.length + 1)

/-- A line without its first and last character, the sides of the box. -/
def inner (line : List Char) : List Char :=
  line.tail.dropLast

/-- The rows of a box without its sides: the lines between the label and the top, and the bottom. -/
def body (shown : String) : List (List Char) :=
  (((shown.toList.splitOn '\n').drop 2).dropLast).map inner

theorem afterLabel_scalar (x : Scalar) : afterLabel (scalar x) = x.text.toList := by
  rw [afterLabel, scalar, String.toList_append]
  exact List.drop_left' (String.length_toList)

/-! ## Lines -/

theorem newline_not_mem_text (x : Scalar) : '\n' ∉ x.text.toList := by
  intro member
  have solid := x.isNumberText.isCell.solid '\n' member
  exact absurd solid (by decide)

theorem newline_not_mem_spaces (count : Nat) : '\n' ∉ spaces count := by
  intro member
  exact absurd (List.eq_of_mem_replicate member) (by decide)

theorem newline_not_mem_edge {left right : Char} (leftApart : '\n' ≠ left) (rightApart : '\n' ≠ right)
    (a : Matrix) : '\n' ∉ (edge left right a).toList := by
  rw [edge, String.toList_ofList]
  simp [newline_not_mem_spaces, leftApart, rightApart]

theorem newline_not_mem_boxRow (width : Nat) (row : List Scalar) :
    '\n' ∉ (boxRow width (row.map Scalar.text)).toList := by
  rw [boxRow, String.toList_ofList]
  simp [padded, newline_not_mem_spaces, newline_not_mem_text]

theorem splitOn_matrix (a : Matrix) :
    (matrix a).toList.splitOn '\n' = (matrixLines a).map String.toList := by
  rw [matrix, String.toList_intercalate]
  refine List.splitOn_intercalate '\n' ?_ (by simp [matrixLines])
  intro line member
  simp only [matrixLines, cells, List.map_map, List.map_cons, List.map_append, List.cons_append,
    List.mem_cons, List.mem_append, List.mem_map, List.map_nil, List.not_mem_nil, or_false] at member
  rcases member with rfl | rfl | ⟨row, -, rfl⟩ | rfl
  · decide
  · exact newline_not_mem_edge (by decide) (by decide) a
  · exact newline_not_mem_boxRow _ row
  · exact newline_not_mem_edge (by decide) (by decide) a

/-- The line of a row in the box of a matrix, without the sides of the box. -/
def rowLine (a : Matrix) (row : List Scalar) : List Char :=
  inner (boxRow (cellWidth a) (row.map Scalar.text)).toList

theorem body_matrix (a : Matrix) : body (matrix a) = a.rows.map (rowLine a) := by
  rw [body, splitOn_matrix]
  simp [matrixLines, cells, rowLine]

/-! ## Rows -/

theorem inner_boxRow (width : Nat) (row : List String) :
    inner (boxRow width row).toList = ' ' :: row.flatMap (padded (width + 1)) := by
  rw [boxRow, String.toList_ofList, inner, List.cons_append, List.tail_cons, List.dropLast_concat]

/-- Cells that are padded beyond their length are found again. -/
theorem splitCells_inner {width : Nat} {row : List String}
    (whole : ∀ cell ∈ row, IsCell cell.toList) (fit : ∀ cell ∈ row, cell.length ≤ width) :
    Text.splitCells (inner (boxRow width row).toList) = row.map String.toList := by
  rw [inner_boxRow, Text.splitCells_cons, if_pos (by decide)]
  refine Text.splitCells_flatMap row whole (fun cell member => ?_) fun cell member c space => ?_
  · have room := fit cell member
    rw [spaces, Ne, List.replicate_eq_nil_iff]
    omega
  · rw [List.eq_of_mem_replicate space]
    decide

theorem le_longest (texts : List String) (start : Nat) :
    start ≤ texts.foldl (fun longest cell => max longest cell.length) start := by
  induction texts generalizing start with
  | nil => exact le_rfl
  | cons first rest ih => exact (le_max_left start first.length).trans (ih _)

theorem length_le_longest {texts : List String} {text : String} (member : text ∈ texts)
    (start : Nat) : text.length ≤ texts.foldl (fun longest cell => max longest cell.length) start := by
  induction texts generalizing start with
  | nil => exact absurd member List.not_mem_nil
  | cons first rest ih =>
    rcases List.mem_cons.mp member with rfl | later
    · exact (le_max_right start text.length).trans (le_longest rest _)
    · exact ih later _

theorem length_le_cellWidth {a : Matrix} {row : List Scalar} (member : row ∈ a.rows) {x : Scalar}
    (entry : x ∈ row) : x.text.length ≤ cellWidth a := by
  refine length_le_longest (List.mem_flatten.mpr ⟨row.map Scalar.text, ?_, ?_⟩) 0
  · exact List.mem_map_of_mem member
  · exact List.mem_map_of_mem entry

/-- A row of a matrix is found again in its line. -/
theorem splitCells_row {a : Matrix} {row : List Scalar} (member : row ∈ a.rows) :
    Text.splitCells (rowLine a row) = row.map fun x => x.text.toList := by
  rw [rowLine, splitCells_inner, List.map_map]
  · rfl
  · intro cell inRow
    obtain ⟨x, -, rfl⟩ := List.mem_map.mp inRow
    exact x.isNumberText.isCell
  · intro cell inRow
    obtain ⟨x, entry, rfl⟩ := List.mem_map.mp inRow
    exact length_le_cellWidth member entry

end Abacus.Display
