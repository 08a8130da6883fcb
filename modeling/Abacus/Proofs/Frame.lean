import Abacus.Proofs.Layout
import Mathlib.Order.Bounds.Defs

/-!
# The frame of a shown matrix

All lines of the box are equally long, for its edges are as wide as its rows of padded cells. In a row each
cell has a field of one character more than the longest cell, so the place of every character follows from
its field and its place in the field (`getElem?_flatMap_of_length`, `getElem?_boxRow`): the texts stand at
the beginnings of the fields and spaces everywhere else (`framed_boxRow`, `matrix_framed`).
-/

namespace Abacus

/-! ## Fields of equal length -/

section Fields
variable {α β : Type} {field : α → List β} {list : List α} {size : Nat}

theorem length_flatMap_of_length (each : ∀ x ∈ list, (field x).length = size) :
    (list.flatMap field).length = list.length * size := by
  induction list with
  | nil => rw [List.flatMap_nil, List.length_nil, List.length_nil, Nat.zero_mul]
  | cons x rest ih =>
    obtain ⟨first, others⟩ := List.forall_mem_cons.mp each
    rw [List.flatMap_cons, List.length_append, first, ih others, List.length_cons, Nat.succ_mul,
      Nat.add_comm]

/-- What stands at a place of one of the fields. -/
theorem getElem?_flatMap_of_length (each : ∀ x ∈ list, (field x).length = size) {place : Nat}
    (inside : place < size) (index : Nat) :
    (list.flatMap field)[index * size + place]? = list[index]?.bind fun x => (field x)[place]? := by
  induction list generalizing index with
  | nil => rfl
  | cons x rest ih =>
    obtain ⟨first, others⟩ := List.forall_mem_cons.mp each
    rw [List.flatMap_cons]
    cases index with
    | zero =>
      rw [Nat.zero_mul, Nat.zero_add, List.getElem?_append_left (by omega)]
      rfl
    | succ index =>
      have behind : (index + 1) * size + place = (field x).length + (index * size + place) := by
        rw [first, Nat.succ_mul]
        omega
      rw [behind, List.getElem?_append_right (Nat.le_add_right _ _), Nat.add_sub_cancel_left, ih others]
      rfl

end Fields

namespace Matrix

theorem rows_eq_ofFn (a : Matrix) : a.rows = List.ofFn fun i => List.ofFn fun j => a.get i j := by
  refine List.ext_getElem (by simp [rows]) fun i inside _ => ?_
  refine List.ext_getElem (by simp [rows]) fun j within _ => ?_
  simp [rows, get]

end Matrix

namespace Display

/-- The lines of what is shown. -/
def lines (shown : String) : List (List Char) :=
  shown.toList.splitOn '\n'

/-- The offset of a cell in its line: behind the side, a space and the fields of the cells before it. -/
def offset (width index : Nat) : Nat :=
  2 + index * (width + 1)

/-- Between two bars the row consists of the texts and of spaces. Each text stands at its offset, between two
spaces, and the texts are the cells of what is between the bars. -/
structure Framed (width : Nat) (texts : List String) (row : List Char) : Prop where
  left : row.head? = some '│'
  right : row.getLast? = some '│'
  text : ∀ j text, texts[j]? = some text → (row.drop (offset width j)).take text.length = text.toList
  space : ∀ k, 0 < k → k + 1 < row.length →
    (∀ j text, texts[j]? = some text → k < offset width j ∨ offset width j + text.length ≤ k) →
    row[k]? = some ' '
  apart : ∀ j text, texts[j]? = some text →
    row[offset width j - 1]? = some ' ' ∧ row[offset width j + text.length]? = some ' '
  cells : Text.splitCells (inner row) = texts.map String.toList

/-! ## The longest cell -/

theorem longest_eq_or_mem (texts : List String) (start : Nat) :
    texts.foldl (fun longest cell => max longest cell.length) start = start ∨
      ∃ text ∈ texts, text.length = texts.foldl (fun longest cell => max longest cell.length) start := by
  induction texts generalizing start with
  | nil => exact .inl rfl
  | cons first rest ih =>
    rw [List.foldl_cons]
    rcases ih (max start first.length) with kept | ⟨text, member, longest⟩
    · rw [kept]
      rcases max_choice start first.length with same | larger
      · exact .inl same
      · exact .inr ⟨first, List.mem_cons_self, larger.symm⟩
    · exact .inr ⟨text, List.mem_cons_of_mem first member, longest⟩

theorem mem_cells_iff {a : Matrix} {text : String} :
    text ∈ (cells a).flatten ↔ ∃ i j, (a.get i j).text = text := by
  simp [cells, Matrix.rows_eq_ofFn, List.mem_ofFn]

theorem isGreatest_cellWidth (a : Matrix) :
    IsGreatest {n | ∃ i j, (a.get i j).text.length = n} (cellWidth a) := by
  have bound : ∀ i j, (a.get i j).text.length ≤ cellWidth a := fun i j =>
    length_le_longest (mem_cells_iff.mpr ⟨i, j, rfl⟩) 0
  refine ⟨?_, fun n ⟨i, j, length⟩ => length ▸ bound i j⟩
  rcases longest_eq_or_mem (cells a).flatten 0 with zero | ⟨text, member, longest⟩
  · -- Then all cells are as long as the longest, of which there is at least one.
    have width : cellWidth a = 0 := zero
    have corner := bound ⟨0, a.height_pos⟩ ⟨0, a.width_pos⟩
    rw [width] at corner ⊢
    exact ⟨_, _, Nat.le_zero.mp corner⟩
  · obtain ⟨i, j, rfl⟩ := mem_cells_iff.mp member
    exact ⟨i, j, longest⟩

/-! ## Rows of the box -/

section Rows
variable {width place : Nat} {text : String} {texts : List String}

theorem length_padded (fit : text.length ≤ width) : (padded width text).length = width := by
  rw [padded, List.length_append, String.length_toList, spaces, List.length_replicate]
  omega

theorem getElem?_padded (inside : place < width) :
    (padded width text)[place]? = some (text.toList[place]?.getD ' ') := by
  rw [padded]
  by_cases within : place < text.toList.length
  · rw [List.getElem?_append_left within, List.getElem?_eq_getElem within]
    rfl
  · rw [List.getElem?_append_right (Nat.le_of_not_lt within), List.getElem?_eq_none (Nat.le_of_not_lt within)]
    rw [String.length_toList] at within ⊢
    exact List.getElem?_replicate_of_lt (by omega)

theorem toList_boxRow (width : Nat) (texts : List String) :
    (boxRow width texts).toList = '│' :: ' ' :: (texts.flatMap (padded (width + 1)) ++ ['│']) := by
  rw [boxRow, String.toList_ofList, List.cons_append, List.cons_append]

/-- Behind the first space, every place between the bars is one of a field. -/
theorem exists_offset {count k : Nat} (behind : 2 ≤ k) (before : k + 1 < 3 + count * (width + 1)) :
    ∃ j place, j < count ∧ place < width + 1 ∧ k = offset width j + place := by
  refine ⟨(k - 2) / (width + 1), (k - 2) % (width + 1), Nat.div_lt_of_lt_mul ?_,
    Nat.mod_lt _ (Nat.succ_pos width), ?_⟩
  · rw [Nat.mul_comm]
    omega
  · have split := Nat.div_add_mod' (k - 2) (width + 1)
    rw [offset]
    omega

variable (fit : ∀ text ∈ texts, text.length ≤ width)
include fit

theorem length_padded_of_mem (member : text ∈ texts) : (padded (width + 1) text).length = width + 1 :=
  length_padded (Nat.le_succ_of_le (fit text member))

theorem length_boxRow : (boxRow width texts).toList.length = 3 + texts.length * (width + 1) := by
  rw [toList_boxRow, List.length_cons, List.length_cons, List.length_append, List.length_singleton,
    length_flatMap_of_length fun text => length_padded_of_mem fit]
  omega

/-- The characters of a field: those of the text, and then spaces. -/
theorem getElem?_boxRow {j : Nat} (cell : texts[j]? = some text) (inside : place < width + 1) :
    (boxRow width texts).toList[offset width j + place]? = some (text.toList[place]?.getD ' ') := by
  have index : offset width j + place = j * (width + 1) + place + 1 + 1 := by
    rw [offset]
    omega
  have here := getElem?_flatMap_of_length (fun text => length_padded_of_mem fit) inside j
  rw [cell, Option.bind_some, getElem?_padded inside] at here
  rw [toList_boxRow, index, List.getElem?_cons_succ, List.getElem?_cons_succ,
    List.getElem?_append_left (List.getElem?_eq_some_iff.mp here).1, here]

/-- Behind the text of a cell, its field is filled with spaces. -/
theorem getElem?_boxRow_of_le {j : Nat} (cell : texts[j]? = some text) (inside : place < width + 1)
    (behind : text.length ≤ place) : (boxRow width texts).toList[offset width j + place]? = some ' ' := by
  rw [getElem?_boxRow fit cell inside, List.getElem?_eq_none (by rwa [String.length_toList]), Option.getD_none]

/-- The text of a cell stands at the beginning of its field. -/
theorem take_boxRow {j : Nat} (cell : texts[j]? = some text) :
    ((boxRow width texts).toList.drop (offset width j)).take text.length = text.toList := by
  have short : text.length ≤ width := fit text (List.mem_of_getElem? cell)
  refine List.ext_getElem? fun place => ?_
  by_cases inside : place < text.length
  · have within : place < text.toList.length := by rwa [String.length_toList]
    rw [List.getElem?_take_of_lt inside, List.getElem?_drop,
      getElem?_boxRow fit cell (by omega), List.getElem?_eq_getElem within]
    rfl
  · have beyond : text.toList.length ≤ place := by
      rw [String.length_toList]
      omega
    rw [List.getElem?_take_eq_none (Nat.le_of_not_lt inside), List.getElem?_eq_none beyond]

theorem framed_boxRow (whole : ∀ text ∈ texts, IsCell text.toList) :
    Framed width texts (boxRow width texts).toList where
  left := by rw [toList_boxRow, List.head?_cons]
  right := by rw [toList_boxRow, ← List.cons_append, ← List.cons_append, List.getLast?_concat]
  text := fun j text => take_boxRow fit
  space := by
    intro k behind before outside
    rw [length_boxRow fit] at before
    by_cases first : k = 1
    · rw [first, toList_boxRow]
      rfl
    · -- The character stands in a field, but behind the text of its cell.
      obtain ⟨j, place, field, inside, rfl⟩ := exists_offset (by omega) before
      have cell := List.getElem?_eq_getElem field
      have apart := outside j _ cell
      exact getElem?_boxRow_of_le fit cell inside (by omega)
  apart := by
    intro j text cell
    have short : text.length ≤ width := fit text (List.mem_of_getElem? cell)
    refine ⟨?_, getElem?_boxRow_of_le fit cell (by omega) le_rfl⟩
    cases j with
    | zero =>
      rw [toList_boxRow, offset, Nat.zero_mul]
      rfl
    | succ j =>
      -- The last character of a field is a space, since no text fills its field.
      have earlier : j < texts.length := Nat.lt_of_succ_lt (List.getElem?_eq_some_iff.mp cell).1
      have previous := List.getElem?_eq_getElem earlier
      have index : offset width (j + 1) - 1 = offset width j + width := by
        rw [offset, offset, Nat.succ_mul]
        omega
      rw [index]
      exact getElem?_boxRow_of_le fit previous (Nat.lt_succ_self width) (fit _ (List.getElem_mem earlier))
  cells := splitCells_inner whole fit

end Rows

theorem length_edge (left right : Char) (a : Matrix) :
    (edge left right a).toList.length = 3 + a.width * (cellWidth a + 1) := by
  rw [edge, String.toList_ofList, List.length_append, List.length_cons, spaces, List.length_replicate,
    List.length_singleton, Nat.mul_comm]
  omega

/-- The texts of a row of a matrix. -/
def rowTexts (a : Matrix) (i : Fin a.height) : List String :=
  List.ofFn fun j => (a.get i j).text

theorem cells_eq_ofFn (a : Matrix) : cells a = List.ofFn (rowTexts a) := by
  simp only [cells, Matrix.rows_eq_ofFn, List.map_ofFn, Function.comp_def]
  rfl

theorem length_le_of_mem_rowTexts {a : Matrix} {i : Fin a.height} {text : String}
    (member : text ∈ rowTexts a i) : text.length ≤ cellWidth a := by
  obtain ⟨j, rfl⟩ := List.mem_ofFn.mp member
  exact (isGreatest_cellWidth a).2 ⟨i, j, rfl⟩

theorem framed_rowTexts (a : Matrix) (i : Fin a.height) :
    Framed (cellWidth a) (rowTexts a i) (boxRow (cellWidth a) (rowTexts a i)).toList := by
  refine framed_boxRow (fun text => length_le_of_mem_rowTexts) fun text member => ?_
  obtain ⟨j, rfl⟩ := List.mem_ofFn.mp member
  exact (a.get i j).isNumberText.isCell

/-- A matrix is shown on three lines more than it has rows. All but the first, which is the label, are as long
as the fields of their cells, each a character longer than the longest text, and three characters more. On the
line of a row the texts stand at the beginnings of their fields between bars, with spaces everywhere else, and
they are the cells that the line is split into. -/
theorem matrix_framed (a : Matrix) :
    ∃ width, IsGreatest {n | ∃ i j, (a.get i j).text.length = n} width ∧
      (lines (matrix a)).length = a.height + 3 ∧
      (lines (matrix a)).head? = some "RESULT:".toList ∧
      (∀ line ∈ (lines (matrix a)).tail, line.length = 3 + a.width * (width + 1)) ∧
      ∀ i : Fin a.height, ∃ row, (lines (matrix a))[i.val + 2]? = some row ∧
        Framed width (rowTexts a i) row := by
  have shown : lines (matrix a) = (matrixLines a).map String.toList := splitOn_matrix a
  rw [shown, matrixLines, cells_eq_ofFn, List.map_ofFn]
  refine ⟨cellWidth a, isGreatest_cellWidth a, ?_, rfl, ?_, fun i => ?_⟩
  · simp
  · intro line member
    simp only [List.cons_append, List.map_cons, List.tail_cons, List.map_append, List.map_ofFn, List.map_nil,
      List.mem_cons, List.mem_append, List.mem_ofFn, List.not_mem_nil, or_false] at member
    rcases member with rfl | ⟨i, rfl⟩ | rfl
    · exact length_edge _ _ a
    · have row := length_boxRow fun text => length_le_of_mem_rowTexts (a := a) (i := i)
      rwa [rowTexts, List.length_ofFn] at row
    · exact length_edge _ _ a
  · refine ⟨_, ?_, framed_rowTexts a i⟩
    simp

end Display

end Abacus
