import Abacus.Scalar

/-!
# Matrices

A matrix is a table of numbers with at least one row and one column. Its entries are meant to lie
in one field; where they do not, the operation that combines two of them reports it.
-/

namespace Abacus

/-- A table of numbers, row by row. -/
structure Matrix where
  height : Nat
  width : Nat
  entries : Vector (Vector Scalar width) height
  height_pos : 0 < height
  width_pos : 0 < width
deriving DecidableEq

namespace Matrix

/-- Height and width. -/
def shape (a : Matrix) : Nat × Nat :=
  (a.height, a.width)

/-- The rows from top to bottom. -/
def rows (a : Matrix) : List (List Scalar) :=
  a.entries.toList.map Vector.toList

/-- The entry in row `i` and column `j`. -/
def get (a : Matrix) (i : Fin a.height) (j : Fin a.width) : Scalar :=
  a.entries[i][j]

/-- The entry in the top left corner. -/
def corner (a : Matrix) : Scalar :=
  a.get ⟨0, a.height_pos⟩ ⟨0, a.width_pos⟩

/-- The matrix with the given rows. There must be at least one row and one column, and all rows
must be as long as the first. -/
def ofRows? (rows : List (List Scalar)) : Except Error Matrix :=
  let width := (rows.headD []).length
  if empty : width = 0 then .error .emptyMatrix
  else
    match uneven : rows.findIdx? fun row => row.length != width with
    | some index => .error (.rowLength (index + 1) (rows.getD index []).length width)
    | none =>
      .ok
        { height := rows.length
          width
          entries := .ofFn fun i =>
            ⟨rows[i].toArray, by
              have even := List.findIdx?_eq_none_iff.mp uneven rows[i] (List.getElem_mem _)
              simpa using even⟩
          height_pos := by
            cases rows with
            | nil => exact absurd rfl empty
            | cons row rest => simp
          width_pos := Nat.pos_of_ne_zero empty }

/-- The matrix with the given entries, row by row, of an array with the given dimensions. Only an
array of two dimensions makes a matrix. -/
def ofArray? (dimensions : List Nat) (entries : List Scalar) : Except Error Matrix :=
  match dimensions with
  | [height, width] =>
    ofRows? ((List.range height).map fun i => (entries.drop (i * width)).take width)
  | _ => .error (.notATable dimensions.length)

/-- The place that `index` names among `size` places; a negative index counts from the end. -/
def place? (size : Nat) (index : Int) : Option (Fin size) :=
  let counted := if index < 0 then index + size else index
  if inside : 0 ≤ counted ∧ counted < size then some ⟨counted.toNat, by omega⟩ else none

/-- The entry in the given row and column, negative indices counted from the end. -/
def entry? (a : Matrix) (row column : Int) : Option Scalar := do
  let i ← place? a.height row
  let j ← place? a.width column
  return a.get i j

/-- The matrix with one entry replaced. -/
def replace? (a : Matrix) (row column : Int) (x : Scalar) : Option Matrix := do
  let i ← place? a.height row
  let j ← place? a.width column
  return { a with entries := a.entries.set i (a.entries[i].set j x) }

/-- Rows on lines of their own, entries separated by spaces. -/
def text (a : Matrix) : String :=
  "\n".intercalate (a.rows.map fun row => " ".intercalate (row.map Scalar.text))

end Matrix

end Abacus
