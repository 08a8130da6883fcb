import Abacus.Matrix.Basic

/-!
# Values and how results show them

A value is a number or a matrix. A number is shown after a label; a matrix is shown below it, in a
box with its cells aligned to the left in columns as wide as the widest cell.
-/

namespace Abacus

/-- What a variable holds and an expression evaluates to. -/
inductive Value where
  | scalar (x : Scalar)
  | matrix (a : Matrix)
deriving DecidableEq

/-- The type of a value; the field of a matrix is that of its corner. -/
def Value.type : Value → ValueType
  | scalar x => .scalar x.field
  | matrix a => .matrix a.corner.field

namespace Display

/-- The word that every result begins with. -/
def label : String := "RESULT:"

/-- A number on the line of the label. -/
def scalar (x : Scalar) : String :=
  label ++ " " ++ x.text

def spaces (count : Nat) : List Char :=
  List.replicate count ' '

/-- A cell with spaces up to the given width. -/
def padded (width : Nat) (cell : String) : List Char :=
  cell.toList ++ spaces (width - cell.length)

def cells (a : Matrix) : List (List String) :=
  a.rows.map fun row => row.map Scalar.text

/-- The length of the longest cell. -/
def cellWidth (a : Matrix) : Nat :=
  (cells a).flatten.foldl (fun longest cell => max longest cell.length) 0

/-- The top or bottom of the box. -/
def edge (left right : Char) (a : Matrix) : String :=
  String.ofList (left :: spaces ((cellWidth a + 1) * a.width + 1) ++ [right])

/-- One row between the sides of the box. -/
def boxRow (width : Nat) (row : List String) : String :=
  String.ofList ('│' :: ' ' :: row.flatMap (padded (width + 1)) ++ ['│'])

/-- The lines of a matrix: the label, the top, the rows and the bottom. -/
def matrixLines (a : Matrix) : List String :=
  label :: edge '╭' '╮' a :: (cells a).map (boxRow (cellWidth a)) ++ [edge '╰' '╯' a]

/-- A matrix in its box. -/
def matrix (a : Matrix) : String :=
  "\n".intercalate (matrixLines a)

/-- A value as the result of an evaluation. -/
def value : Value → String
  | .scalar x => scalar x
  | .matrix a => matrix a

end Display

end Abacus
