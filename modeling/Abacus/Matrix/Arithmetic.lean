import Abacus.Matrix.Basic

/-!
# Sums and products of matrices

Entries are combined row by row from the top left; the first two that do not combine end the
operation.
-/

namespace Abacus.Matrix

/-- The table whose entry in row `i` and column `j` is `entry i j`, if all of them exist. -/
def tabulate {height width : Nat} (entry : Fin height → Fin width → Except Error Scalar) :
    Except Error (Vector (Vector Scalar width) height) :=
  Vector.ofFnM fun i => Vector.ofFnM fun j => entry i j

/-- Combines two matrices of one shape entry by entry. -/
def entrywise (verb : String) (operation : Scalar → Scalar → Except Error Scalar) (a b : Matrix) :
    Except Error Matrix :=
  if same : a.height = b.height ∧ a.width = b.width then do
    let entries ← tabulate fun i j =>
      operation (a.get i j) (b.get (i.cast same.1) (j.cast same.2))
    return { a with entries }
  else .error (.unequalShapes verb a.shape b.shape)

def add (a b : Matrix) : Except Error Matrix :=
  entrywise "add" Scalar.add a b

def subtract (a b : Matrix) : Except Error Matrix :=
  entrywise "subtract" Scalar.subtract a b

/-- The sum of numbers, starting from `zero`. -/
def sumFrom (zero : Scalar) (terms : List Scalar) : Except Error Scalar :=
  terms.foldlM Scalar.add zero

/-- The product. Every sum starts from the zero of the field of the left factor. -/
def multiply (a b : Matrix) : Except Error Matrix :=
  if fit : a.width = b.height then do
    let entries ← tabulate fun i j => do
      let terms ← Vector.ofFnM fun k : Fin a.width =>
        (a.get i k).multiply (b.get (k.cast fit) j)
      sumFrom a.corner.zeroLike terms.toList
    return { height := a.height, width := b.width, entries, height_pos := a.height_pos,
             width_pos := b.width_pos }
  else .error (.incompatibleFactors a.shape b.shape)

/-- Every entry times `factor`. -/
def scale (a : Matrix) (factor : Scalar) : Except Error Matrix := do
  let entries ← tabulate fun i j => (a.get i j).multiply factor
  return { a with entries }

/-- The matrix times minus one. -/
def negate (a : Matrix) : Except Error Matrix :=
  a.scale a.corner.oneLike.negate

end Abacus.Matrix
