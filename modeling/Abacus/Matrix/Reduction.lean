import Abacus.Matrix.Arithmetic

/-!
# Row reduction

The forward pass goes through the columns: the first row at or below the current one with a
nonzero entry there is swapped up and clears the entries below it. The backward pass goes through
the pivots, the bottom-most first: it scales each pivot to one and clears the entries above it.
Swaps and pivots make up the determinant on the way, which counts only for square matrices of full
rank.
-/

namespace Abacus.Matrix

/-- A row reduction under way. -/
structure Reduction (height width : Nat) where
  work : Vector (Vector Scalar width) height
  determinant : Scalar
  /-- Row and column of every pivot so far, the latest first. -/
  pivots : List (Fin height × Fin width)

/-- What row reduction finds out about a matrix. -/
structure Reduced where
  /-- The reduced row echelon form. -/
  form : Matrix
  rank : Nat
  determinant : Scalar
deriving DecidableEq

namespace Reduction
variable {height width : Nat}

/-- The first row at or below `row` whose entry in `column` is not zero. -/
def pivotRow? (work : Vector (Vector Scalar width) height) (row : Nat) (column : Fin width) :
    Option (Fin height) :=
  (List.finRange height).find? fun i => row ≤ i && !work[i][column].isZero

/-- `target` plus `factor` times `source`, products first. -/
def addMultiple (target source : Vector Scalar width) (factor : Scalar) :
    Except Error (Vector Scalar width) := do
  let products ← Vector.ofFnM fun j : Fin width => source[j].multiply factor
  Vector.ofFnM fun j => target[j].add products[j]

/-- One row below the pivot row `source`, cleared in the pivot's column. -/
def clearBelow (source : Vector Scalar width) (column : Fin width)
    (target : Vector Scalar width) : Except Error (Vector Scalar width) :=
  if target[column].isZero then .ok target
  else do addMultiple target source (← target[column].divide source[column]).negate

/-- One row above the scaled pivot row `source`, cleared in the pivot's column. -/
def clearAbove (source : Vector Scalar width) (column : Fin width)
    (target : Vector Scalar width) : Except Error (Vector Scalar width) :=
  if target[column].isZero then .ok target
  else addMultiple target source target[column].negate

/-- The forward pass at one column. -/
def forward (state : Reduction height width) (column : Fin width) :
    Except Error (Reduction height width) :=
  match pivotRow? state.work state.pivots.length column with
  | none => .ok state
  | some found =>
    if inside : state.pivots.length < height then do
      let row : Fin height := ⟨state.pivots.length, inside⟩
      let work := state.work.swap row found
      let work ← Vector.ofFnM fun i : Fin height =>
        if row < i then clearBelow work[row] column work[i] else .ok work[i]
      return {
        work
        determinant := if found = row then state.determinant else state.determinant.negate
        pivots := (row, column) :: state.pivots }
    else .ok state

/-- The backward pass at one pivot. -/
def backward (state : Reduction height width) (pivot : Fin height × Fin width) :
    Except Error (Reduction height width) := do
  let source := state.work[pivot.1]
  let determinant ← state.determinant.multiply source[pivot.2]
  let inverse ← source[pivot.2].reciprocal
  let scaled ← Vector.ofFnM fun j : Fin width => source[j].multiply inverse
  let work ← Vector.ofFnM fun i : Fin height =>
    if i < pivot.1 then clearAbove scaled pivot.2 state.work[i]
    else .ok (if i = pivot.1 then scaled else state.work[i])
  return { state with work, determinant }

end Reduction

/-- The reduced row echelon form, the rank and the determinant; the determinant of a matrix that
is not square or not of full rank is zero. -/
def reduce (a : Matrix) : Except Error Reduced := do
  let start : Reduction a.height a.width := ⟨a.entries, a.corner.oneLike, []⟩
  let down ← (List.finRange a.width).foldlM Reduction.forward start
  let up ← down.pivots.foldlM Reduction.backward down
  let rank := up.pivots.length
  return {
    form := { a with entries := up.work }
    rank
    determinant :=
      if a.height = rank ∧ a.width = rank then up.determinant else up.determinant.zeroLike }

def rank (a : Matrix) : Except Error Nat :=
  Reduced.rank <$> a.reduce

def determinant (a : Matrix) : Except Error Scalar :=
  Reduced.determinant <$> a.reduce

end Abacus.Matrix
