import Abacus.Matrix.Reduction
import Abacus.Proofs.Elimination
import Abacus.Proofs.Tables

/-!
# Row reduction of a matrix

On a matrix over one field no step of row reduction fails. The forward pass performs a `Descent` of
the table that the matrix stands for and the backward pass an `Ascent`; what the reduction returns is
read off where the ascent ends (`exists_ascent`).
-/

namespace Abacus.Matrix.Reduction
variable {height width : Nat} {work : Vector (Vector Scalar width) height} {row : Nat}
  {column : Fin width}

/-- Where no pivot is found, the rest of the column is zero. -/
theorem isZero_of_pivotRow? (none : pivotRow? work row column = none) (i : Fin height)
    (below : row ≤ i) : ((work.get i).get column).isZero = true := by
  show work[i][column].isZero = true
  simpa [below] using List.find?_eq_none.mp none i (List.mem_finRange i)

/-- A pivot that is found lies below the earlier ones and is not zero. -/
theorem occupied_of_pivotRow? {found : Fin height} (some : pivotRow? work row column = some found) :
    row ≤ found ∧ ((work.get found).get column).isZero = false := by
  have chosen := List.find?_some some
  rwa [Bool.and_eq_true, decide_eq_true_eq, Bool.not_eq_true'] at chosen

end Abacus.Matrix.Reduction

namespace Abacus.Representation
open Echelon (Table Descent Ascent)
open Abacus.Matrix (Reduction)

variable {K : Type} [Field K] (rep : Representation K) {height width : Nat}

/-- The state of a reduction that has arrived at the table `T`. -/
def reduction (T : Table K height width) (d : K) (pivots : List (Fin height × Fin width)) :
    Reduction height width :=
  ⟨rep.rows T, rep.encode d, pivots⟩

/-! ## Row operations -/

theorem addMultiple_row (target source : Fin width → K) (factor : K) :
    Reduction.addMultiple (rep.row target) (rep.row source) (rep.encode factor) =
      .ok (rep.row fun j => target j + source j * factor) := by
  have products : Vector.ofFnM (fun j : Fin width =>
      (rep.row source)[j].multiply (rep.encode factor)) =
      .ok (rep.row fun j => source j * factor) := by
    refine ofFnM_eq_ok fun j => ?_
    rw [row_get, rep.multiply]
  rw [Reduction.addMultiple, products]
  refine ofFnM_eq_ok fun j => ?_
  rw [row_get, row_get, rep.add]

theorem clearBelow_row (source target : Fin width → K) {column : Fin width}
    (nonzero : source column ≠ 0) :
    Reduction.clearBelow (rep.row source) column (rep.row target) =
      .ok (rep.row fun j => target j + source j * -(target column / source column)) := by
  rw [Reduction.clearBelow, row_get, row_get, rep.divide _ _ nonzero]
  split
  case isTrue clear =>
    rw [(rep.isZero_iff _).mp clear]
    simp
  case isFalse occupied =>
    show Reduction.addMultiple _ _ (rep.encode _).negate = _
    rw [rep.negate, addMultiple_row]

theorem clearAbove_row (source target : Fin width → K) (column : Fin width) :
    Reduction.clearAbove (rep.row source) column (rep.row target) =
      .ok (rep.row fun j => target j + source j * -target column) := by
  rw [Reduction.clearAbove, row_get]
  split
  case isTrue clear =>
    rw [(rep.isZero_iff _).mp clear]
    simp
  case isFalse occupied => rw [rep.negate, addMultiple_row]

theorem swap_rows (T : Table K height width) (i k : Fin height) :
    (rep.rows T).swap i k i.isLt k.isLt = rep.rows (Echelon.swapRows T i k) := by
  have row : ∀ (A : Table K height width) (l : Fin height), (rep.rows A)[l.val] = rep.row (A l) :=
    fun A l => rep.rows_get A l
  refine Vector.ext fun m inside => ?_
  rw [Vector.getElem_swap, row, row, row T ⟨m, inside⟩, row _ ⟨m, inside⟩, Echelon.swapRows_row]
  simp only [Fin.ext_iff]
  split
  · rfl
  · split <;> rfl

/-! ## The forward pass -/

theorem eq_zero_of_pivotRow? {T : Table K height width} {row : Nat} {column : Fin width}
    (none : Reduction.pivotRow? (rep.rows T) row column = none) (i : Fin height) (below : row ≤ i) :
    T i column = 0 := by
  have zero : (rep.rows T)[i][column].isZero = true := Reduction.isZero_of_pivotRow? none i below
  rw [rows_get, row_get] at zero
  exact (rep.isZero_iff _).mp zero

theorem ne_zero_of_pivotRow? {T : Table K height width} {row : Nat} {column : Fin width}
    {found : Fin height} (some : Reduction.pivotRow? (rep.rows T) row column = some found) :
    row ≤ found ∧ T found column ≠ 0 := by
  obtain ⟨below, occupied⟩ : row ≤ found ∧ (rep.rows T)[found][column].isZero = false :=
    Reduction.occupied_of_pivotRow? some
  rw [rows_get, row_get] at occupied
  refine ⟨below, fun zero => ?_⟩
  rw [(rep.isZero_iff _).mpr zero] at occupied
  cases occupied

theorem clearBelow_rows (T : Table K height width) {row : Fin height} {column : Fin width}
    (nonzero : T row column ≠ 0) :
    Vector.ofFnM (fun i : Fin height =>
      if row < i then
        Reduction.clearBelow (getElem (rep.rows T) row row.isLt) column
          (getElem (rep.rows T) i i.isLt)
      else .ok (getElem (rep.rows T) i i.isLt)) =
      .ok (rep.rows (Echelon.clearBelow T row column)) := by
  refine ofFnM_eq_ok fun i => ?_
  rw [rows_get, rows_get]
  by_cases lower : row < i
  · rw [if_pos lower, clearBelow_row rep _ _ nonzero]
    refine congrArg (Except.ok ∘ rep.row) (funext fun j => ?_)
    rw [Echelon.clearBelow, Echelon.addMultiples, if_pos lower]
  · rw [if_neg lower]
    refine congrArg (Except.ok ∘ rep.row) (funext fun j => ?_)
    rw [Echelon.clearBelow, Echelon.addMultiples, if_neg lower, mul_zero, add_zero]

/-- A pivot that is found is swapped up, and the rows below it are cleared. -/
theorem forward_of_pivotRow? {T : Table K height width} {d : K}
    {pivots : List (Fin height × Fin width)} {column : Fin width} {row found : Fin height}
    (next : row.val = pivots.length)
    (some : Reduction.pivotRow? (rep.rows T) pivots.length column = some found) :
    (rep.reduction T d pivots).forward column =
      .ok (rep.reduction (Echelon.clearBelow (Echelon.swapRows T row found) row column)
        (if found = row then d else -d) ((row, column) :: pivots)) := by
  have inside : pivots.length < height := next ▸ row.isLt
  obtain rfl : row = ⟨pivots.length, inside⟩ := Fin.ext next
  have lead : Echelon.swapRows T ⟨pivots.length, inside⟩ found ⟨pivots.length, inside⟩ column ≠ 0 := by
    rw [Echelon.swapRows_row, if_pos rfl]
    exact (rep.ne_zero_of_pivotRow? some).2
  have work := rep.clearBelow_rows _ lead
  rw [← swap_rows] at work
  have sign : (if found = ⟨pivots.length, inside⟩ then rep.encode d else (rep.encode d).negate) =
      rep.encode (if found = ⟨pivots.length, inside⟩ then d else -d) := by
    split
    · rfl
    · exact rep.negate d
  rw [Reduction.forward, reduction]
  split
  case h_1 none => exact absurd (none.symm.trans some) (by simp)
  case h_2 other same =>
    obtain rfl : other = found := Option.some.inj (same.symm.trans some)
    rw [dif_pos inside, reduction, ← sign]
    exact bind_eq_of_ok work _

/-- The forward pass at one column takes a descent across that column. -/
theorem forward_step {A T : Table K height width} {d : K} {pivots : List (Fin height × Fin width)}
    {column : Fin width} (descent : Descent A T d pivots column) :
    ∃ T' d' pivots', (rep.reduction T d pivots).forward column = .ok (rep.reduction T' d' pivots') ∧
      Descent A T' d' pivots' (column + 1) := by
  cases found : Reduction.pivotRow? (rep.rows T) pivots.length column with
  | none =>
    refine ⟨T, d, pivots, ?_, descent.skip fun i => rep.eq_zero_of_pivotRow? found i⟩
    simp only [Reduction.forward, reduction, found]
  | some foundRow =>
    obtain ⟨below, nonzero⟩ := rep.ne_zero_of_pivotRow? found
    have inside : pivots.length < height := lt_of_le_of_lt below foundRow.isLt
    obtain ⟨row, next⟩ : ∃ row : Fin height, row.val = pivots.length := ⟨⟨_, inside⟩, rfl⟩
    have lead : Echelon.swapRows T row foundRow row column ≠ 0 := by
      rw [Echelon.swapRows_row, if_pos rfl]
      exact nonzero
    exact ⟨_, _, _, rep.forward_of_pivotRow? next found,
      (descent.exchange next.ge below).clear next lead⟩

/-- The forward pass over the remaining columns completes a descent. -/
theorem forward_run {A : Table K height width} {columns : List (Fin width)} :
    ∀ {T d pivots start}, Descent A T d pivots start → start ≤ width →
      columns = (List.finRange width).drop start →
      ∃ T' d' pivots', columns.foldlM Reduction.forward (rep.reduction T d pivots) =
        .ok (rep.reduction T' d' pivots') ∧ Descent A T' d' pivots' width := by
  -- The columns still ahead say how far the descent has come.
  induction columns with
  | nil =>
    intro T d pivots start descent upTo ended
    have length := congrArg List.length ended
    rw [List.length_drop, List.length_finRange, List.length_nil] at length
    obtain rfl : start = width := by omega
    exact ⟨T, d, pivots, rfl, descent⟩
  | cons column rest ih =>
    intro T d pivots start descent upTo columns
    have length := congrArg List.length columns
    rw [List.length_drop, List.length_finRange, List.length_cons] at length
    have inside : start < (List.finRange width).length := by
      rw [List.length_finRange]
      omega
    rw [List.drop_eq_getElem_cons inside] at columns
    obtain ⟨first, later⟩ := List.cons.inj columns
    have place : column.val = start := by
      rw [first, List.getElem_finRange, Fin.val_cast]
    rw [← place] at descent later
    obtain ⟨T', d', pivots', step, descended⟩ := rep.forward_step descent
    obtain ⟨U, e, all, run, completed⟩ := ih descended column.isLt later
    refine ⟨U, e, all, ?_, completed⟩
    rw [List.foldlM_cons, step]
    exact run

/-! ## The backward pass -/

theorem clearAbove_rows (T : Table K height width) (row : Fin height) (column : Fin width)
    (factor : K) :
    Vector.ofFnM (fun i : Fin height =>
      if i < row then
        Reduction.clearAbove (rep.row (Echelon.scaleRow T row factor row)) column
          (getElem (rep.rows T) i i.isLt)
      else .ok (if i = row then rep.row (Echelon.scaleRow T row factor row)
        else getElem (rep.rows T) i i.isLt)) =
      .ok (rep.rows (Echelon.clearAbove (Echelon.scaleRow T row factor) row column)) := by
  refine ofFnM_eq_ok fun i => ?_
  rw [rows_get]
  rcases lt_trichotomy i row with above | rfl | below
  · have unscaled : Echelon.scaleRow T row factor i = T i := Matrix.updateRow_ne above.ne
    rw [if_pos above, clearAbove_row]
    refine congrArg (Except.ok ∘ rep.row) (funext fun j => ?_)
    rw [Echelon.clearAbove, Echelon.addMultiples, if_pos above, unscaled]
  · rw [if_neg (lt_irrefl i), if_pos rfl]
    refine congrArg (Except.ok ∘ rep.row) (funext fun j => ?_)
    rw [Echelon.clearAbove, Echelon.addMultiples, if_neg (lt_irrefl i), mul_zero, add_zero]
  · have unscaled : Echelon.scaleRow T row factor i = T i := Matrix.updateRow_ne below.ne'
    rw [if_neg below.asymm, if_neg below.ne']
    refine congrArg (Except.ok ∘ rep.row) (funext fun j => ?_)
    rw [Echelon.clearAbove, Echelon.addMultiples, if_neg below.asymm, unscaled, mul_zero, add_zero]

/-- The backward pass at one pivot settles that pivot. -/
theorem backward_step {A T : Table K height width} {d : K}
    {pivots rest : List (Fin height × Fin width)} {p : Fin height × Fin width}
    (ascent : Ascent A T d pivots (p :: rest)) (member : p ∈ pivots) :
    ∃ T' d', (rep.reduction T d pivots).backward p = .ok (rep.reduction T' d' pivots) ∧
      Ascent A T' d' pivots rest := by
  refine ⟨_, _, ?_, ascent.settle member⟩
  have nonzero := (ascent.lead p member).2
  have determinant : (rep.encode d).multiply (rep.rows T)[p.1][p.2] =
      .ok (rep.encode (d * T p.1 p.2)) := by
    rw [rows_get, row_get, rep.multiply]
  have inverse : (rep.rows T)[p.1][p.2].reciprocal = .ok (rep.encode (T p.1 p.2)⁻¹) := by
    rw [rows_get, row_get, rep.reciprocal _ nonzero]
  have scaled : Vector.ofFnM (fun j : Fin width =>
      (rep.rows T)[p.1][j].multiply (rep.encode (T p.1 p.2)⁻¹)) =
      .ok (rep.row (Echelon.scaleRow T p.1 (T p.1 p.2)⁻¹ p.1)) := by
    refine ofFnM_eq_ok fun j => ?_
    rw [rows_get, row_get, rep.multiply, Echelon.scaleRow, Matrix.updateRow_self, Pi.smul_apply,
      smul_eq_mul, mul_comm]
  refine (bind_eq_of_ok determinant _).trans ?_
  refine (bind_eq_of_ok inverse _).trans ?_
  refine (bind_eq_of_ok scaled _).trans ?_
  exact bind_eq_of_ok (rep.clearAbove_rows T p.1 p.2 _) _

/-- The backward pass over the remaining pivots completes an ascent. -/
theorem backward_run {A : Table K height width} {pivots rest : List (Fin height × Fin width)}
    (members : ∀ p ∈ rest, p ∈ pivots) :
    ∀ {T d}, Ascent A T d pivots rest →
      ∃ R e, rest.foldlM Reduction.backward (rep.reduction T d pivots) =
        .ok (rep.reduction R e pivots) ∧ Ascent A R e pivots [] := by
  induction rest with
  | nil =>
    intro T d ascent
    exact ⟨T, d, rfl, ascent⟩
  | cons p rest ih =>
    intro T d ascent
    obtain ⟨T', d', step, next⟩ := rep.backward_step ascent (members p List.mem_cons_self)
    obtain ⟨R, e, run, completed⟩ :=
      ih (fun q later => members q (List.mem_cons_of_mem p later)) next
    refine ⟨R, e, ?_, completed⟩
    rw [List.foldlM_cons, step]
    exact run

/-! ## The reduction as a whole -/

/-- Both passes run through on every table, and together they make up an ascent. -/
theorem both_passes (A : Table K height width) :
    ∃ T d pivots R e, Ascent A R e pivots [] ∧
      (List.finRange width).foldlM Reduction.forward (rep.reduction A 1 []) =
        .ok (rep.reduction T d pivots) ∧
      pivots.foldlM Reduction.backward (rep.reduction T d pivots) =
        .ok (rep.reduction R e pivots) := by
  obtain ⟨T, d, pivots, down, descent⟩ :=
    rep.forward_run (Descent.start A) (Nat.zero_le width) rfl
  obtain ⟨R, e, up, ascent⟩ := rep.backward_run (fun p member => member) descent.turn
  exact ⟨T, d, pivots, R, e, ascent, down, up⟩

/-- A matrix over the field is always reduced: to the table in which an ascent from its own table
ends, with the pivots counted and the determinant kept on the way. -/
theorem exists_ascent (A : Table K height width) (tall : 0 < height) (wide : 0 < width) :
    ∃ R d pivots, Ascent A R d pivots [] ∧
      (rep.matrix A tall wide).reduce =
        .ok ⟨rep.matrix R tall wide, pivots.length,
          rep.encode (if height = pivots.length ∧ width = pivots.length then d else 0)⟩ := by
  obtain ⟨T, d, pivots, R, e, ascent, down, up⟩ := rep.both_passes A
  refine ⟨R, e, pivots, ascent, ?_⟩
  have start : (⟨rep.rows A, (rep.matrix A tall wide).corner.oneLike, []⟩ : Reduction height width) =
      rep.reduction A 1 [] := by
    rw [corner_oneLike]
    rfl
  rw [← start] at down
  refine (bind_eq_of_ok down _).trans ((bind_eq_of_ok up _).trans ?_)
  have counted : (if height = pivots.length ∧ width = pivots.length then rep.encode e
      else (rep.encode e).zeroLike) =
      rep.encode (if height = pivots.length ∧ width = pivots.length then e else 0) := by
    rw [rep.zeroLike]
    split <;> rfl
  rw [← counted]
  rfl

end Abacus.Representation
