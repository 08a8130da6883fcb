import Abacus.Proofs.Echelon

/-!
# Elimination

The two passes of row reduction on tables over a field. The forward pass keeps a staircase of
pivots (`Descent`), the backward pass clears the columns of the pivots one by one (`Ascent`), and
both only transform rows, so that the determinant kept on the way stays tied to that of the table
they started from (`RowTransform`).
-/

namespace Echelon
variable {K : Type*} [Field K] {height width : ℕ}

/-! ## Row operations -/

/-- Two rows exchanged. -/
def swapRows (A : Table K height width) (i k : Fin height) : Table K height width :=
  A.submatrix (Equiv.swap i k) id

/-- To every row its own multiple of the row `source` added. -/
def addMultiples (A : Table K height width) (source : Fin height) (factor : Fin height → K) :
    Table K height width :=
  fun i j => A i j + A source j * factor i

/-- One row multiplied by `factor`. -/
def scaleRow (A : Table K height width) (i : Fin height) (factor : K) : Table K height width :=
  A.updateRow i (factor • A i)

/-- The rows below `row` cleared in its pivot's column. -/
def clearBelow (A : Table K height width) (row : Fin height) (column : Fin width) :
    Table K height width :=
  addMultiples A row fun i => if row < i then -(A i column / A row column) else 0

/-- The rows above `row` cleared in the column of its leading one. -/
def clearAbove (A : Table K height width) (row : Fin height) (column : Fin width) :
    Table K height width :=
  addMultiples A row fun i => if i < row then -A i column else 0

omit [Field K] in
theorem swapRows_row (A : Table K height width) (i k m : Fin height) :
    swapRows A i k m = if m = i then A k else if m = k then A i else A m := by
  show A (Equiv.swap i k m) = _
  rw [Equiv.swap_apply_def]
  split
  · rfl
  · split <;> rfl

section Swap
variable {count : ℕ} {row found i : Fin height}

/-- Exchanging two rows leaves those above both. -/
theorem swap_above (rowBelow : count ≤ row.val) (foundBelow : count ≤ found.val) (above : i.val < count) :
    Equiv.swap row found i = i := by
  refine Equiv.swap_apply_of_ne_of_ne ?_ ?_
  · rintro rfl
    omega
  · rintro rfl
    omega

theorem swap_below (rowBelow : count ≤ row.val) (foundBelow : count ≤ found.val) (below : count ≤ i.val) :
    count ≤ (Equiv.swap row found i).val := by
  rw [Equiv.swap_apply_def]
  split
  · exact foundBelow
  · split
    · exact rowBelow
    · exact below

end Swap

/-- `B` arises from `A` by invertible row operations that divide the determinant by `d`. -/
def RowTransform (A : Table K height width) (d : K) (B : Table K height width) : Prop :=
  ∃ P : Table K height height, P * A = B ∧ d * P.det = 1

namespace RowTransform
variable {A B : Table K height width} {d : K}

theorem refl (A : Table K height width) : RowTransform A 1 A :=
  ⟨1, Matrix.one_mul A, by rw [Matrix.det_one, one_mul]⟩

theorem swap (transform : RowTransform A d B) {i k : Fin height} (other : i ≠ k) :
    RowTransform A (-d) (swapRows B i k) := by
  obtain ⟨P, rfl, unit⟩ := transform
  refine ⟨swapRows P i k, ?_, ?_⟩
  · funext m j
    simp only [swapRows, Matrix.mul_apply, Matrix.submatrix_apply, id_eq]
  · rw [swapRows, Matrix.det_permute, Equiv.Perm.sign_swap other]
    simpa using unit

theorem addMultiples (transform : RowTransform A d B) {source : Fin height}
    {factor : Fin height → K} (kept : factor source = 0) :
    RowTransform A d (addMultiples B source factor) := by
  obtain ⟨P, rfl, unit⟩ := transform
  refine ⟨Echelon.addMultiples P source factor, ?_, ?_⟩
  · funext m j
    simp only [Echelon.addMultiples, Matrix.mul_apply, add_mul, Finset.sum_add_distrib,
      Finset.sum_mul]
    refine congrArg _ (Finset.sum_congr rfl fun l _ => ?_)
    rw [mul_right_comm]
  · rw [Matrix.det_eq_of_forall_row_eq_smul_add_const factor source kept fun i j => by
      rw [Echelon.addMultiples, mul_comm (P source j)]]
    exact unit

theorem scale (transform : RowTransform A d B) (i : Fin height) {a : K} (nonzero : a ≠ 0) :
    RowTransform A (d * a) (scaleRow B i a⁻¹) := by
  obtain ⟨P, rfl, unit⟩ := transform
  refine ⟨scaleRow P i a⁻¹, ?_, ?_⟩
  · funext m j
    by_cases here : m = i
    · subst here
      simp only [scaleRow, Matrix.mul_apply, Matrix.updateRow_self, Pi.smul_apply, smul_eq_mul,
        Finset.mul_sum, mul_assoc]
    · simp only [scaleRow, Matrix.mul_apply, Matrix.updateRow_ne here]
  · rw [scaleRow, Matrix.det_updateRow_smul, Matrix.updateRow_eq_self, mul_assoc,
      mul_inv_cancel_left₀ nonzero]
    exact unit

/-- The transformation as one invertible factor. -/
theorem exists_unit (transform : RowTransform A d B) :
    ∃ P : Table K height height, IsUnit P ∧ P * A = B := by
  obtain ⟨P, product, unit⟩ := transform
  exact ⟨P, P.isUnit_iff_isUnit_det.mpr (IsUnit.of_mul_eq_one_right d unit), product⟩

theorem rowSpace_eq (transform : RowTransform A d B) : rowSpace B = rowSpace A := by
  obtain ⟨P, unit, rfl⟩ := transform.exists_unit
  exact rowSpace_mul_of_isUnit unit A

theorem det_eq {A B : Table K height height} (transform : RowTransform A d B) :
    A.det = d * B.det := by
  obtain ⟨P, rfl, unit⟩ := transform
  rw [Matrix.det_mul, ← mul_assoc, unit, one_mul]

end RowTransform

/-! ## The staircase of pivots -/

/-- The pivots stand in the first rows, one in each, and lower ones further to the right. -/
structure Staircase (pivots : List (Fin height × Fin width)) : Prop where
  fits : pivots.length ≤ height
  row_lt : ∀ p ∈ pivots, p.1.val < pivots.length
  covered : ∀ i : Fin height, i.val < pivots.length → ∃ j, (i, j) ∈ pivots
  climbs : ∀ p ∈ pivots, ∀ q ∈ pivots, p.1 < q.1 → p.2 < q.2
  alone : ∀ p ∈ pivots, ∀ q ∈ pivots, p.1 = q.1 → p = q

theorem Staircase.nil : Staircase ([] : List (Fin height × Fin width)) := by
  refine ⟨?_, ?_, ?_, ?_, ?_⟩ <;> simp

/-- A step further down stands in the next row, to the right of all others. -/
theorem Staircase.cons {pivots : List (Fin height × Fin width)} (stairs : Staircase pivots)
    {row : Fin height} {column : Fin width} (next : row.val = pivots.length)
    (right : ∀ p ∈ pivots, p.2 < column) : Staircase ((row, column) :: pivots) := by
  have above : ∀ p ∈ pivots, p.1 < row := fun p member => by
    have := stairs.row_lt p member
    exact Fin.lt_def.mpr (by omega)
  refine ⟨?_, ?_, ?_, ?_, ?_⟩
  · have := row.isLt
    rw [List.length_cons]
    omega
  · intro p member
    rcases List.mem_cons.mp member with rfl | old
    · exact Nat.lt_succ_of_le next.le
    · exact Nat.lt_succ_of_lt (stairs.row_lt p old)
  · intro i inside
    rw [List.length_cons] at inside
    by_cases last : i = row
    · exact ⟨column, by rw [last]; exact List.mem_cons_self⟩
    · have different : i.val ≠ row.val := fun same => last (Fin.ext same)
      obtain ⟨j, member⟩ := stairs.covered i (by omega)
      exact ⟨j, List.mem_cons_of_mem _ member⟩
  · intro p pMember q qMember less
    rcases List.mem_cons.mp pMember with rfl | pOld <;>
      rcases List.mem_cons.mp qMember with rfl | qOld
    · exact absurd less (lt_irrefl _)
    · exact absurd (less.trans (above q qOld)) (lt_irrefl _)
    · exact right p pOld
    · exact stairs.climbs p pOld q qOld less
  · intro p pMember q qMember same
    rcases List.mem_cons.mp pMember with rfl | pOld <;>
      rcases List.mem_cons.mp qMember with rfl | qOld
    · rfl
    · exact absurd same (above q qOld).ne'
    · exact absurd same (above p pOld).ne
    · exact stairs.alone p pOld q qOld same

/-! ## The forward pass -/

/-- The forward pass from `A` in front of `column`: every pivot leads its row, and the other rows are
zero up to the column. -/
structure Descent (A T : Table K height width) (d : K) (pivots : List (Fin height × Fin width))
    (column : ℕ) : Prop where
  transform : RowTransform A d T
  stairs : Staircase pivots
  left : ∀ p ∈ pivots, p.2.val < column
  lead : ∀ p ∈ pivots, T.IsLeadingEntry p.1 p.2
  rest : ∀ i : Fin height, pivots.length ≤ i.val → ∀ j : Fin width, j.val < column → T i j = 0

namespace Descent
variable {A T : Table K height width} {d : K} {pivots : List (Fin height × Fin width)}

theorem start (A : Table K height width) : Descent A A 1 [] 0 := by
  refine ⟨.refl A, .nil, ?_, ?_, ?_⟩ <;> simp

/-- A column without a pivot is passed over. -/
theorem skip {column : Fin width} (descent : Descent A T d pivots column)
    (none : ∀ i : Fin height, pivots.length ≤ i.val → T i column = 0) :
    Descent A T d pivots (column + 1) := by
  refine ⟨descent.transform, descent.stairs, ?_, descent.lead, ?_⟩
  · intro p member
    exact Nat.lt_succ_of_lt (descent.left p member)
  · intro i below j upTo
    rcases Nat.lt_succ_iff_lt_or_eq.mp upTo with before | here
    · exact descent.rest i below j before
    · rw [Fin.ext here]
      exact none i below

/-- Exchanging two rows below the pivots keeps everything but the sign. -/
theorem exchange {column : ℕ} (descent : Descent A T d pivots column) {row found : Fin height}
    (rowBelow : pivots.length ≤ row.val) (foundBelow : pivots.length ≤ found.val) :
    Descent A (swapRows T row found) (if found = row then d else -d) pivots column := by
  refine ⟨?_, descent.stairs, descent.left, ?_, ?_⟩
  · by_cases same : found = row
    · rw [if_pos same, same, swapRows, Equiv.swap_self]
      exact descent.transform
    · rw [if_neg same]
      exact descent.transform.swap (Ne.symm same)
  · intro p member
    have lead := descent.lead p member
    simp only [Matrix.IsLeadingEntry, swapRows, Matrix.submatrix_apply, id_eq,
      swap_above rowBelow foundBelow (descent.stairs.row_lt p member)] at lead ⊢
    exact lead
  · intro i below j before
    exact descent.rest _ (swap_below rowBelow foundBelow below) j before

/-- Clearing a column below its pivot makes the pivot a new step of the staircase. -/
theorem clear {row : Fin height} {column : Fin width} (descent : Descent A T d pivots column)
    (next : row.val = pivots.length) (nonzero : T row column ≠ 0) :
    Descent A (clearBelow T row column) d ((row, column) :: pivots) (column + 1) := by
  have upper : ∀ i : Fin height, i ≤ row → clearBelow T row column i = T i := by
    intro i above
    funext j
    rw [clearBelow, addMultiples, if_neg (not_lt.mpr above), mul_zero, add_zero]
  have rowStart : ∀ j : Fin width, j < column → T row j = 0 := fun j before =>
    descent.rest row next.ge j before
  refine ⟨?_, descent.stairs.cons next descent.left, ?_, ?_, ?_⟩
  · exact descent.transform.addMultiples (if_neg (lt_irrefl row))
  · intro p member
    rcases List.mem_cons.mp member with rfl | old
    · exact Nat.lt_succ_self _
    · exact Nat.lt_succ_of_lt (descent.left p old)
  · intro p member
    rcases List.mem_cons.mp member with rfl | old
    · rw [Matrix.IsLeadingEntry, upper row le_rfl]
      exact ⟨rowStart, nonzero⟩
    · have above := descent.stairs.row_lt p old
      rw [Matrix.IsLeadingEntry, upper p.1 (Fin.le_def.mpr (by omega))]
      exact descent.lead p old
  · intro i below j upTo
    rw [List.length_cons] at below
    have later : row < i := Fin.lt_def.mpr (by omega)
    rw [clearBelow, addMultiples, if_pos later]
    rcases Nat.lt_succ_iff_lt_or_eq.mp upTo with before | here
    · rw [descent.rest i (by omega) j before, rowStart j before, zero_mul, add_zero]
    · rw [Fin.ext here, mul_neg, mul_div_cancel₀ _ nonzero, add_neg_cancel]

end Descent

/-! ## The backward pass -/

/-- A pivot scaled to one, and its column cleared above it. -/
def settle (T : Table K height width) (p : Fin height × Fin width) : Table K height width :=
  clearAbove (scaleRow T p.1 (T p.1 p.2)⁻¹) p.1 p.2

section Settle
variable {T : Table K height width} {p : Fin height × Fin width}

theorem settle_apply (T : Table K height width) (p : Fin height × Fin width) (i : Fin height)
    (j : Fin width) :
    settle T p i j =
      if i = p.1 then (T p.1 p.2)⁻¹ * T p.1 j
      else T i j + (T p.1 p.2)⁻¹ * T p.1 j * if i < p.1 then -T i p.2 else 0 := by
  by_cases here : i = p.1
  · subst here
    simp [settle, clearAbove, addMultiples, scaleRow]
  · simp [settle, clearAbove, addMultiples, scaleRow, here]

/-- Where the pivot's row is zero, nothing changes. -/
theorem settle_of_zero (i : Fin height) {j : Fin width} (zero : T p.1 j = 0) :
    settle T p i j = T i j := by
  rw [settle_apply, zero, mul_zero, zero_mul, add_zero]
  by_cases here : i = p.1
  · rw [if_pos here, here, zero]
  · rw [if_neg here]

theorem settle_below {i : Fin height} (below : p.1 < i) {j : Fin width} :
    settle T p i j = T i j := by
  rw [settle_apply, if_neg below.ne', if_neg (not_lt.mpr below.le), mul_zero, add_zero]

theorem settle_pivot (nonzero : T p.1 p.2 ≠ 0) : settle T p p.1 p.2 = 1 := by
  rw [settle_apply, if_pos rfl, inv_mul_cancel₀ nonzero]

theorem settle_above (nonzero : T p.1 p.2 ≠ 0) {i : Fin height} (above : i < p.1) :
    settle T p i p.2 = 0 := by
  rw [settle_apply, if_neg above.ne, if_pos above, inv_mul_cancel₀ nonzero, one_mul,
    add_neg_cancel]

end Settle

/-- The backward pass from `A` with the pivots in `rest` still to be cleared: every pivot leads its
row, the rows below the pivots are zero, and the columns of the cleared pivots hold a one only. -/
structure Ascent (A T : Table K height width) (d : K) (pivots rest : List (Fin height × Fin width)) :
    Prop where
  transform : RowTransform A d T
  stairs : Staircase pivots
  lead : ∀ p ∈ pivots, T.IsLeadingEntry p.1 p.2
  below : ∀ i : Fin height, pivots.length ≤ i.val → T i = 0
  cleared : ∀ p ∈ pivots, p ∉ rest → T p.1 p.2 = 1 ∧ ∀ i, i ≠ p.1 → T i p.2 = 0

/-- The forward pass ends where the backward pass begins. -/
theorem Descent.turn {A T : Table K height width} {d : K} {pivots : List (Fin height × Fin width)}
    (descent : Descent A T d pivots width) : Ascent A T d pivots pivots := by
  refine ⟨descent.transform, descent.stairs, descent.lead, ?_, ?_⟩
  · intro i below
    funext j
    exact descent.rest i below j j.isLt
  · intro p member absent
    exact absurd member absent

namespace Ascent
variable {A T : Table K height width} {d : K} {pivots rest : List (Fin height × Fin width)}

/-- Rows below a pivot are zero in its column. -/
theorem zero_below (ascent : Ascent A T d pivots rest) {p : Fin height × Fin width}
    (member : p ∈ pivots) {i : Fin height} (lower : p.1 < i) : T i p.2 = 0 := by
  by_cases inside : i.val < pivots.length
  · obtain ⟨j, pivot⟩ := ascent.stairs.covered i inside
    exact (ascent.lead _ pivot).1 p.2 (ascent.stairs.climbs p member _ pivot lower)
  · rw [ascent.below i (not_lt.mp inside), Pi.zero_apply]

/-- Scaling a pivot to one and clearing its column settles that pivot and unsettles none. -/
theorem settle {p : Fin height × Fin width} (ascent : Ascent A T d pivots (p :: rest))
    (member : p ∈ pivots) : Ascent A (settle T p) (d * T p.1 p.2) pivots rest := by
  have nonzero := (ascent.lead p member).2
  refine ⟨?_, ascent.stairs, ?_, ?_, ?_⟩
  · exact (ascent.transform.scale p.1 nonzero).addMultiples (if_neg (lt_irrefl p.1))
  · intro q qMember
    have lead := ascent.lead q qMember
    rcases lt_trichotomy q.1 p.1 with above | here | below
    · have right := ascent.stairs.climbs q qMember p member above
      have zero : ∀ j ≤ q.2, T p.1 j = 0 := fun j upTo =>
        (ascent.lead p member).1 j (lt_of_le_of_lt upTo right)
      refine ⟨fun j before => ?_, ?_⟩
      · rw [settle_of_zero q.1 (zero j before.le)]
        exact lead.1 j before
      · rw [settle_of_zero q.1 (zero q.2 le_rfl)]
        exact lead.2
    · obtain rfl := ascent.stairs.alone q qMember p member here
      refine ⟨fun j before => ?_, ?_⟩
      · rw [settle_of_zero q.1 (lead.1 j before)]
        exact lead.1 j before
      · rw [settle_pivot nonzero]
        exact one_ne_zero
    · rw [Matrix.IsLeadingEntry]
      simp only [settle_below below]
      exact lead
  · intro i below
    have less : p.1 < i := Fin.lt_def.mpr (lt_of_lt_of_le (ascent.stairs.row_lt p member) below)
    funext j
    rw [settle_below less, ascent.below i below]
  · intro q qMember absent
    by_cases same : q = p
    · subst same
      refine ⟨settle_pivot nonzero, fun i other => ?_⟩
      rcases lt_or_gt_of_ne other with above | below
      · exact settle_above nonzero above
      · rw [settle_below below, ascent.zero_below member below]
    · have old : q ∉ p :: rest := fun listed =>
        (List.mem_cons.mp listed).elim same absent
      obtain ⟨settled, column⟩ := ascent.cleared q qMember old
      have different : p.1 ≠ q.1 := fun equal =>
        same (ascent.stairs.alone q qMember p member equal.symm)
      have zero := column p.1 different
      refine ⟨?_, fun i other => ?_⟩
      · rw [settle_of_zero q.1 zero, settled]
      · rw [settle_of_zero i zero, column i other]

/-- Exactly the rows of pivots are not zero. -/
theorem row_ne_zero_iff (ascent : Ascent A T d pivots rest) (i : Fin height) :
    T i ≠ 0 ↔ i.val < pivots.length := by
  constructor
  · intro nonzero
    by_contra outside
    exact nonzero (ascent.below i (not_lt.mp outside))
  · intro inside
    obtain ⟨j, pivot⟩ := ascent.stairs.covered i inside
    exact (ascent.lead _ pivot).row_ne_zero

/-- Every leading entry is a pivot. -/
theorem pivot_of_leading (ascent : Ascent A T d pivots rest) {i : Fin height} {c : Fin width}
    (lead : T.IsLeadingEntry i c) : (i, c) ∈ pivots := by
  obtain ⟨j, pivot⟩ := ascent.stairs.covered i ((ascent.row_ne_zero_iff i).mp lead.row_ne_zero)
  have column : c = j := lead.unique (ascent.lead _ pivot)
  exact column ▸ pivot

/-- Once all pivots are cleared, the table is in reduced row echelon form. -/
theorem reduced (ascent : Ascent A T d pivots []) : T.IsReducedRowEchelon := by
  refine ⟨?_, ?_, ?_⟩
  · intro i k lower j before
    by_cases inside : i.val < pivots.length
    · obtain ⟨c, pivot⟩ := ascent.stairs.covered i inside
      rcases lt_or_ge c j with less | upTo
      · exact absurd (before c less) (ascent.lead _ pivot).2
      · rcases lt_or_eq_of_le upTo with less | same
        · by_cases kInside : k.val < pivots.length
          · obtain ⟨e, kPivot⟩ := ascent.stairs.covered k kInside
            have right := ascent.stairs.climbs _ pivot _ kPivot lower
            exact (ascent.lead _ kPivot).1 j (less.trans right)
          · rw [ascent.below k (not_lt.mp kInside), Pi.zero_apply]
        · rw [same]
          exact ascent.zero_below pivot lower
    · have kOutside : pivots.length ≤ k.val :=
        (not_lt.mp inside).trans (Fin.lt_def.mp lower).le
      rw [ascent.below k kOutside, Pi.zero_apply]
  · intro i c lead
    exact (ascent.cleared _ (ascent.pivot_of_leading lead) List.not_mem_nil).1
  · intro i k c lower lead
    exact (ascent.cleared _ (ascent.pivot_of_leading lead) List.not_mem_nil).2 i lower.ne

theorem rank_eq (ascent : Ascent A T d pivots []) : T.rank = pivots.length :=
  rank_eq_of_nonzero_rows ascent.reduced.isRowEchelon ascent.stairs.fits ascent.row_ne_zero_iff

/-- The determinant kept on the way is that of the first table if that has full rank; otherwise its
determinant is zero. -/
theorem det_eq {A T : Table K height height} {pivots : List (Fin height × Fin height)}
    (ascent : Ascent A T d pivots []) : A.det = if pivots.length = height then d else 0 := by
  rw [ascent.transform.det_eq]
  by_cases full : pivots.length = height
  · rw [if_pos full, eq_one_of_rank_eq ascent.reduced (ascent.rank_eq.trans full), Matrix.det_one,
      mul_one]
  · have fits := ascent.stairs.fits
    have zero : T ⟨pivots.length, by omega⟩ = 0 := ascent.below _ le_rfl
    rw [if_neg full, Matrix.det_eq_zero_of_row_eq_zero _ (congrFun zero), mul_zero]

end Ascent

end Echelon
