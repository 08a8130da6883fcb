import Abacus.Proofs.Reduction

/-!
# Rank, determinant and reduced form

What row reduction finds out about a matrix over a field: its rank, its determinant, and the only
reduced row echelon form with its row space.
-/

namespace Abacus
open Echelon (Table IsReduced rowSpace)

namespace Representation
variable {K : Type} [Field K] (rep : Representation K) {height width size : Nat}

/-- A matrix over the field is reduced to the reduced row echelon form of its table, with its rank. -/
theorem exists_reduce (A : Table K height width) (tall : 0 < height) (wide : 0 < width) :
    ∃ R d, IsReduced R A.rank ∧ (∃ P : Table K height height, IsUnit P ∧ P * A = R) ∧
      (rep.matrix A tall wide).reduce = .ok ⟨rep.matrix R tall wide, A.rank, d⟩ := by
  obtain ⟨R, d, pivots, ascent, executed⟩ := rep.exists_ascent A tall wide
  have rank : A.rank = pivots.length := by
    rw [← ascent.rank_eq, ← Echelon.finrank_rowSpace A, ← Echelon.finrank_rowSpace R,
      ascent.transform.rowSpace_eq]
  rw [← rank] at executed
  refine ⟨R, _, ?_, ascent.transform.exists_unit, executed⟩
  rw [rank]
  exact Echelon.isReduced_iff.mpr ⟨ascent.reduced, ascent.stairs.fits, ascent.row_ne_zero_iff⟩

include rep in
/-- Every table has a reduced row echelon form. -/
theorem exists_reduced (A : Table K height width) :
    ∃ R : Table K height width, R.IsReducedRowEchelon ∧ rowSpace R = rowSpace A := by
  obtain ⟨-, -, pivots, R, d, ascent, -, -⟩ := rep.both_passes A
  exact ⟨R, ascent.reduced, ascent.transform.rowSpace_eq⟩

/-- The form that a matrix is reduced to is the only one with its row space. -/
theorem reduce_form_eq {A R : Table K height width} (reduced : R.IsReducedRowEchelon)
    (same : rowSpace R = rowSpace A) (tall : 0 < height) (wide : 0 < width) :
    ∃ r, (rep.matrix A tall wide).reduce = .ok r ∧ r.form = rep.matrix R tall wide := by
  obtain ⟨S, d, reducedS, ⟨P, unit, product⟩, executed⟩ := rep.exists_reduce A tall wide
  have space : rowSpace S = rowSpace R := by
    rw [← product, Echelon.rowSpace_mul_of_isUnit unit, same]
  obtain rfl : S = R :=
    Echelon.eq_of_rowSpace_eq (Echelon.isReduced_iff.mp reducedS).1 reduced space
  exact ⟨_, executed, rfl⟩

theorem rank_matrix (A : Table K height width) (tall : 0 < height) (wide : 0 < width) :
    (rep.matrix A tall wide).rank = .ok A.rank := by
  obtain ⟨R, d, -, -, executed⟩ := rep.exists_reduce A tall wide
  rw [Matrix.rank, executed]
  rfl

theorem determinant_matrix (A : Table K size size) (tall wide : 0 < size) :
    (rep.matrix A tall wide).determinant = .ok (rep.encode A.det) := by
  obtain ⟨R, d, pivots, ascent, executed⟩ := rep.exists_ascent A tall wide
  rw [Matrix.determinant, executed, ascent.det_eq]
  simp only [and_self, eq_comm]
  rfl

theorem determinant_oblong (A : Table K height width) (oblong : height ≠ width) (tall : 0 < height)
    (wide : 0 < width) : (rep.matrix A tall wide).determinant = .ok (rep.encode 0) := by
  obtain ⟨R, d, pivots, -, executed⟩ := rep.exists_ascent A tall wide
  rw [Matrix.determinant, executed, if_neg fun both => oblong (both.1.trans both.2.symm)]
  rfl

end Representation

/-! ## The determinant -/

/-- The determinant of a square matrix over a field is the signed sum, over all permutations, of the
products of the entries they pick; that of any other matrix is zero. -/
theorem determinant_eq_leibniz (F : GroundField) {a : Matrix} (inField : a.Over F.name) :
    (∀ square : a.height = a.width,
      a.determinant = .ok (F.encode (∑ s : Equiv.Perm (Fin a.height),
        Equiv.Perm.sign s • ∏ i, F.decode (a.get i ((s i).cast square))))) ∧
    (a.height ≠ a.width → a.determinant = .ok (F.encode 0)) := by
  have whole := congrArg Matrix.determinant (F.representation.matrix_table inField)
  constructor
  · intro square
    obtain ⟨height, width, entries, tall, wide⟩ := a
    obtain rfl : height = width := square
    have leibniz := F.representation.determinant_matrix (F.table ⟨height, height, entries, tall, wide⟩)
      tall wide
    rw [← Matrix.det_transpose, Matrix.det_apply] at leibniz
    exact whole.symm.trans leibniz
  · intro oblong
    exact whole.symm.trans (F.representation.determinant_oblong _ oblong _ _)

/-- A matrix over the rationals whose rows have to be exchanged. -/
def Matrix.exchanged : Matrix :=
  GroundField.rationals.matrix !![0, 1; 2, 3] two_pos two_pos

theorem Matrix.exchanged_over : exchanged.Over GroundField.rationals.name :=
  GroundField.rationals.representation.matrix_over _ _ _

theorem determinant_eq_leibniz_exchanged :
    Matrix.exchanged.Over GroundField.rationals.name ∧
      Matrix.exchanged.determinant = .ok (GroundField.rationals.encode (-2)) := by
  have value : ∑ s : Equiv.Perm (Fin 2), Equiv.Perm.sign s •
      ∏ i, GroundField.rationals.decode (Matrix.exchanged.get i (s i)) = -2 := by
    have det := Matrix.det_apply (Matrix.transpose !![(0 : ℚ), 1; 2, 3])
    rw [Matrix.det_transpose, Matrix.det_fin_two_of] at det
    simp only [Matrix.exchanged, GroundField.decode, Representation.matrix_get,
      Representation.decode_encode]
    refine det.symm.trans ?_
    norm_num
  refine ⟨Matrix.exchanged_over, ?_⟩
  refine ((determinant_eq_leibniz .rationals Matrix.exchanged_over).1 rfl).trans ?_
  exact congrArg (Except.ok ∘ GroundField.rationals.encode) value

/-! ## The reduced form -/

/-- Every matrix over a field is reduced to a form with its row space. -/
theorem Matrix.Over.exists_reduce {F : GroundField} {a : Matrix} (inField : a.Over F.name) :
    ∃ R d, IsReduced R (F.table a).rank ∧
      (∃ P : Table F.Element a.height a.height, IsUnit P ∧ P * F.table a = R) ∧
      a.reduce = .ok ⟨F.matrix R a.height_pos a.width_pos, (F.table a).rank, d⟩ := by
  obtain ⟨R, d, reduced, factor, executed⟩ :=
    F.representation.exists_reduce (F.table a) a.height_pos a.width_pos
  have whole := congrArg Matrix.reduce (F.representation.matrix_table inField)
  exact ⟨R, d, reduced, factor, whole.symm.trans executed⟩

/-- Reducing a matrix over a field never fails. The result is in reduced row echelon form, arises from
the matrix by an invertible factor on the left, and comes with the dimension of the row space. -/
theorem reduce_correct (F : GroundField) {a : Matrix} (inField : a.Over F.name) :
    ∃ (R : Table F.Element a.height a.width) (rank : Nat) (determinant : Scalar),
      a.reduce = .ok ⟨F.matrix R a.height_pos a.width_pos, rank, determinant⟩ ∧
      a.rank = .ok rank ∧
      IsReduced R rank ∧
      (∃ P : Table F.Element a.height a.height, IsUnit P ∧ P * F.table a = R) ∧
      rank = Module.finrank F.Element (rowSpace (F.table a)) := by
  obtain ⟨R, d, reduced, factor, executed⟩ := inField.exists_reduce
  refine ⟨R, (F.table a).rank, d, executed, ?_, reduced, factor, ?_⟩
  · rw [Matrix.rank, executed]
    rfl
  · exact (Echelon.finrank_rowSpace _).symm

theorem reduce_correct_exchanged :
    Matrix.exchanged.Over GroundField.rationals.name ∧
      ∃ (R : Table ℚ 2 2) (rank : Nat) (determinant : Scalar),
        Matrix.exchanged.reduce =
          .ok ⟨GroundField.rationals.matrix R two_pos two_pos, rank, determinant⟩ ∧
        IsReduced R rank := by
  obtain ⟨R, rank, d, executed, -, reduced, -⟩ := reduce_correct .rationals Matrix.exchanged_over
  exact ⟨Matrix.exchanged_over, R, rank, d, executed, reduced⟩

/-- Every matrix over a field has its form, which is the reduced one of its row space. -/
theorem Matrix.Over.exists_form {F : GroundField} {a : Matrix} (inField : a.Over F.name) :
    ∃ R r, R.IsReducedRowEchelon ∧ rowSpace R = rowSpace (F.table a) ∧ a.reduce = .ok r ∧
      r.form = F.matrix R a.height_pos a.width_pos := by
  obtain ⟨R, d, reduced, ⟨P, unit, product⟩, executed⟩ := inField.exists_reduce
  refine ⟨R, _, (Echelon.isReduced_iff.mp reduced).1, ?_, executed, rfl⟩
  rw [← product, Echelon.rowSpace_mul_of_isUnit unit]

/-- An invertible factor on the left of a matrix keeps its form. -/
theorem Matrix.Over.exists_form_multiply {F : GroundField} {p a : Matrix} (pOver : p.Over F.name)
    (aOver : a.Over F.name) (square : p.height = p.width) (fits : p.width = a.height)
    (unit : IsUnit ((F.table p).submatrix id (Fin.cast square)))
    {R : Table F.Element a.height a.width} (reduced : R.IsReducedRowEchelon)
    (same : rowSpace R = rowSpace (F.table a)) :
    ∃ product t, p.multiply a = .ok product ∧ product.reduce = .ok t ∧
      t.form = F.matrix R a.height_pos a.width_pos := by
  obtain ⟨m, n, entries, tall, wide⟩ := p
  obtain rfl : n = a.height := fits
  obtain rfl : m = a.height := square
  have product := F.representation.multiply_matrix (F.table ⟨_, _, entries, tall, wide⟩)
    (F.table a) tall wide a.width_pos
  have factors := congr (congrArg Matrix.multiply (F.representation.matrix_table pOver))
    (F.representation.matrix_table aOver)
  have kept : rowSpace R = rowSpace (F.table ⟨_, _, entries, tall, wide⟩ * F.table a) := by
    rw [same]
    exact (Echelon.rowSpace_mul_of_isUnit unit (F.table a)).symm
  obtain ⟨t, executed, form⟩ := F.representation.reduce_form_eq reduced kept tall a.width_pos
  exact ⟨_, t, factors.symm.trans product, executed, form⟩

/-- The reduced form is canonical. Two matrices of one shape have the same one if and only if they have
the same row space; so an invertible factor on the left does not change it, and a matrix that is in
reduced form already is its own. -/
theorem reduce_form_canonical (F : GroundField) {a b : Matrix} (aOver : a.Over F.name)
    (bOver : b.Over F.name) (height : a.height = b.height) (width : a.width = b.width) :
    ∃ r s, a.reduce = .ok r ∧ b.reduce = .ok s ∧
      (r.form = s.form ↔
        rowSpace (F.table a) =
          rowSpace ((F.table b).submatrix (Fin.cast height) (Fin.cast width))) ∧
      (∀ p : Matrix, p.Over F.name → ∀ square : p.height = p.width, p.width = a.height →
        IsUnit ((F.table p).submatrix id (Fin.cast square)) →
        ∃ product t, p.multiply a = .ok product ∧ product.reduce = .ok t ∧ t.form = r.form) ∧
      (∀ rank, IsReduced (F.table a) rank → r.form = a) := by
  obtain ⟨R, r, reducedA, spaceA, executedA, formA⟩ := aOver.exists_form
  obtain ⟨S, s, reducedB, spaceB, executedB, formB⟩ := bOver.exists_form
  refine ⟨r, s, executedA, executedB, ?_, ?_, ?_⟩
  · obtain ⟨m, n, aEntries, tall, wide⟩ := a
    obtain ⟨m', n', bEntries, tall', wide'⟩ := b
    obtain rfl : m = m' := height
    obtain rfl : n = n' := width
    have columns : (F.table ⟨m, n, bEntries, tall', wide'⟩).submatrix (Fin.cast rfl)
        (Fin.cast rfl) = F.table ⟨m, n, bEntries, tall', wide'⟩ := rfl
    rw [columns, ← spaceA, ← spaceB, formA, formB]
    refine (F.representation.matrix_inj tall wide).trans ?_
    constructor
    · rintro rfl
      rfl
    · intro same
      exact Echelon.eq_of_rowSpace_eq reducedA reducedB same
  · intro p pOver square fits unit
    rw [formA]
    exact pOver.exists_form_multiply aOver square fits unit reducedA spaceA
  · intro rank reduced
    obtain rfl : R = F.table a :=
      Echelon.eq_of_rowSpace_eq reducedA (Echelon.isReduced_iff.mp reduced).1 spaceA
    rw [formA]
    exact F.representation.matrix_table aOver

theorem reduce_form_canonical_sheared :
    ∃ r product t, Matrix.exchanged.reduce = .ok r ∧
      (GroundField.rationals.matrix !![1, 1; 0, 1] two_pos two_pos).multiply Matrix.exchanged =
        .ok product ∧
      product.reduce = .ok t ∧ t.form = r.form := by
  have inField := Matrix.exchanged_over
  have shearOver := GroundField.rationals.representation.matrix_over !![1, 1; 0, 1] two_pos two_pos
  have unit : IsUnit !![(1 : ℚ), 1; 0, 1] := by
    rw [Matrix.isUnit_iff_isUnit_det, Matrix.det_fin_two_of]
    norm_num
  rw [← GroundField.rationals.representation.table_matrix !![1, 1; 0, 1] two_pos two_pos] at unit
  obtain ⟨r, s, reduced, -, -, factor, -⟩ := reduce_form_canonical .rationals inField inField rfl rfl
  obtain ⟨product, t, multiplied, again, same⟩ := factor _ shearOver rfl rfl unit
  exact ⟨r, product, t, reduced, multiplied, again, same⟩

end Abacus
