import Abacus.Proofs.ReducedForm

/-!
# Determinants and ranks of products

Row reduction of two matrices and of their product picks unrelated pivots and exchanges unrelated rows, but
what it finds out agrees: the determinant of the product is the product of the determinants, and its rank is
at most the rank of either factor (`multiply_determinant_rank`).
-/

namespace Abacus
open Echelon (Table)

namespace Representation
variable {K : Type} [Field K] (rep : Representation K) {height inner width size : Nat}

/-- The determinants of two matrices and of their product. -/
theorem determinant_multiply (A B : Table K size size) (tall wide : 0 < size) :
    ∃ d e f, (rep.matrix A tall wide).determinant = .ok d ∧
      (rep.matrix B tall wide).determinant = .ok e ∧ d.multiply e = .ok f ∧
      (rep.matrix (A * B) tall wide).determinant = .ok f := by
  have product := rep.determinant_matrix (A * B) tall wide
  rw [Matrix.det_mul] at product
  exact ⟨_, _, _, rep.determinant_matrix A tall wide, rep.determinant_matrix B tall wide,
    rep.multiply A.det B.det, product⟩

/-- A square table is invertible if the determinant of its matrix is not zero. -/
theorem isUnit_of_determinant {B : Table K size size} {tall wide : 0 < size} {e : Scalar}
    (determined : (rep.matrix B tall wide).determinant = .ok e) (nonzero : e.isZero = false) :
    IsUnit B.det := by
  have same := Except.ok.inj ((rep.determinant_matrix B tall wide).symm.trans determined)
  refine isUnit_iff_ne_zero.mpr fun zero => ?_
  rw [← same, (rep.isZero_iff _).mpr zero] at nonzero
  cases nonzero

end Representation

/-- The product of two square matrices over a field has the product of their determinants for its
determinant. The rank of any product is at most that of the left factor and at most that of the right one,
and it is that of the left factor if the right one is square and its determinant is not zero. -/
theorem multiply_determinant_rank (F : GroundField) {a b : Matrix} (aOver : a.Over F.name)
    (bOver : b.Over F.name) (fit : a.width = b.height) :
    ∃ product, a.multiply b = .ok product ∧
      (a.height = a.width → b.height = b.width →
        ∃ d e f, a.determinant = .ok d ∧ b.determinant = .ok e ∧ d.multiply e = .ok f ∧
          product.determinant = .ok f) ∧
      ∃ r s t, a.rank = .ok r ∧ b.rank = .ok s ∧ product.rank = .ok t ∧ t ≤ r ∧ t ≤ s ∧
        (b.height = b.width → ∀ e, b.determinant = .ok e → e.isZero = false → t = r) := by
  obtain ⟨height, inner, A, tall, deep, rfl⟩ := aOver.exists_table
  obtain ⟨inner', width, B, deep', wide, rfl⟩ := bOver.exists_table
  obtain rfl : inner = inner' := fit
  let rep := F.representation
  refine ⟨_, rep.multiply_matrix A B tall deep wide, ?_, A.rank, B.rank, (A * B).rank,
    rep.rank_matrix A tall deep, rep.rank_matrix B deep wide, rep.rank_matrix (A * B) tall wide,
    Matrix.rank_mul_le_left A B, Matrix.rank_mul_le_right A B, ?_⟩
  · intro aSquare bSquare
    obtain rfl : height = inner := aSquare
    obtain rfl : height = width := bSquare
    exact rep.determinant_multiply A B tall wide
  · intro square e determined nonzero
    obtain rfl : inner = width := square
    exact Matrix.rank_mul_eq_left_of_isUnit_det B A (rep.isUnit_of_determinant determined nonzero)

theorem Matrix.determinant_exchanged :
    exchanged.determinant = .ok (GroundField.rationals.encode (-2)) := by
  have value : Matrix.det !![(0 : ℚ), 1; 2, 3] = -2 := by
    rw [Matrix.det_fin_two_of]
    norm_num
  have determined := Rational.representation.determinant_matrix !![0, 1; 2, 3] two_pos two_pos
  rwa [value] at determined

theorem multiply_determinant_rank_exchanged :
    Matrix.exchanged.Over GroundField.rationals.name ∧
      ∃ product, Matrix.exchanged.multiply Matrix.exchanged = .ok product ∧
        product.determinant = .ok (GroundField.rationals.encode 4) ∧
        product.rank = Matrix.exchanged.rank := by
  have inField := Matrix.exchanged_over
  have determined := Matrix.determinant_exchanged
  obtain ⟨product, multiplied, determinants, r, s, t, rank, -, rankProduct, -, -, full⟩ :=
    multiply_determinant_rank .rationals inField inField rfl
  refine ⟨inField, product, multiplied, ?_, ?_⟩
  · obtain ⟨d, e, f, left, right, combined, value⟩ := determinants rfl rfl
    obtain rfl := Except.ok.inj (left.symm.trans determined)
    obtain rfl := Except.ok.inj (right.symm.trans determined)
    have four : (-2 : ℚ) * -2 = 4 := by norm_num
    have square := Rational.representation.multiply (-2) (-2)
    rw [four] at square
    rw [value]
    exact combined.symm.trans square
  · have nonzero : (GroundField.rationals.encode (-2)).isZero = false := by
      rw [Bool.eq_false_iff]
      exact mt (Rational.representation.isZero_iff (-2)).mp (by norm_num)
    rw [rank, rankProduct, full rfl _ determined nonzero]

end Abacus
