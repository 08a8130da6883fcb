import Abacus.Proofs.ReducedForm
import Abacus.Proofs.Rows
import Mathlib.LinearAlgebra.Matrix.ToLin

/-!
# Matrices of integers

A matrix of integers can be taken over the rationals and modulo any prime. Row reduction goes
different ways in the two fields, as an entry can vanish in one and not in the other, but what it
finds out agrees: the determinant modulo the prime is the residue of the rational one, and the rank
modulo the prime is at most the rational one (`determinant_rank_modulo`).
-/

namespace Echelon
variable {height width : ℕ}

/-- A table of rank `r` has suitable factors around it with the identity of size `r` as product. -/
theorem exists_mul_mul_eq_one {K : Type*} [Field K] {A : Table K height width} {r : ℕ}
    (rank : A.rank = r) : ∃ (U : Table K r height) (V : Table K width r), U * A * V = 1 := by
  let range := LinearMap.range A.mulVecLin
  obtain ⟨project, projects⟩ :=
    LinearMap.exists_leftInverse_of_injective range.subtype range.ker_subtype
  obtain ⟨lift, lifts⟩ := LinearMap.exists_rightInverse_of_surjective A.mulVecLin.rangeRestrict
    A.mulVecLin.range_rangeRestrict
  let coordinates := (Module.finBasisOfFinrankEq K range rank).equivFun
  have identity : (coordinates.toLinearMap ∘ₗ project) ∘ₗ A.mulVecLin ∘ₗ
      (lift ∘ₗ coordinates.symm.toLinearMap) = LinearMap.id := by
    refine LinearMap.ext fun v => ?_
    have lifted : A.mulVecLin (lift (coordinates.symm v)) = (coordinates.symm v : range) :=
      congrArg Subtype.val (LinearMap.congr_fun lifts (coordinates.symm v))
    have projected : project (coordinates.symm v : range) = coordinates.symm v :=
      LinearMap.congr_fun projects (coordinates.symm v)
    simp only [LinearMap.comp_apply, LinearEquiv.coe_coe, lifted, projected,
      LinearEquiv.apply_symm_apply, LinearMap.id_apply]
  refine ⟨LinearMap.toMatrix' (coordinates.toLinearMap ∘ₗ project),
    LinearMap.toMatrix' (lift ∘ₗ coordinates.symm.toLinearMap), ?_⟩
  have table : LinearMap.toMatrix' A.mulVecLin = A := by
    rw [← Matrix.toLin'_apply', LinearMap.toMatrix'_toLin']
  have product := congrArg LinearMap.toMatrix' identity
  rwa [LinearMap.toMatrix'_comp, LinearMap.toMatrix'_comp, table, LinearMap.toMatrix'_id,
    ← Matrix.mul_assoc] at product

/-- The table of integers over another ring. -/
def castTable (K : Type*) [Ring K] (N : Table ℤ height width) : Table K height width :=
  N.map (Int.castRingHom K)

theorem castTable_mul (K : Type*) [Ring K] {inner : ℕ} (M : Table ℤ height inner)
    (N : Table ℤ inner width) : castTable K (M * N) = castTable K M * castTable K N :=
  Matrix.map_mul

theorem det_castTable (K : Type*) [CommRing K] (N : Table ℤ height height) :
    (castTable K N).det = (N.det : K) :=
  (RingHom.map_det (Int.castRingHom K) N).symm

/-- Every table of residues is one of integers. -/
theorem exists_castTable (p : ℕ) [NeZero p] (A : Table (ZMod p) height width) :
    ∃ N : Table ℤ height width, castTable (ZMod p) N = A := by
  refine ⟨A.map fun z => (z.val : ℤ), ?_⟩
  ext i j
  simp [castTable]

/-- The rank modulo a prime is at most the rational one. A factorization of the identity modulo the
prime consists of residues of integers, and over the rationals the same integers have a product whose
determinant is not zero. -/
theorem rank_castTable_le (p : ℕ) [Fact p.Prime] (N : Table ℤ height width) :
    (castTable (ZMod p) N).rank ≤ (castTable ℚ N).rank := by
  generalize rank : (castTable (ZMod p) N).rank = r
  obtain ⟨U, V, identity⟩ := exists_mul_mul_eq_one rank
  obtain ⟨M, rfl⟩ := exists_castTable p U
  obtain ⟨L, rfl⟩ := exists_castTable p V
  rw [← castTable_mul, ← castTable_mul] at identity
  have nonzero : (castTable ℚ (M * N * L)).det ≠ 0 := by
    rw [det_castTable, Int.cast_ne_zero]
    intro zero
    have one := congrArg Matrix.det identity
    rw [det_castTable, zero, Int.cast_zero, Matrix.det_one] at one
    exact zero_ne_one one
  calc r = (castTable ℚ (M * N * L)).rank := by
        rw [Matrix.rank_of_det_ne_zero nonzero, Fintype.card_fin]
    _ = (castTable ℚ M * castTable ℚ N * castTable ℚ L).rank := by
        rw [castTable_mul, castTable_mul]
    _ ≤ (castTable ℚ M * castTable ℚ N).rank := Matrix.rank_mul_le_left _ _
    _ ≤ (castTable ℚ N).rank := Matrix.rank_mul_le_right _ _

end Echelon

namespace Abacus
open Echelon (Table castTable)

variable {height width : Nat}

/-- The matrix over a field with the entries that `texts` write. -/
def Matrix.readTexts (field : NumberField) (texts : Fin height → Fin width → List Char) :
    Except Error Matrix := do
  let entries ← tabulate fun i j => Scalar.read field (texts i j)
  ofRows? (entries.toList.map Vector.toList)

theorem Representation.rows_matrix {K : Type} [Field K] (rep : Representation K)
    (A : Table K height width) (tall : 0 < height) (wide : 0 < width) :
    (rep.matrix A tall wide).rows = List.ofFn fun i => List.ofFn fun j => rep.encode (A i j) := by
  simp only [Matrix.rows, rows, row, Vector.toList_ofFn, List.map_ofFn, Function.comp_def]

theorem Representation.readTexts_numerals {K : Type} [Field K] (rep : Representation K)
    {texts : Fin height → Fin width → List Char} {N : Table ℤ height width}
    (numerals : ∀ i j, Numeral (texts i j) (N i j)) (tall : 0 < height) (wide : 0 < width) :
    Matrix.readTexts rep.name texts = .ok (rep.matrix (castTable K N) tall wide) := by
  have entries : Matrix.tabulate (fun i j => Scalar.read rep.name (texts i j)) =
      .ok (rep.rows (castTable K N)) := rep.tabulate_eq fun i j => rep.read (numerals i j)
  rw [Matrix.readTexts, entries]
  exact Matrix.ofRows?_rows (rep.matrix (castTable K N) tall wide)

/-- For a matrix of integers, the determinant over the rationals is an integer and the determinant
modulo a prime is its residue; the rank modulo the prime is at most the rank over the rationals. -/
theorem determinant_rank_modulo (p : Modulus) (tall : 0 < height) (wide : 0 < width)
    {N : Table ℤ height width} {texts : Fin height → Fin width → List Char}
    (numerals : ∀ i j, Numeral (texts i j) (N i j)) :
    ∃ a b : Matrix,
      Matrix.ofRows? (List.ofFn fun i => List.ofFn fun j => .rational (.ofInt (N i j))) = .ok a ∧
      Matrix.readTexts (.residues p.value) texts = .ok b ∧
      (height = width → ∃ x : Rational, a.determinant = .ok (.rational x) ∧
        x.denominator.toNat = 1 ∧
        b.determinant = .ok (.residue p (.ofInt p x.numerator.toInt))) ∧
      ∃ r s, a.rank = .ok r ∧ b.rank = .ok s ∧ s ≤ r := by
  let rational := Rational.representation.matrix (castTable ℚ N) tall wide
  let residual := (Residue.representation p).matrix (castTable (ZMod p.value) N) tall wide
  refine ⟨rational, residual, ?_, ?_, ?_, ?_⟩
  · have listed : (List.ofFn fun i => List.ofFn fun j => Scalar.rational (.ofInt (N i j))) =
        rational.rows := by
      rw [Rational.representation.rows_matrix]
      refine congrArg List.ofFn (funext fun i => congrArg List.ofFn (funext fun j => ?_))
      exact congrArg Scalar.rational (Rational.ofInt_eq (N i j))
    rw [listed, Matrix.ofRows?_rows]
  · exact (Residue.representation p).readTexts_numerals numerals tall wide
  · rintro rfl
    have whole := Rational.representation.determinant_matrix (castTable ℚ N) tall wide
    have modulo := (Residue.representation p).determinant_matrix (castTable (ZMod p.value) N) tall wide
    rw [Echelon.det_castTable] at whole modulo
    refine ⟨.ofRat N.det, whole, ?_, ?_⟩
    · rw [Rational.ofRat, Natural.toNat_ofNat, Rat.den_intCast]
    · rw [Rational.ofRat, Integer.toInt_ofInt, Rat.num_intCast, Residue.ofInt_eq]
      exact modulo
  · exact ⟨_, _, Rational.representation.rank_matrix _ tall wide,
      (Residue.representation p).rank_matrix _ tall wide, Echelon.rank_castTable_le p.value N⟩

/-- The texts of a table with determinant minus seven. -/
def dependentTexts : Fin 2 → Fin 2 → List Char :=
  ![![['1'], ['2']], ![['3'], ['-', '1']]]

theorem numeral_dependentTexts (i j : Fin 2) :
    Numeral (dependentTexts i j) (!![1, 2; 3, -1] i j) := by
  fin_cases i
  · fin_cases j
    · exact .unsigned (isDigits_singleton rfl)
    · exact .unsigned (isDigits_singleton rfl)
  · fin_cases j
    · exact .unsigned (isDigits_singleton rfl)
    · exact .signed (isDigits_singleton rfl)

theorem determinant_rank_modulo_seven :
    ∃ a b : Matrix,
      Matrix.ofRows? [[.rational (.ofInt 1), .rational (.ofInt 2)],
        [.rational (.ofInt 3), .rational (.ofInt (-1))]] = .ok a ∧
      Matrix.readTexts (.residues 7) dependentTexts = .ok b ∧
      (∃ x : Rational, a.determinant = .ok (.rational x) ∧ x.denominator.toNat = 1 ∧
        b.determinant = .ok (.residue .seven (.ofInt .seven x.numerator.toInt))) ∧
      ∃ r s, a.rank = .ok r ∧ b.rank = .ok s ∧ s ≤ r := by
  obtain ⟨a, b, whole, residual, determinants, ranks⟩ :=
    determinant_rank_modulo .seven two_pos two_pos numeral_dependentTexts
  exact ⟨a, b, whole, residual, determinants rfl, ranks⟩

end Abacus
