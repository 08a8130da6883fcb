import Abacus.Matrix.Arithmetic
import Abacus.Proofs.Computation
import Abacus.Proofs.Echelon
import Abacus.Proofs.GroundField

/-!
# Matrices as tables over a field

A matrix all of whose entries lie in one field stands for a table over that field, and determines it
and is determined by it. The operations on matrices are those on tables; they fail on unequal shapes
and on nothing else.
-/

namespace Abacus
open Echelon (Table)

/-- All entries lie in the given field. -/
def Matrix.Over (a : Matrix) (field : NumberField) : Prop :=
  ∀ i j, (a.get i j).field = field

namespace Representation
variable {K : Type} [Field K] (rep : Representation K) {height width inner : Nat}

/-- The numbers of one row. -/
def row (v : Fin width → K) : Vector Scalar width :=
  Vector.ofFn fun j => rep.encode (v j)

/-- The numbers of a table, row by row. -/
def rows (A : Table K height width) : Vector (Vector Scalar width) height :=
  Vector.ofFn fun i => rep.row (A i)

/-- The matrix that represents a table. -/
abbrev matrix (A : Table K height width) (tall : 0 < height) (wide : 0 < width) : Matrix :=
  ⟨height, width, rep.rows A, tall, wide⟩

/-- The table that a matrix over the field represents. -/
def table (a : Matrix) : Table K a.height a.width :=
  fun i j => rep.decode (a.get i j)

@[simp] theorem row_get (v : Fin width → K) (j : Fin width) :
    getElem (rep.row v) j j.isLt = rep.encode (v j) := by
  rw [row, Fin.getElem_fin, Vector.getElem_ofFn]

@[simp] theorem rows_get (A : Table K height width) (i : Fin height) :
    getElem (rep.rows A) i i.isLt = rep.row (A i) := by
  rw [rows, Fin.getElem_fin, Vector.getElem_ofFn]

theorem encode_inj {x y : K} : rep.encode x = rep.encode y ↔ x = y := by
  constructor
  · intro same
    rw [← rep.decode_encode x, same, rep.decode_encode]
  · rintro rfl
    rfl

theorem rows_inj {A B : Table K height width} : rep.rows A = rep.rows B ↔ A = B := by
  constructor
  · intro same
    funext i j
    have entry : (rep.rows A)[i][j] = (rep.rows B)[i][j] := by rw [same]
    rw [rows_get, rows_get, row_get, row_get] at entry
    exact rep.encode_inj.mp entry
  · rintro rfl
    rfl

variable {tall : 0 < height} {wide : 0 < width}

@[simp] theorem matrix_get (A : Table K height width) (i : Fin height) (j : Fin width) :
    (rep.matrix A tall wide).get i j = rep.encode (A i j) := by
  show (rep.rows A)[i][j] = _
  rw [rows_get, row_get]

theorem matrix_over (A : Table K height width) (tall : 0 < height) (wide : 0 < width) :
    (rep.matrix A tall wide).Over rep.name := by
  intro i j
  rw [matrix_get, rep.field_encode]

@[simp] theorem table_matrix (A : Table K height width) (tall : 0 < height) (wide : 0 < width) :
    rep.table (rep.matrix A tall wide) = A := by
  funext i j
  rw [table, matrix_get, rep.decode_encode]

/-- A matrix over the field is the one that represents its table. -/
theorem matrix_table {a : Matrix} (inField : a.Over rep.name) :
    rep.matrix (rep.table a) a.height_pos a.width_pos = a := by
  obtain ⟨height, width, entries, tall, wide⟩ := a
  have same : rep.rows (rep.table ⟨height, width, entries, tall, wide⟩) = entries := by
    ext i iInside j jInside
    have entry := rep.encode_decode _ (inField ⟨i, iInside⟩ ⟨j, jInside⟩)
    simpa [rows, row, table, Matrix.get] using entry
  rw [matrix, same]

theorem matrix_inj {A B : Table K height width} (tall : 0 < height) (wide : 0 < width) :
    rep.matrix A tall wide = rep.matrix B tall wide ↔ A = B := by
  constructor
  · intro same
    have entries := eq_of_heq (Matrix.mk.inj same).2.2
    exact rep.rows_inj.mp entries
  · rintro rfl
    rfl

@[simp] theorem corner_zeroLike (A : Table K height width) :
    (rep.matrix A tall wide).corner.zeroLike = rep.encode 0 := by
  rw [Matrix.corner, matrix_get, rep.zeroLike]

@[simp] theorem corner_oneLike (A : Table K height width) :
    (rep.matrix A tall wide).corner.oneLike = rep.encode 1 := by
  rw [Matrix.corner, matrix_get, rep.oneLike]

/-! ## Operations -/

theorem tabulate_eq {entry : Fin height → Fin width → Except Error Scalar} {A : Table K height width}
    (computed : ∀ i j, entry i j = .ok (rep.encode (A i j))) :
    Matrix.tabulate entry = .ok (rep.rows A) :=
  ofFnM_eq_ok fun i => ofFnM_eq_ok (computed i)

theorem entrywise_matrix (verb : String) {operation : Scalar → Scalar → Except Error Scalar}
    {combine : K → K → K}
    (each : ∀ x y, operation (rep.encode x) (rep.encode y) = .ok (rep.encode (combine x y)))
    (A B : Table K height width) :
    Matrix.entrywise verb operation (rep.matrix A tall wide) (rep.matrix B tall wide) =
      .ok (rep.matrix (fun i j => combine (A i j) (B i j)) tall wide) := by
  have entries : Matrix.tabulate (fun i j => operation ((rep.matrix A tall wide).get i j)
      ((rep.matrix B tall wide).get i j)) = .ok (rep.rows fun i j => combine (A i j) (B i j)) := by
    refine rep.tabulate_eq fun i j => ?_
    rw [matrix_get, matrix_get, each]
  rw [Matrix.entrywise, dif_pos ⟨rfl, rfl⟩]
  simp only [Fin.cast_eq_self, entries]
  rfl

theorem add_matrix (A B : Table K height width) :
    (rep.matrix A tall wide).add (rep.matrix B tall wide) = .ok (rep.matrix (A + B) tall wide) :=
  rep.entrywise_matrix "add" rep.add A B

theorem subtract_matrix (A B : Table K height width) :
    (rep.matrix A tall wide).subtract (rep.matrix B tall wide) =
      .ok (rep.matrix (A - B) tall wide) :=
  rep.entrywise_matrix "subtract" rep.subtract A B

theorem scale_matrix (A : Table K height width) (x : K) :
    (rep.matrix A tall wide).scale (rep.encode x) = .ok (rep.matrix (x • A) tall wide) := by
  have entries : Matrix.tabulate (fun i j => ((rep.matrix A tall wide).get i j).multiply
      (rep.encode x)) = .ok (rep.rows (x • A)) := by
    refine rep.tabulate_eq fun i j => ?_
    rw [matrix_get, rep.multiply, mul_comm]
    rfl
  rw [Matrix.scale, entries]
  rfl

theorem negate_matrix (A : Table K height width) :
    (rep.matrix A tall wide).negate = .ok (rep.matrix (-A) tall wide) := by
  rw [Matrix.negate, corner_oneLike, rep.negate, scale_matrix, neg_one_smul]

/-- Summing numbers from a start. -/
theorem sumFrom_encode (start : K) (terms : List K) :
    Matrix.sumFrom (rep.encode start) (terms.map rep.encode) =
      .ok (rep.encode (start + terms.sum)) := by
  induction terms generalizing start with
  | nil =>
    rw [List.sum_nil, add_zero]
    rfl
  | cons x rest ih =>
    rw [List.sum_cons, ← add_assoc, ← ih, List.map_cons, Matrix.sumFrom, List.foldlM_cons, rep.add]
    rfl

theorem multiply_matrix (A : Table K height inner) (B : Table K inner width) (tall : 0 < height)
    (deep : 0 < inner) (wide : 0 < width) :
    (rep.matrix A tall deep).multiply (rep.matrix B deep wide) =
      .ok (rep.matrix (A * B) tall wide) := by
  have entries : Matrix.tabulate (fun i j => do
      let terms ← Vector.ofFnM fun k : Fin inner =>
        ((rep.matrix A tall deep).get i k).multiply ((rep.matrix B deep wide).get k j)
      Matrix.sumFrom (rep.matrix A tall deep).corner.zeroLike terms.toList) =
      .ok (rep.rows (A * B)) := by
    refine rep.tabulate_eq fun i j => ?_
    have terms : Vector.ofFnM (fun k : Fin inner =>
        ((rep.matrix A tall deep).get i k).multiply ((rep.matrix B deep wide).get k j)) =
        .ok (Vector.ofFn fun k => rep.encode (A i k * B k j)) := by
      refine ofFnM_eq_ok fun k => ?_
      rw [matrix_get, matrix_get, rep.multiply]
    have listed : (Vector.ofFn fun k => rep.encode (A i k * B k j)).toList =
        (List.ofFn fun k => A i k * B k j).map rep.encode := by
      rw [Vector.toList_ofFn, List.map_ofFn]
      rfl
    rw [terms]
    show Matrix.sumFrom _ (Vector.ofFn fun k => rep.encode (A i k * B k j)).toList = _
    rw [listed, corner_zeroLike, sumFrom_encode, zero_add, List.sum_ofFn, Matrix.mul_apply]
  rw [Matrix.multiply, dif_pos rfl]
  simp only [Fin.cast_eq_self, entries]
  rfl

end Representation

/-- The matrix over the field that represents a table. -/
abbrev GroundField.matrix (F : GroundField) {height width : Nat} (A : Table F.Element height width)
    (tall : 0 < height) (wide : 0 < width) : Matrix :=
  F.representation.matrix A tall wide

/-- The table that a matrix over the field represents. -/
def GroundField.table (F : GroundField) (a : Matrix) : Table F.Element a.height a.width :=
  F.representation.table a

theorem GroundField.matrix_over (F : GroundField) {height width : Nat} (A : Table F.Element height width)
    (tall : 0 < height) (wide : 0 < width) : (F.matrix A tall wide).Over F.name :=
  F.representation.matrix_over A tall wide

/-- A matrix over the field represents a table. -/
theorem Matrix.Over.exists_table {F : GroundField} {a : Matrix} (inField : a.Over F.name) :
    ∃ (height width : Nat) (A : Table F.Element height width) (tall : 0 < height) (wide : 0 < width),
      a = F.matrix A tall wide :=
  ⟨_, _, F.table a, a.height_pos, a.width_pos, (F.representation.matrix_table inField).symm⟩

/-! ## Shapes that do not fit -/

theorem fails_entrywise {verb : String} {operation : Scalar → Scalar → Except Error Scalar}
    {a b : Matrix} (differ : a.shape ≠ b.shape) : Fails (Matrix.entrywise verb operation a b) := by
  rw [Matrix.entrywise, dif_neg]
  · exact ⟨_, rfl⟩
  · rintro ⟨height, width⟩
    exact differ (Prod.ext height width)

theorem fails_multiply {a b : Matrix} (unfit : a.width ≠ b.height) : Fails (a.multiply b) := by
  rw [Matrix.multiply, dif_neg unfit]
  exact ⟨_, rfl⟩

end Abacus
