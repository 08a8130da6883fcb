import Abacus.Proofs.Reduction

/-!
# Rows of residues

The residues of a row may have different moduli. Clearing a column of one row with another looks at them
only where there is something to clear (`Clears`).
-/

namespace Abacus
open Abacus.Matrix (Reduction)

/-! ## Numbers and rows -/

/-- The number is a residue of some modulus. -/
def Scalar.IsResidue (x : Scalar) : Prop :=
  ∃ p y, x = .residue p y

/-- Residues of different moduli do not combine, whatever the operation. -/
theorem combine_failsWith {x y : Scalar} (left : x.IsResidue) (right : y.IsResidue)
    (differ : x.field ≠ y.field) (rationals : Rational → Rational → Except Error Rational)
    (residues : (p : Modulus) → Residue p → Residue p → Except Error (Residue p)) :
    FailsWith (Scalar.combine rationals residues x y) .incompatibleModuli := by
  obtain ⟨p, x, rfl⟩ := left
  obtain ⟨q, y, rfl⟩ := right
  have apart : p.value ≠ q.value := fun same =>
    differ (congrArg (fun value : Nat => NumberField.residues value) same)
  rw [Scalar.combine_of_ne apart]
  exact ⟨_, rfl, rfl⟩

theorem field_negate (x : Scalar) : x.negate.field = x.field := by
  cases x <;> rfl

section Rows
variable {width : Nat} {p q : Modulus} {v source target : Vector Scalar width} {column : Fin width}

/-- All numbers of the row are residues. -/
def RowOfResidues (v : Vector Scalar width) : Prop :=
  ∀ j : Fin width, (v.get j).IsResidue

/-- All numbers of the row are residues modulo `p`. -/
def RowModulo (p : Modulus) (v : Vector Scalar width) : Prop :=
  ∀ j : Fin width, (v.get j).field = .residues p.value

/-- The row is not zero, and not all of its numbers are residues modulo `p`. -/
def Strays (p : Modulus) (v : Vector Scalar width) : Prop :=
  (∃ j : Fin width, (v.get j).isZero = false) ∧ ¬ RowModulo p v

theorem get_row (w : Fin width → ZMod p.value) (j : Fin width) :
    ((Residue.representation p).row w).get j = (Residue.representation p).encode (w j) :=
  (Residue.representation p).row_get w j

theorem RowModulo.exists_row (modulo : RowModulo p v) : ∃ w, v = (Residue.representation p).row w := by
  refine ⟨fun j => (Residue.representation p).decode (v.get j), ?_⟩
  refine Vector.ext fun j inside => ?_
  rw [Representation.row, Vector.getElem_ofFn]
  exact ((Residue.representation p).encode_decode _ (modulo ⟨j, inside⟩)).symm

theorem rowModulo_row (w : Fin width → ZMod p.value) :
    RowModulo p ((Residue.representation p).row w) := by
  intro j
  rw [get_row]
  exact (Residue.representation p).field_encode _

theorem RowModulo.unique (first : RowModulo p v) (second : RowModulo q v) (column : Fin width) : p = q :=
  Modulus.value_inj.mp (Int.natCast_inj.mp
    (NumberField.residues.inj ((first column).symm.trans (second column))))

theorem RowModulo.ofResidues (modulo : RowModulo p v) : RowOfResidues v := by
  obtain ⟨w, rfl⟩ := modulo.exists_row
  intro j
  rw [get_row]
  exact ⟨p, _, rfl⟩

theorem exists_encode {x : Scalar} (modulo : x.field = .residues p.value) :
    ∃ z, x = (Residue.representation p).encode z :=
  ⟨_, ((Residue.representation p).encode_decode x modulo).symm⟩

theorem ne_zero_of_occupied {z : ZMod p.value}
    (occupied : ((Residue.representation p).encode z).isZero = false) : z ≠ 0 := by
  rintro rfl
  rw [((Residue.representation p).isZero_iff 0).mpr rfl] at occupied
  cases occupied

/-- Scaling a row leaves the places of its zeros. -/
theorem isZero_scaled (s : Fin width → ZMod p.value) {k : ZMod p.value} (nonzero : k ≠ 0) (j : Fin width) :
    (((Residue.representation p).row fun j => s j * k).get j).isZero =
      (((Residue.representation p).row s).get j).isZero := by
  rw [get_row, get_row, Bool.eq_iff_iff, (Residue.representation p).isZero_iff,
    (Residue.representation p).isZero_iff, mul_eq_zero, or_iff_left nonzero]

theorem exists_differs (differ : ¬ RowModulo p v) : ∃ j : Fin width, (v.get j).field ≠ .residues p.value := by
  simpa [RowModulo] using differ

/-- A row is not combined entry by entry with numbers modulo `p` unless all its numbers are. -/
theorem ofFnM_combine_failsWith {operation : Fin width → Except Error Scalar} (residues : RowOfResidues v)
    (differ : ¬ RowModulo p v)
    (apart : ∀ j : Fin width, (v.get j).IsResidue → (v.get j).field ≠ .residues p.value →
      FailsWith (operation j) .incompatibleModuli)
    (together : ∀ j : Fin width, (v.get j).field = .residues p.value → ∃ x, operation j = .ok x) :
    FailsWith (Vector.ofFnM operation) .incompatibleModuli := by
  obtain ⟨j, foreign⟩ := exists_differs differ
  have fails : Fails (operation j) := by
    obtain ⟨error, failed, -⟩ := apart j (residues j) foreign
    exact ⟨error, failed⟩
  refine ofFnM_failsWith (fun i error failed => ?_) fails
  by_cases same : (v.get i).field = .residues p.value
  · obtain ⟨x, computed⟩ := together i same
    cases failed.symm.trans computed
  · obtain ⟨other, failedToo, kind⟩ := apart i (residues i) same
    cases failed.symm.trans failedToo
    exact kind

/-- A multiple of a row is not added to a row unless all numbers of both are of the modulus of the factor. -/
theorem addMultiple_failsWith (sourceResidues : RowOfResidues source)
    (targetResidues : RowOfResidues target) (k : ZMod p.value)
    (differ : ¬ (RowModulo p source ∧ RowModulo p target)) :
    FailsWith (Reduction.addMultiple target source ((Residue.representation p).encode k))
      .incompatibleModuli := by
  let rep := Residue.representation p
  have factor : (rep.encode k).IsResidue := ⟨p, _, rfl⟩
  by_cases sourceModulo : RowModulo p source
  · have targetDiffers : ¬ RowModulo p target := fun targetModulo => differ ⟨sourceModulo, targetModulo⟩
    obtain ⟨s, rfl⟩ := sourceModulo.exists_row
    have products : Vector.ofFnM (fun j : Fin width => (rep.row s)[j].multiply (rep.encode k)) =
        .ok (rep.row fun j => s j * k) := by
      refine ofFnM_eq_ok fun j => ?_
      rw [Representation.row_get, rep.multiply]
    refine .after products (ofFnM_combine_failsWith targetResidues targetDiffers ?_ ?_)
    · intro j residue foreign
      rw [Representation.row_get]
      exact combine_failsWith residue ⟨p, _, rfl⟩ foreign _ _
    · intro j same
      obtain ⟨x, value⟩ : ∃ x, target[j] = rep.encode x := exists_encode same
      rw [Representation.row_get, value, rep.add]
      exact ⟨_, rfl⟩
  · refine FailsWith.bind (ofFnM_combine_failsWith sourceResidues sourceModulo ?_ ?_) _
    · intro j residue foreign
      exact combine_failsWith residue factor foreign _ _
    · intro j same
      obtain ⟨x, value⟩ : ∃ x, source[j] = rep.encode x := exists_encode same
      rw [value, rep.multiply]
      exact ⟨_, rfl⟩

/-! ## Clearing one row -/

/-- What clearing a column of `target` with the pivot row `source` can come to. Where the column is clear
already, no modulus is looked at. -/
inductive Clears (source target : Vector Scalar width) (column : Fin width) :
    Except Error (Vector Scalar width) → Prop
  | kept (zero : (target.get column).isZero = true) : Clears source target column (.ok target)
  | combined {q : Modulus} {s t : Fin width → ZMod q.value} (k : ZMod q.value)
      (sourceRow : source = (Residue.representation q).row s)
      (targetRow : target = (Residue.representation q).row t) (cleared : t column + s column * k = 0) :
      Clears source target column (.ok ((Residue.representation q).row fun j => t j + s j * k))
  | apart {error : Error} (kind : error.kind = .incompatibleModuli)
      (occupied : (target.get column).isZero = false)
      (differ : ∀ q, ¬ (RowModulo q source ∧ RowModulo q target)) :
      Clears source target column (.error error)

theorem Clears.of_failsWith {computation : Except Error (Vector Scalar width)}
    (fails : FailsWith computation .incompatibleModuli) (occupied : (target.get column).isZero = false)
    (differ : ∀ q, ¬ (RowModulo q source ∧ RowModulo q target)) :
    Clears source target column computation := by
  obtain ⟨error, rfl, kind⟩ := fails
  exact .apart kind occupied differ

theorem clears_clearBelow (sourceResidues : RowOfResidues source) (targetResidues : RowOfResidues target)
    (occupied : (source.get column).isZero = false) :
    Clears source target column (Reduction.clearBelow source column target) := by
  by_cases together : ∃ q, RowModulo q source ∧ RowModulo q target
  · obtain ⟨q, sourceModulo, targetModulo⟩ := together
    obtain ⟨s, rfl⟩ := sourceModulo.exists_row
    obtain ⟨t, rfl⟩ := targetModulo.exists_row
    rw [get_row] at occupied
    have nonzero := ne_zero_of_occupied occupied
    rw [Representation.clearBelow_row _ _ _ nonzero]
    refine .combined _ rfl rfl ?_
    rw [mul_neg, mul_div_cancel₀ _ nonzero, add_neg_cancel]
  · have differ : ∀ q, ¬ (RowModulo q source ∧ RowModulo q target) := fun q both => together ⟨q, both⟩
    rw [Reduction.clearBelow]
    split
    case isTrue zero => exact .kept zero
    case isFalse nonzero =>
      refine .of_failsWith ?_ (Bool.eq_false_iff.mpr nonzero) differ
      by_cases same : (target.get column).field = (source.get column).field
      · obtain ⟨q, y, pivot⟩ := sourceResidues column
        have modulo : (source.get column).field = .residues q.value := by rw [pivot]; rfl
        obtain ⟨b, pivot⟩ := exists_encode modulo
        obtain ⟨a, entry⟩ := exists_encode (same.trans modulo)
        have factor : (target.get column).divide (source.get column) =
            .ok ((Residue.representation q).encode (a / b)) := by
          rw [pivot] at occupied
          rw [entry, pivot, (Residue.representation q).divide a b (ne_zero_of_occupied occupied)]
        refine .after factor ?_
        rw [(Residue.representation q).negate]
        exact addMultiple_failsWith sourceResidues targetResidues _ (differ q)
      · exact (combine_failsWith (targetResidues column) (sourceResidues column) same _ _).bind _

/-- Once the pivot is one, its multiples clear the rows above. -/
theorem clears_clearAbove {s : Fin width → ZMod p.value} (one : s column = 1)
    (targetResidues : RowOfResidues target) :
    Clears ((Residue.representation p).row s) target column
      (Reduction.clearAbove ((Residue.representation p).row s) column target) := by
  by_cases targetModulo : RowModulo p target
  · obtain ⟨t, rfl⟩ := targetModulo.exists_row
    rw [Representation.clearAbove_row]
    refine .combined _ rfl rfl ?_
    rw [one, one_mul, add_neg_cancel]
  · have differ : ∀ q, ¬ (RowModulo q ((Residue.representation p).row s) ∧ RowModulo q target) := by
      rintro q ⟨sourceModulo, modulo⟩
      rw [(rowModulo_row s).unique sourceModulo column] at targetModulo
      exact targetModulo modulo
    rw [Reduction.clearAbove]
    split
    case isTrue zero => exact .kept zero
    case isFalse nonzero =>
      refine .of_failsWith ?_ (Bool.eq_false_iff.mpr nonzero) differ
      obtain ⟨q, y, entry⟩ := targetResidues column
      have modulo : (target.get column).field = .residues q.value := by rw [entry]; rfl
      obtain ⟨a, entry⟩ : ∃ a, target[column] = (Residue.representation q).encode a :=
        exists_encode modulo
      rw [entry, (Residue.representation q).negate]
      exact addMultiple_failsWith (rowModulo_row s).ofResidues targetResidues _ (differ q)

namespace Clears
variable {result : Vector Scalar width}

/-- Either a row is kept, or it is combined with the pivot row, and all numbers of both and of the result are
of one modulus. -/
theorem kept_or_modulo (clears : Clears source target column (.ok result)) :
    result = target ∨ ∃ q, RowModulo q source ∧ RowModulo q target ∧ RowModulo q result := by
  cases clears with
  | kept zero => exact .inl rfl
  | combined k sourceRow targetRow cleared =>
    subst sourceRow targetRow
    exact .inr ⟨_, rowModulo_row _, rowModulo_row _, rowModulo_row _⟩

theorem ofResidues (clears : Clears source target column (.ok result)) (residues : RowOfResidues target) :
    RowOfResidues result := by
  rcases clears.kept_or_modulo with rfl | ⟨q, -, -, modulo⟩
  · exact residues
  · exact modulo.ofResidues

/-- Where the pivot row is zero, no zero arises and none goes. -/
theorem isZero_eq (clears : Clears source target column (.ok result)) {j : Fin width}
    (zero : (source.get j).isZero = true) : (result.get j).isZero = (target.get j).isZero := by
  cases clears with
  | kept => rfl
  | @combined q s t k sourceRow targetRow cleared =>
    subst sourceRow targetRow
    rw [get_row] at zero ⊢
    rw [get_row, ((Residue.representation q).isZero_iff _).mp zero, zero_mul, add_zero]

theorem isZero_column (clears : Clears source target column (.ok result)) :
    (result.get column).isZero = true := by
  cases clears with
  | kept zero => exact zero
  | @combined q s t k sourceRow targetRow cleared =>
    rw [get_row, cleared]
    exact ((Residue.representation q).isZero_iff 0).mpr rfl

/-- A row that goes astray is not lost when rows are cleared: if its numbers become those of another row, the
pivot row goes astray too. -/
theorem strays_iff (clears : Clears source target column (.ok result))
    (occupied : (source.get column).isZero = false) :
    (Strays p result ∨ Strays p source) ↔ (Strays p target ∨ Strays p source) := by
  rcases clears.kept_or_modulo with rfl | ⟨q, sourceModulo, targetModulo, resultModulo⟩
  · rfl
  · by_cases same : RowModulo p source
    · obtain rfl := same.unique sourceModulo column
      have none : ∀ {v : Vector Scalar width}, RowModulo p v → ¬ Strays p v := fun modulo strays =>
        strays.2 modulo
      simp only [none resultModulo, none targetModulo]
    · have strays : Strays p source := ⟨⟨column, occupied⟩, same⟩
      simp only [strays, or_true]

end Clears

end Rows

end Abacus
