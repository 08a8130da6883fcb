import Abacus.Proofs.Meaning

/-!
# Values that fit a type

What a value looks like that is stored under a type: a fraction in lowest terms, a remainder modulo a
prime, or a matrix with at least one row and column and all its entries in one field. Well-typed
variables are those that hold such a value (`wellTyped_iff_fits`).
-/

namespace Abacus

/-- The number is what a field holds: a fraction in lowest terms with a positive denominator, or a
remainder modulo the field's own prime. -/
inductive Scalar.Fits : NumberField → Scalar → Prop
  | rational {x : Rational} (positive : 0 < x.denominator.toNat)
      (lowest : Nat.Coprime x.numerator.toInt.natAbs x.denominator.toNat) :
      Fits .rationals (.rational x)
  | residue {p : Modulus} {x : Residue p} (prime : p.value.Prime) (small : p.value < 2 ^ 32)
      (below : x.value < p.value) : Fits (.residues p.value) (.residue p x)

/-- The value is what a type holds: a number of its field, or a matrix with a row and a column and
only such numbers. -/
inductive Value.Fits : ValueType → Value → Prop
  | scalar {field : NumberField} {x : Scalar} (fits : x.Fits field) : Fits (.scalar field) (.scalar x)
  | matrix {field : NumberField} {a : Matrix} (tall : 0 < a.height) (wide : 0 < a.width)
      (entries : ∀ i j, (a.get i j).Fits field) : Fits (.matrix field) (.matrix a)

/-- A number fits its own field and no other. -/
theorem Scalar.fits_iff {field : NumberField} {x : Scalar} : x.Fits field ↔ x.field = field := by
  constructor
  · intro fits
    cases fits with
    | rational positive lowest => rfl
    | residue prime small below => rfl
  · rintro rfl
    cases x with
    | rational x =>
      refine .rational x.positive ?_
      rw [Integer.natAbs_toInt]
      exact x.lowest
    | residue p x => exact .residue p.prime_value p.fits x.value_lt

theorem Value.fits_scalar_iff {field : NumberField} {x : Scalar} :
    (Value.scalar x).Fits (.scalar field) ↔ x.field = field := by
  constructor
  · rintro (fits | _)
    exact Scalar.fits_iff.mp fits
  · intro inField
    exact .scalar (Scalar.fits_iff.mpr inField)

theorem Value.fits_matrix_iff {field : NumberField} {a : Matrix} :
    (Value.matrix a).Fits (.matrix field) ↔ a.Over field := by
  constructor
  · rintro (_ | ⟨_, _, entries⟩)
    exact fun i j => Scalar.fits_iff.mp (entries i j)
  · intro inField
    exact .matrix a.height_pos a.width_pos fun i j => Scalar.fits_iff.mpr (inField i j)

/-- A binding is well typed exactly if its value fits its type. -/
theorem Binding.wellTyped_iff_fits {binding : Binding Value} :
    binding.WellTyped ↔ binding.value.Fits binding.type := by
  constructor
  · intro typed
    cases typed with
    | number F inField => exact Value.fits_scalar_iff.mpr inField
    | table F inField => exact Value.fits_matrix_iff.mpr inField
  · obtain ⟨type, value⟩ := binding
    intro fits
    cases fits with
    | @scalar field x fits =>
      obtain ⟨F, ground⟩ := GroundField.exists_field x
      obtain rfl : F.name = field := ground.symm.trans (Scalar.fits_iff.mp fits)
      exact .number F ground
    | @matrix field a tall wide entries =>
      obtain ⟨F, ground⟩ := GroundField.exists_field (a.get ⟨0, tall⟩ ⟨0, wide⟩)
      have inField : a.Over field := fun i j => Scalar.fits_iff.mp (entries i j)
      obtain rfl : F.name = field := ground.symm.trans (inField _ _)
      exact .table F inField

end Abacus
