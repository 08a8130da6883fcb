import Abacus.Proofs.Numeral
import Abacus.Scalar

/-!
# The fields of numbers

The ground fields are the rationals and the integers modulo a prime below 2^32. Numbers represent
the elements of one of them: each element by exactly one number, with every operation on numbers
that of the field.
-/

namespace Abacus

/-- How numbers represent the elements of a field. -/
structure Representation (K : Type) [Field K] where
  /-- The name that the field goes by in types. -/
  name : NumberField
  encode : K → Scalar
  decode : Scalar → K
  decode_encode : ∀ x, decode (encode x) = x
  encode_decode : ∀ s : Scalar, s.field = name → encode (decode s) = s
  field_encode : ∀ x, (encode x).field = name
  zeroLike : ∀ x, (encode x).zeroLike = encode 0
  oneLike : ∀ x, (encode x).oneLike = encode 1
  isZero_iff : ∀ x, (encode x).isZero = true ↔ x = 0
  negate : ∀ x, (encode x).negate = encode (-x)
  add : ∀ x y, (encode x).add (encode y) = .ok (encode (x + y))
  subtract : ∀ x y, (encode x).subtract (encode y) = .ok (encode (x - y))
  multiply : ∀ x y, (encode x).multiply (encode y) = .ok (encode (x * y))
  divide : ∀ x y, y ≠ 0 → (encode x).divide (encode y) = .ok (encode (x / y))
  divide_zero : ∀ x, (encode x).divide (encode 0) = .error .divisionByZero
  reciprocal : ∀ x, x ≠ 0 → (encode x).reciprocal = .ok (encode x⁻¹)
  reciprocal_zero : (encode 0).reciprocal = .error .inverseOfZero
  read : ∀ {chars : List Char} {n : Int}, Numeral chars n →
    Scalar.read name chars = .ok (encode n)

namespace Scalar

@[simp] theorem add_rational (x y : Rational) :
    (rational x).add (rational y) = .ok (rational (x.add y)) :=
  rfl

@[simp] theorem subtract_rational (x y : Rational) :
    (rational x).subtract (rational y) = .ok (rational (x.subtract y)) :=
  rfl

@[simp] theorem multiply_rational (x y : Rational) :
    (rational x).multiply (rational y) = .ok (rational (x.multiply y)) :=
  rfl

@[simp] theorem divide_rational (x y : Rational) :
    (rational x).divide (rational y) = rational <$> x.divide y :=
  rfl

variable {p : Modulus}

@[simp] theorem add_residue (x y : Residue p) :
    (residue p x).add (residue p y) = .ok (residue p (x.add y)) := by
  rw [add, combine, dif_pos rfl]
  rfl

@[simp] theorem subtract_residue (x y : Residue p) :
    (residue p x).subtract (residue p y) = .ok (residue p (x.subtract y)) := by
  rw [subtract, combine, dif_pos rfl]
  rfl

@[simp] theorem multiply_residue (x y : Residue p) :
    (residue p x).multiply (residue p y) = .ok (residue p (x.multiply y)) := by
  rw [multiply, combine, dif_pos rfl]
  rfl

@[simp] theorem divide_residue (x y : Residue p) :
    (residue p x).divide (residue p y) = residue p <$> x.divide y := by
  rw [divide, combine, dif_pos rfl]

/-- Residues of different moduli do not combine, whatever the operation. -/
theorem combine_of_ne {q : Modulus} (differ : p.value ≠ q.value)
    (rationals : Rational → Rational → Except Error Rational)
    (residues : (p : Modulus) → Residue p → Residue p → Except Error (Residue p)) (x : Residue p)
    (y : Residue q) : combine rationals residues (residue p x) (residue q y) =
      .error (.incompatibleModuli p.value q.value) := by
  rw [combine, dif_neg (mt Modulus.value_inj.mpr differ)]

end Scalar

def Rational.representation : Representation ℚ where
  name := .rationals
  encode q := .rational (ofRat q)
  decode
    | .rational x => x.toRat
    | .residue _ _ => 0
  decode_encode := toRat_ofRat
  encode_decode s of := by
    cases s with
    | rational x => exact congrArg Scalar.rational (ofRat_toRat x)
    | residue p x => cases of
  field_encode _ := rfl
  zeroLike _ := congrArg Scalar.rational (toRat_inj.mp (by simp))
  oneLike _ := congrArg Scalar.rational (toRat_inj.mp (by simp))
  isZero_iff x := by rw [Scalar.isZero, isZero_iff, toRat_ofRat]
  negate x := congrArg Scalar.rational (negate_ofRat x)
  add x y := by
    rw [Scalar.add_rational, add_ofRat]
  subtract x y := by
    rw [Scalar.subtract_rational, subtract_ofRat]
  multiply x y := by
    rw [Scalar.multiply_rational, multiply_ofRat]
  divide x y nonzero := by
    rw [Scalar.divide_rational, divide_eq, toRat_ofRat, toRat_ofRat, if_neg nonzero]
    rfl
  divide_zero x := by
    rw [Scalar.divide_rational, divide_eq, toRat_ofRat, if_pos rfl]
    rfl
  reciprocal x nonzero := by
    rw [Scalar.reciprocal, reciprocal_eq, toRat_ofRat, if_neg nonzero]
    rfl
  reciprocal_zero := by
    rw [Scalar.reciprocal, reciprocal_eq, toRat_ofRat, if_pos rfl]
    rfl
  read numeral := by
    rw [Scalar.read, read_numeral numeral]
    rfl

def Residue.representation (p : Modulus) : Representation (ZMod p.value) where
  name := .residues p.value
  encode z := .residue p (ofZMod z)
  decode
    | .rational _ => 0
    | .residue _ x => x.value
  decode_encode := toZMod_ofZMod
  encode_decode s of := by
    cases s with
    | rational x => cases of
    | residue q x =>
      have same : q.value = p.value := Int.natCast_inj.mp (NumberField.residues.inj of)
      obtain rfl := Modulus.value_inj.mp same
      exact congrArg (Scalar.residue q) (ofZMod_toZMod x)
  field_encode _ := rfl
  zeroLike _ := congrArg (Scalar.residue p) (toZMod_inj.mp (by simp))
  oneLike _ := congrArg (Scalar.residue p) (toZMod_inj.mp (by simp))
  isZero_iff x := by rw [Scalar.isZero, isZero_iff, toZMod_ofZMod]
  negate x := congrArg (Scalar.residue p) (negate_ofZMod x)
  add x y := by
    rw [Scalar.add_residue, add_ofZMod]
  subtract x y := by
    rw [Scalar.subtract_residue, subtract_ofZMod]
  multiply x y := by
    rw [Scalar.multiply_residue, multiply_ofZMod]
  divide x y nonzero := by
    rw [Scalar.divide_residue, divide_eq, toZMod_ofZMod, toZMod_ofZMod, if_neg nonzero]
    rfl
  divide_zero x := by
    rw [Scalar.divide_residue, divide_eq, toZMod_ofZMod, if_pos rfl]
    rfl
  reciprocal x nonzero := by
    rw [Scalar.reciprocal, reciprocal_eq, toZMod_ofZMod, if_neg nonzero]
    rfl
  reciprocal_zero := by
    rw [Scalar.reciprocal, reciprocal_eq, toZMod_ofZMod, if_pos rfl]
    rfl
  read numeral := by
    rw [Scalar.read, Modulus.ofInt?_value]
    show Scalar.residue p <$> read p _ = _
    rw [read_numeral numeral]
    rfl

/-- The rationals, or the integers modulo a prime below 2^32. -/
inductive GroundField where
  | rationals
  | residues (p : Modulus)
deriving DecidableEq

namespace GroundField

@[reducible] def Element : GroundField → Type
  | rationals => ℚ
  | residues p => ZMod p.value

instance (F : GroundField) : Field F.Element :=
  match F with
  | rationals => inferInstanceAs (Field ℚ)
  | residues p => inferInstanceAs (Field (ZMod p.value))

def representation : (F : GroundField) → Representation F.Element
  | rationals => Rational.representation
  | residues p => Residue.representation p

/-- The name of the field in types. -/
def name (F : GroundField) : NumberField :=
  F.representation.name

/-- The number that represents an element. -/
def encode (F : GroundField) : F.Element → Scalar :=
  F.representation.encode

/-- The element that a number of the field represents. -/
def decode (F : GroundField) : Scalar → F.Element :=
  F.representation.decode

@[simp] theorem name_rationals : rationals.name = .rationals :=
  rfl

@[simp] theorem name_residues (p : Modulus) : (residues p).name = .residues p.value :=
  rfl

theorem name_inj {F G : GroundField} : F.name = G.name ↔ F = G := by
  refine ⟨fun same => ?_, fun same => same ▸ rfl⟩
  cases F with
  | rationals =>
    cases G with
    | rationals => rfl
    | residues q => cases same
  | residues p =>
    cases G with
    | rationals => cases same
    | residues q =>
      have values : p.value = q.value := Int.natCast_inj.mp (NumberField.residues.inj same)
      exact congrArg residues (Modulus.value_inj.mp values)

/-- Every number belongs to a ground field. -/
theorem exists_field (s : Scalar) : ∃ F : GroundField, s.field = F.name := by
  cases s with
  | rational x => exact ⟨rationals, rfl⟩
  | residue p x => exact ⟨residues p, rfl⟩

end GroundField

end Abacus
