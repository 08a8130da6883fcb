import Abacus.Proofs.Integer
import Abacus.Rational
import Mathlib.Algebra.Field.Rat
import Mathlib.Data.Int.CharZero
import Mathlib.Data.Rat.Lemmas
import Mathlib.Tactic.FieldSimp

/-!
# Rational arithmetic

A fraction in lowest terms is the canonical form of one rational number, and every operation on
fractions is the operation of the field of rationals. Division fails exactly at zero.
-/

namespace Abacus.Rational

/-- The rational number itself. -/
def toRat (x : Rational) : ℚ where
  num := x.numerator.toInt
  den := x.denominator.toNat
  den_nz := x.positive.ne'
  reduced := by
    rw [Nat.Coprime, Integer.natAbs_toInt]
    exact x.lowest

/-- The fraction in lowest terms that stands for `q`. -/
def ofRat (q : ℚ) : Rational where
  numerator := .ofInt q.num
  denominator := .ofNat q.den
  positive := by simpa using q.den_pos
  lowest := by
    rw [← Integer.natAbs_toInt, Integer.toInt_ofInt, Natural.toNat_ofNat]
    exact q.reduced

@[simp] theorem toRat_ofRat (q : ℚ) : (ofRat q).toRat = q :=
  Rat.ext (Integer.toInt_ofInt q.num) (Natural.toNat_ofNat q.den)

/-- Two fractions in lowest terms that stand for one number are the same. -/
theorem toRat_inj {x y : Rational} : x.toRat = y.toRat ↔ x = y := by
  refine ⟨fun same => ?_, fun same => same ▸ rfl⟩
  have numerators : x.numerator = y.numerator := Integer.toInt_inj.mp (congrArg Rat.num same)
  have denominators : x.denominator = y.denominator := Natural.toNat_inj.mp (congrArg Rat.den same)
  cases x; cases y
  simp_all only

@[simp] theorem ofRat_toRat (x : Rational) : ofRat x.toRat = x :=
  toRat_inj.mp (toRat_ofRat x.toRat)

theorem toRat_eq_div (x : Rational) : x.toRat = x.numerator.toInt / x.denominator.toNat :=
  (Rat.num_div_den x.toRat).symm

theorem denominator_ne_zero (x : Rational) : (x.denominator.toNat : ℚ) ≠ 0 :=
  Nat.cast_ne_zero.mpr x.positive.ne'

@[simp] theorem toInt_bottom (x : Rational) : x.bottom.toInt = x.denominator.toNat := by
  simp [bottom]

/-- Dividing both magnitudes by their greatest common divisor keeps the fraction. -/
theorem toRat_reduce (numerator denominator : Integer)
    (nonzero : 0 < denominator.magnitude.toNat) :
    (reduce numerator denominator nonzero).toRat = numerator.toInt / denominator.toInt := by
  have positive := Nat.gcd_pos_of_pos_right numerator.magnitude.toNat nonzero
  have divides : 0 < (Natural.gcd numerator.magnitude denominator.magnitude).toNat := by
    rwa [Natural.toNat_gcd]
  obtain ⟨n, nEq⟩ := Nat.gcd_dvd_left numerator.magnitude.toNat denominator.magnitude.toNat
  obtain ⟨d, dEq⟩ := Nat.gcd_dvd_right numerator.magnitude.toNat denominator.magnitude.toNat
  generalize common : Nat.gcd numerator.magnitude.toNat denominator.magnitude.toNat = g
    at positive nEq dEq
  have top : (reduce numerator denominator nonzero).numerator.toInt =
      (if numerator.negative != denominator.negative then -1 else 1) * (n : Int) := by
    simp only [reduce, Integer.toInt_signed, Natural.toNat_divMod_fst _ divides,
      Natural.toNat_gcd, common, Nat.div_eq_of_eq_mul_right positive nEq]
    split <;> simp
  have bottom : (reduce numerator denominator nonzero).denominator.toNat = d := by
    simp only [reduce, Natural.toNat_divMod_fst _ divides, Natural.toNat_gcd, common,
      Nat.div_eq_of_eq_mul_right positive dEq]
  have gNonzero : (g : ℚ) ≠ 0 := Nat.cast_ne_zero.mpr positive.ne'
  have dNonzero : (d : ℚ) ≠ 0 := by
    rintro zero
    rw [Nat.cast_eq_zero.mp zero] at dEq
    omega
  rw [toRat_eq_div, top, bottom, Integer.toInt_eq_sign_mul numerator,
    Integer.toInt_eq_sign_mul denominator, nEq, dEq]
  cases numerator.negative <;> cases denominator.negative <;> push_cast <;> field_simp <;> simp

theorem toInt_ne_zero {a : Integer} (nonzero : 0 < a.magnitude.toNat) : (a.toInt : ℚ) ≠ 0 := by
  rw [← Integer.natAbs_toInt] at nonzero
  exact Int.cast_ne_zero.mpr (by omega)

@[simp] theorem toRat_ofInteger (a : Integer) : (ofInteger a).toRat = a.toInt := by
  simp [ofInteger, toRat_reduce]

@[simp] theorem toRat_ofInt (value : Int) : (ofInt value).toRat = value := by
  rw [ofInt, toRat_ofInteger, Integer.toInt_ofInt]

theorem ofInt_eq (n : Int) : ofInt n = ofRat n :=
  toRat_inj.mp (by rw [toRat_ofInt, toRat_ofRat])

@[simp] theorem toRat_zero : zero.toRat = 0 :=
  toRat_ofInt 0

@[simp] theorem toRat_one : one.toRat = 1 :=
  toRat_ofInt 1

@[simp] theorem toRat_add (x y : Rational) : (x.add y).toRat = x.toRat + y.toRat := by
  have left := x.denominator_ne_zero
  have right := y.denominator_ne_zero
  rw [add, toRat_reduce, toRat_eq_div x, toRat_eq_div y]
  simp only [Integer.toInt_add, Integer.toInt_multiply, toInt_bottom]
  push_cast
  field_simp

@[simp] theorem toRat_subtract (x y : Rational) : (x.subtract y).toRat = x.toRat - y.toRat := by
  have left := x.denominator_ne_zero
  have right := y.denominator_ne_zero
  rw [subtract, toRat_reduce, toRat_eq_div x, toRat_eq_div y]
  simp only [Integer.toInt_subtract, Integer.toInt_multiply, toInt_bottom]
  push_cast
  field_simp

@[simp] theorem toRat_multiply (x y : Rational) : (x.multiply y).toRat = x.toRat * y.toRat := by
  rw [multiply, toRat_reduce, toRat_eq_div x, toRat_eq_div y]
  simp only [Integer.toInt_multiply, toInt_bottom]
  push_cast
  rw [div_mul_div_comm]

@[simp] theorem toRat_negate (x : Rational) : x.negate.toRat = -x.toRat := by
  rw [negate, toRat_reduce, toRat_eq_div x, Integer.toInt_negate, toInt_bottom]
  push_cast
  rw [neg_div]

/-! ## The operations on the fractions of rational numbers -/

theorem add_ofRat (p q : ℚ) : (ofRat p).add (ofRat q) = ofRat (p + q) :=
  toRat_inj.mp (by simp)

theorem subtract_ofRat (p q : ℚ) : (ofRat p).subtract (ofRat q) = ofRat (p - q) :=
  toRat_inj.mp (by simp)

theorem multiply_ofRat (p q : ℚ) : (ofRat p).multiply (ofRat q) = ofRat (p * q) :=
  toRat_inj.mp (by simp)

theorem negate_ofRat (q : ℚ) : (ofRat q).negate = ofRat (-q) :=
  toRat_inj.mp (by simp)

theorem toRat_eq_zero_iff {x : Rational} : x.toRat = 0 ↔ x.numerator.toInt = 0 := by
  rw [← Rat.num_eq_zero]
  rfl

@[simp] theorem isZero_iff {x : Rational} : x.isZero = true ↔ x.toRat = 0 := by
  rw [isZero, Integer.isZero_iff, toRat_eq_zero_iff]

theorem magnitude_pos_iff {x : Rational} : 0 < x.numerator.magnitude.toNat ↔ x.toRat ≠ 0 := by
  rw [Ne, toRat_eq_zero_iff, ← Integer.natAbs_toInt]
  omega

/-- The fraction of two integers exists exactly when the denominator is not zero. -/
theorem ofIntegers_eq (numerator denominator : Integer) :
    ofIntegers numerator denominator =
      if denominator.toInt = 0 then .error .divisionByZero
      else .ok (ofRat (numerator.toInt / denominator.toInt)) := by
  rw [ofIntegers]
  by_cases nonzero : 0 < denominator.magnitude.toNat
  · have some : denominator.toInt ≠ 0 := Int.cast_ne_zero.mp (toInt_ne_zero nonzero)
    rw [dif_pos nonzero, if_neg some, ← toRat_reduce numerator denominator nonzero, ofRat_toRat]
  · have none : denominator.toInt = 0 := by
      rw [← Integer.natAbs_toInt] at nonzero
      omega
    rw [dif_neg nonzero, if_pos none]

theorem divide_eq (x y : Rational) :
    x.divide y =
      if y.toRat = 0 then .error .divisionByZero else .ok (ofRat (x.toRat / y.toRat)) := by
  have left := x.positive
  rw [divide, ofIntegers_eq]
  simp only [Integer.toInt_multiply, toInt_bottom, toRat_eq_zero_iff, Int.mul_eq_zero]
  by_cases none : y.numerator.toInt = 0
  · rw [if_pos none, if_pos (Or.inr none)]
  · rw [if_neg none, if_neg (by omega), toRat_eq_div x, toRat_eq_div y]
    push_cast
    rw [div_div_div_eq]

theorem reciprocal_eq (x : Rational) :
    x.reciprocal = if x.toRat = 0 then .error .inverseOfZero else .ok (ofRat x.toRat⁻¹) := by
  rw [reciprocal]
  by_cases nonzero : 0 < x.numerator.magnitude.toNat
  · rw [dif_pos nonzero, if_neg (magnitude_pos_iff.mp nonzero), ← ofRat_toRat (reduce _ _ _),
      toRat_reduce, toInt_bottom, toRat_eq_div x, inv_div]
    rfl
  · rw [dif_neg nonzero, if_pos (not_not.mp (mt magnitude_pos_iff.mpr nonzero))]

/-! ## One fraction for every rational number -/

theorem toRat_bijective : Function.Bijective toRat :=
  ⟨fun _ _ same => toRat_inj.mp same, fun q => ⟨ofRat q, toRat_ofRat q⟩⟩

/-- Every fraction is in lowest terms over a positive denominator, and zero is over one. -/
theorem canonical (x : Rational) :
    0 < x.denominator.toNat ∧ Nat.Coprime x.numerator.toInt.natAbs x.denominator.toNat ∧
      (x.numerator.toInt = 0 → x.denominator.toNat = 1) := by
  have coprime : Nat.Coprime x.numerator.toInt.natAbs x.denominator.toNat := x.toRat.reduced
  refine ⟨x.positive, coprime, fun zero => ?_⟩
  rwa [zero, Int.natAbs_zero, Nat.coprime_zero_left] at coprime

/-- Fractions in lowest terms are the field of rational numbers. Two integers make the fraction that
stands for their quotient, unless the denominator is zero; every rational number has exactly one fraction,
so fractions are equal exactly if they stand for the same number; every operation returns the one fraction
of its exact result, and only quotients by zero and the inverse of zero do not exist. -/
theorem fractions_eq_rationals :
    (∀ numerator denominator : Integer,
      (denominator.toInt = 0 → ofIntegers numerator denominator = .error .divisionByZero) ∧
      (denominator.toInt ≠ 0 → ∃ x, ofIntegers numerator denominator = .ok x ∧
        x.toRat = numerator.toInt / denominator.toInt)) ∧
    (∀ x : Rational, x.toRat = x.numerator.toInt / x.denominator.toNat ∧
      0 < x.denominator.toNat ∧ Nat.Coprime x.numerator.toInt.natAbs x.denominator.toNat ∧
      (x.numerator.toInt = 0 → x.denominator.toNat = 1)) ∧
    Function.Bijective toRat ∧
    (∀ x y : Rational, x = y ↔ x.toRat = y.toRat) ∧
    ∀ x y : Rational,
      (x.add y).toRat = x.toRat + y.toRat ∧
      (x.subtract y).toRat = x.toRat - y.toRat ∧
      (x.multiply y).toRat = x.toRat * y.toRat ∧
      x.negate.toRat = -x.toRat ∧
      (y.toRat = 0 → x.divide y = .error .divisionByZero) ∧
      (y.toRat ≠ 0 → ∃ z, x.divide y = .ok z ∧ z.toRat = x.toRat / y.toRat) ∧
      (y.toRat = 0 → y.reciprocal = .error .inverseOfZero ∧
        Error.inverseOfZero.kind = .divisionByZero) ∧
      (y.toRat ≠ 0 → ∃ z, y.reciprocal = .ok z ∧ z.toRat = y.toRat⁻¹) := by
  refine ⟨fun numerator denominator => ⟨fun zero => ?_, fun nonzero => ?_⟩,
    fun x => ⟨toRat_eq_div x, x.canonical⟩, toRat_bijective, fun x y => toRat_inj.symm,
    fun x y => ⟨toRat_add x y, toRat_subtract x y, toRat_multiply x y, toRat_negate x,
      fun zero => ?_, fun nonzero => ?_, fun zero => ?_, fun nonzero => ?_⟩⟩
  · rw [ofIntegers_eq, if_pos zero]
  · exact ⟨_, by rw [ofIntegers_eq, if_neg nonzero], toRat_ofRat _⟩
  · rw [divide_eq, if_pos zero]
  · exact ⟨_, by rw [divide_eq, if_neg nonzero], toRat_ofRat _⟩
  · exact ⟨by rw [reciprocal_eq, if_pos zero], rfl⟩
  · exact ⟨_, by rw [reciprocal_eq, if_neg nonzero], toRat_ofRat _⟩

end Abacus.Rational
