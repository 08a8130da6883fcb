import Abacus.Proofs.Modulus
import Abacus.Residue
import Mathlib.FieldTheory.Finite.Basic

/-!
# Residue arithmetic

A residue is the canonical form of one element of the field of integers modulo the prime, and every
operation on residues is the operation of that field. Division fails exactly at zero, and a power
exactly when its base is zero and its exponent is negative.
-/

namespace Abacus.Residue
variable {p : Modulus}

/-- The element of the field itself. -/
def toZMod (x : Residue p) : ZMod p.value :=
  x.value

/-- The residue that stands for `z`. -/
def ofZMod (z : ZMod p.value) : Residue p :=
  ⟨z.val, ZMod.val_lt z⟩

@[simp] theorem toZMod_ofZMod (z : ZMod p.value) : (ofZMod z).toZMod = z :=
  ZMod.natCast_zmod_val z

/-- Two residues that stand for one element are the same. -/
theorem toZMod_inj {x y : Residue p} : x.toZMod = y.toZMod ↔ x = y := by
  refine ⟨fun same => ?_, fun same => same ▸ rfl⟩
  have values := congrArg ZMod.val same
  rw [toZMod, toZMod, ZMod.val_cast_of_lt x.value_lt, ZMod.val_cast_of_lt y.value_lt] at values
  cases x
  cases y
  simp_all only

@[simp] theorem ofZMod_toZMod (x : Residue p) : ofZMod x.toZMod = x :=
  toZMod_inj.mp (toZMod_ofZMod x.toZMod)

theorem ofInt_eq (p : Modulus) (n : Int) : ofInt p n = ofZMod n := by
  have value : ((n : ZMod p.value).val : Int) = n % p.value := ZMod.val_intCast n
  simp only [ofInt, ofZMod, ← value, Int.toNat_natCast]

/-- The residue of an integer is its remainder, which is not negative. -/
theorem eq_ofInt_iff {x : Residue p} {n : Int} : x = ofInt p n ↔ (x.value : Int) = n % p.value := by
  have value : ((n : ZMod p.value).val : Int) = n % p.value := ZMod.val_intCast n
  rw [ofInt_eq, ← toZMod_inj, toZMod_ofZMod, ← value, Int.natCast_inj]
  constructor
  · intro same
    rw [← same, toZMod, ZMod.val_cast_of_lt x.value_lt]
  · intro same
    rw [toZMod, same, ZMod.natCast_zmod_val]

@[simp] theorem isZero_iff {x : Residue p} : x.isZero = true ↔ x.toZMod = 0 := by
  rw [isZero, beq_iff_eq, toZMod, ZMod.natCast_eq_zero_iff]
  constructor
  · intro none
    rw [none]
    exact Nat.dvd_zero _
  · intro divides
    exact Nat.eq_zero_of_dvd_of_lt divides x.value_lt

@[simp] theorem toZMod_zero : (zero p).toZMod = 0 :=
  Nat.cast_zero

@[simp] theorem toZMod_one : (one p).toZMod = 1 :=
  Nat.cast_one

/-- Subtracting the modulus from a sum that reaches it changes nothing. -/
@[simp] theorem toZMod_add (x y : Residue p) : (x.add y).toZMod = x.toZMod + y.toZMod := by
  rw [add]
  by_cases inside : x.value + y.value < p.value
  · simp only [inside, dif_pos, toZMod, Nat.cast_add]
  · simp only [inside, dif_neg, not_false_eq_true, toZMod]
    rw [Nat.cast_sub (by omega), ZMod.natCast_self, sub_zero, Nat.cast_add]

@[simp] theorem toZMod_subtract (x y : Residue p) :
    (x.subtract y).toZMod = x.toZMod - y.toZMod := by
  have xFits := x.value_lt
  have yFits := y.value_lt
  rw [subtract]
  by_cases enough : y.value ≤ x.value
  · simp only [enough, dif_pos, toZMod, Nat.cast_sub enough]
  · simp only [enough, dif_neg, not_false_eq_true, toZMod]
    rw [Nat.cast_sub (by omega), Nat.cast_sub (by omega), ZMod.natCast_self, zero_sub, neg_sub]

@[simp] theorem toZMod_negate (x : Residue p) : x.negate.toZMod = -x.toZMod := by
  have fits := x.value_lt
  rw [negate]
  by_cases none : x.value = 0
  · simp only [none, dif_pos, toZMod, Nat.cast_zero, neg_zero]
  · simp only [none, dif_neg, not_false_eq_true, toZMod]
    rw [Nat.cast_sub fits.le, ZMod.natCast_self, zero_sub]

/-- Doubling the addend halves the count. -/
theorem toZMod_addTimes (sum addend : Residue p) (count : Nat) :
    (addTimes sum addend count).toZMod = sum.toZMod + count * addend.toZMod := by
  fun_induction addTimes sum addend count with
  | case1 sum addend => simp
  | case2 sum addend count more ih =>
    have halves : (count : ZMod p.value) = ((2 * (count / 2) + count % 2 : Nat) : ZMod p.value) := by
      rw [Nat.div_add_mod]
    rw [dite_eq_ite] at ih
    rw [ih, toZMod_add, halves]
    rcases Nat.mod_two_eq_zero_or_one count with even | odd
    · simp only [even, Nat.cast_add, Nat.cast_mul]
      simp
      ring
    · simp only [odd, if_true, toZMod_add, Nat.cast_add, Nat.cast_mul]
      push_cast
      ring

@[simp] theorem toZMod_multiply (x y : Residue p) :
    (x.multiply y).toZMod = x.toZMod * y.toZMod := by
  rw [multiply, toZMod_addTimes, toZMod_zero, zero_add, mul_comm]
  rfl

/-- Squaring the base halves the exponent. -/
theorem toZMod_multiplyTimes (product base : Residue p) (count : Nat) :
    (multiplyTimes product base count).toZMod = product.toZMod * base.toZMod ^ count := by
  fun_induction multiplyTimes product base count with
  | case1 product base => simp
  | case2 product base count more ih =>
    have halves : base.toZMod ^ count = base.toZMod ^ (2 * (count / 2) + count % 2) := by
      rw [Nat.div_add_mod]
    rw [dite_eq_ite] at ih
    rw [ih, toZMod_multiply, halves, pow_add, pow_mul, pow_two]
    rcases Nat.mod_two_eq_zero_or_one count with even | odd
    · simp [even]
    · simp only [odd, if_true, toZMod_multiply, pow_one]
      ring

@[simp] theorem toZMod_pow (x : Residue p) (exponent : Nat) :
    (x.pow exponent).toZMod = x.toZMod ^ exponent := by
  rw [pow, toZMod_multiplyTimes, toZMod_one, one_mul]

/-! ## The operations on the residues of field elements -/

theorem add_ofZMod (x y : ZMod p.value) : (ofZMod x).add (ofZMod y) = ofZMod (x + y) :=
  toZMod_inj.mp (by simp)

theorem subtract_ofZMod (x y : ZMod p.value) : (ofZMod x).subtract (ofZMod y) = ofZMod (x - y) :=
  toZMod_inj.mp (by simp)

theorem multiply_ofZMod (x y : ZMod p.value) : (ofZMod x).multiply (ofZMod y) = ofZMod (x * y) :=
  toZMod_inj.mp (by simp)

theorem negate_ofZMod (x : ZMod p.value) : (ofZMod x).negate = ofZMod (-x) :=
  toZMod_inj.mp (by simp)

/-- Fermat's little theorem: the power with exponent `p - 2` inverts. -/
theorem pow_two_sub_eq_inv {z : ZMod p.value} (nonzero : z ≠ 0) : z ^ (p.value - 2) = z⁻¹ := by
  have exponent : p.value - 2 + 1 = p.value - 1 := by
    have := p.two_le
    omega
  refine eq_inv_of_mul_eq_one_left ?_
  rw [← pow_succ, exponent]
  exact ZMod.pow_card_sub_one_eq_one nonzero

theorem reciprocal_eq (x : Residue p) :
    x.reciprocal = if x.toZMod = 0 then .error .inverseOfZero else .ok (ofZMod x.toZMod⁻¹) := by
  rw [reciprocal]
  by_cases none : x.toZMod = 0
  · rw [if_pos (isZero_iff.mpr none), if_pos none]
  · rw [if_neg (mt isZero_iff.mp none), if_neg none, ← pow_two_sub_eq_inv none, ← toZMod_pow,
      ofZMod_toZMod]

theorem divide_eq (x y : Residue p) :
    x.divide y =
      if y.toZMod = 0 then .error .divisionByZero else .ok (ofZMod (x.toZMod / y.toZMod)) := by
  rw [divide, reciprocal_eq]
  by_cases none : y.toZMod = 0
  · rw [if_pos (isZero_iff.mpr none), if_pos none]
  · rw [if_neg (mt isZero_iff.mp none), if_neg none, if_neg none]
    refine congrArg Except.ok (toZMod_inj.mp ?_)
    rw [toZMod_multiply, toZMod_ofZMod, toZMod_ofZMod, div_eq_mul_inv]

/-- A negative exponent raises the inverse, so it needs a base that is not zero. -/
theorem power_eq (x : Residue p) (exponent : Int) :
    x.power exponent =
      if exponent < 0 ∧ x.toZMod = 0 then .error .inverseOfZero
      else .ok (ofZMod (x.toZMod ^ exponent)) := by
  rw [power]
  by_cases negative : exponent < 0
  · rw [if_pos negative, reciprocal_eq]
    by_cases none : x.toZMod = 0
    · rw [if_pos none, if_pos ⟨negative, none⟩]
      rfl
    · have size : exponent = -(exponent.natAbs : Int) := by omega
      rw [if_neg none, if_neg (fun both => none both.2)]
      refine congrArg Except.ok (toZMod_inj.mp ?_)
      rw [toZMod_pow, toZMod_ofZMod, toZMod_ofZMod]
      conv_rhs => rw [size, zpow_neg, zpow_natCast]
      exact inv_pow _ _
  · have size : exponent = (exponent.natAbs : Int) := by omega
    rw [if_neg negative, if_neg (fun both => negative both.1)]
    refine congrArg Except.ok (toZMod_inj.mp ?_)
    rw [toZMod_pow, toZMod_ofZMod]
    conv_rhs => rw [size, zpow_natCast]

end Abacus.Residue
