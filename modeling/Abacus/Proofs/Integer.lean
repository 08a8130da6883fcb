import Abacus.Integer
import Abacus.Proofs.Natural

/-!
# Integer arithmetic

Every operation on signed magnitudes is the operation on the integers that they stand for. Its result is the
only representation of the integer, without a sign if that is zero (`Integer.operations_represent`).
-/

namespace Abacus.Integer

@[simp] theorem toInt_zero : zero.toInt = 0 :=
  toInt_ofInt 0

@[simp] theorem toInt_one : one.toInt = 1 :=
  toInt_ofInt 1

theorem natAbs_toInt (a : Integer) : a.toInt.natAbs = a.magnitude.toNat := by
  rw [toInt]
  split <;> simp

/-- The sign as a factor of the magnitude. -/
theorem toInt_eq_sign_mul (a : Integer) :
    a.toInt = (if a.negative then -1 else 1) * (a.magnitude.toNat : Int) := by
  rw [toInt]
  split <;> simp

@[simp] theorem toInt_negate (a : Integer) : a.negate.toInt = -a.toInt := by
  rw [negate, toInt_signed, toInt]
  cases a.negative <;> simp

/-- Magnitudes of unlike signs are subtracted the smaller from the larger. -/
@[simp] theorem toInt_add (a b : Integer) : (a.add b).toInt = a.toInt + b.toInt := by
  have left := toInt_eq_sign_mul a
  have right := toInt_eq_sign_mul b
  have underflow := Natural.underflow_iff a.magnitude b.magnitude
  rw [add]
  by_cases like : a.negative = b.negative
  · rw [if_pos like, toInt_signed, Natural.toNat_add, left, right, ← like]
    cases a.negative
    · simp
    · simp only [if_true]
      omega
  · rw [if_neg like]
    by_cases below : (a.magnitude.monus b.magnitude).2 = true
    · have less := underflow.mp below
      simp only [below, if_true, toInt_signed, Natural.toNat_monus]
      cases aSign : a.negative <;> cases bSign : b.negative <;>
        simp_all only [not_true_eq_false, if_true, if_false, Bool.false_eq_true] <;> omega
    · have enough : ¬ a.magnitude.toNat < b.magnitude.toNat := fun less => below (underflow.mpr less)
      simp only [below, if_false, Bool.false_eq_true, toInt_signed, Natural.toNat_monus]
      cases aSign : a.negative <;> cases bSign : b.negative <;>
        simp_all only [not_true_eq_false, if_true, if_false, Bool.false_eq_true] <;> omega

@[simp] theorem toInt_subtract (a b : Integer) : (a.subtract b).toInt = a.toInt - b.toInt := by
  rw [subtract, toInt_add, toInt_negate, Int.sub_eq_add_neg]

@[simp] theorem toInt_multiply (a b : Integer) : (a.multiply b).toInt = a.toInt * b.toInt := by
  rw [multiply, toInt_signed, Natural.toNat_multiply, toInt_eq_sign_mul a, toInt_eq_sign_mul b]
  cases a.negative <;> cases b.negative <;> grind

/-! ## Division -/

theorem divide_zero (a : Integer) {divisor : Natural} (zero : divisor.toNat = 0) :
    a.divide divisor = .error .divisionByZero := by
  rw [divide, a.magnitude.divide_zero zero]
  rfl

theorem divide_of_pos (a : Integer) {divisor : Natural} (positive : 0 < divisor.toNat) :
    a.divide divisor = .ok (signed a.negative (a.magnitude.divMod divisor).1) := by
  rw [divide, a.magnitude.divide_of_pos positive]
  rfl

/-- The sign of the dividend on the quotient of the magnitudes rounds toward zero. -/
theorem toInt_signed_divMod (a : Integer) {divisor : Natural} (positive : 0 < divisor.toNat) :
    (signed a.negative (a.magnitude.divMod divisor).1).toInt = a.toInt.tdiv divisor.toNat := by
  rw [toInt_signed, Natural.toNat_divMod_fst _ positive, toInt, Int.ofNat_tdiv]
  cases a.negative
  · simp
  · simp [Int.neg_tdiv]

/-! ## Representations -/

/-- The data of the integer `n`: canonical blocks, which are the digits of its absolute value to the base
2^32, and a sign below zero only. -/
structure Represents (a : Integer) (n : Int) : Prop where
  sign : a.negative = true ↔ n < 0
  canonical : Blocks.Canonical a.magnitude.blocks
  blocks : a.magnitude.blocks = Blocks.ofNat n.natAbs

theorem represents_of_toInt {a : Integer} {n : Int} (value : a.toInt = n) : a.Represents n := by
  have absolute : a.magnitude.toNat = n.natAbs := by rw [← value, natAbs_toInt]
  refine ⟨?_, a.magnitude.canonical, Natural.blocks_eq_ofNat absolute⟩
  have unsigned := mt a.zero_unsigned
  rw [Natural.isZero_iff] at unsigned
  rw [← value, toInt]
  cases sign : a.negative
  · simp
  · have nonzero := unsigned (by simp [sign])
    simp only [if_true, true_iff]
    omega

/-- Sign and blocks are the same only in representations of one integer. -/
theorem same_data_iff {a b : Integer} :
    a.negative = b.negative ∧ a.magnitude.blocks = b.magnitude.blocks ↔ a.toInt = b.toInt := by
  rw [toInt_inj]
  constructor
  · rintro ⟨signs, blocks⟩
    have magnitudes : a.magnitude.toNat = b.magnitude.toNat := congrArg Blocks.value blocks
    rw [← toInt_inj, toInt, toInt, signs, magnitudes]
  · rintro rfl
    exact ⟨rfl, rfl⟩

/-- Integers are made, added, subtracted, multiplied and negated by value, whatever their signs and the sizes
of their magnitudes. Division by a natural number fails exactly if that is zero, and rounds toward zero
otherwise. Everything that results has canonical blocks and no sign on zero, so that integers are the same in
sign and blocks exactly if they are the same in value. -/
theorem operations_represent :
    (∀ a : Integer, a.Represents a.toInt) ∧
    (∀ n : Int, (ofInt n).Represents n) ∧
    (∀ (negative : Bool) (magnitude : Natural), (signed negative magnitude).Represents
      (if negative then -(Blocks.value magnitude.blocks : Int) else Blocks.value magnitude.blocks)) ∧
    (∀ a b : Integer, (a.add b).Represents (a.toInt + b.toInt) ∧
      (a.subtract b).Represents (a.toInt - b.toInt) ∧ (a.multiply b).Represents (a.toInt * b.toInt) ∧
      a.negate.Represents (-a.toInt)) ∧
    (∀ (a : Integer) (divisor : Natural),
      (a.divide divisor = .error .divisionByZero ↔ divisor.toNat = 0) ∧
      (divisor.toNat ≠ 0 → ∃ quotient, a.divide divisor = .ok quotient ∧
        quotient.Represents (a.toInt.tdiv divisor.toNat))) ∧
    ∀ a b : Integer, a.negative = b.negative ∧ a.magnitude.blocks = b.magnitude.blocks ↔
      a.toInt = b.toInt := by
  refine ⟨fun a => represents_of_toInt rfl, fun n => represents_of_toInt (toInt_ofInt n),
    fun negative magnitude => represents_of_toInt (toInt_signed negative magnitude), fun a b => ?_,
    fun a divisor => ?_, fun a b => same_data_iff⟩
  · exact ⟨represents_of_toInt (toInt_add a b), represents_of_toInt (toInt_subtract a b),
      represents_of_toInt (toInt_multiply a b), represents_of_toInt (toInt_negate a)⟩
  · rcases Nat.eq_zero_or_pos divisor.toNat with zero | positive
    · exact ⟨⟨fun _ => zero, a.divide_zero⟩, fun nonzero => absurd zero nonzero⟩
    · rw [a.divide_of_pos positive]
      exact ⟨⟨nofun, fun zero => absurd zero (Nat.ne_of_gt positive)⟩,
        fun _ => ⟨_, rfl, represents_of_toInt (a.toInt_signed_divMod positive)⟩⟩

/-- A negative dividend loses its sign where the quotient is zero. -/
example : ((ofInt (-3)).divide (.ofNat 4)).toOption = some zero := by
  decide +kernel

end Abacus.Integer
