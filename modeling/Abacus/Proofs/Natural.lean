import Abacus.Natural.Division

/-!
# Arithmetic of natural numbers

A sum and a product have the blocks of the sum and the product of the numbers, and no addition on the way
writes a block that does not fit in its 32 bits (`Natural.add_multiply_blocks`). Division fails by zero and
by nothing else, and otherwise takes the dividend apart into quotient and remainder; it never writes such a
block either (`Natural.divide_eq_quotient_remainder`). Euclid's algorithm on remainders ends, without a failing
division, with the greatest common divisor (`Natural.gcd_isGreatest`).
-/

namespace Abacus.Natural
open Blocks

/-! ## Sums and products -/

/-- Blocks that all fit pass the check, which then only drops the zeros at the top. -/
theorem ofBlocks?_of_inRange {blocks : List Nat} (inRange : InRange blocks) :
    ofBlocks? (blocks.map Int.ofNat) = .ok (trimmed blocks inRange) := by
  have none : (blocks.map Int.ofNat).find? (fun block => !fits block) = none := by
    rw [List.find?_eq_none]
    intro block member
    obtain ⟨given, here, rfl⟩ := List.mem_map.mp member
    have inside := inRange given here
    simp only [fits, Int.ofNat_eq_natCast, Bool.not_eq_true', Bool.not_eq_false, Bool.and_eq_true,
      decide_eq_true_eq]
    omega
  unfold ofBlocks?
  split
  · rename_i found
    cases none.symm.trans found
  · refine congrArg Except.ok (toNat_inj.mp ?_)
    simp [Function.comp_def]

/-- The blocks of a number are its digits to the base 2^32. -/
theorem blocks_eq_ofNat {a : Natural} {n : Nat} (value : a.toNat = n) : a.blocks = Blocks.ofNat n := by
  rw [← value]
  exact (ofNat_value a.canonical).symm

theorem canonical_ofNat (n : Nat) : Canonical (Blocks.ofNat n) := by
  rw [← blocks_eq_ofNat (toNat_ofNat n)]
  exact (ofNat n).canonical

/-- The blocks that an addition writes, before they are checked and trimmed. -/
def sumBlocks (a b : Natural) : List Nat :=
  addCarry (align a.blocks b.blocks) 0

theorem inRange_sumBlocks (a b : Natural) : InRange (sumBlocks a b) :=
  inRange_addCarry (pairsInRange_align a.canonical.inRange b.canonical.inRange) (Nat.zero_le 1)

/-- The blocks of a sum and of a product are the digits of the sum and the product of the numbers to the base
2^32. No addition writes a block that fails the check, and a product is made of additions only: it is the
last sum of a multiplication, which doubles the sum and adds the left factor for one bit of the right factor
after the other, so that the sum is always the product with what has been taken of the right factor. -/
theorem add_multiply_blocks :
    (∀ a b : Natural, (a.add b).toNat = a.toNat + b.toNat ∧
      (a.add b).blocks = Blocks.ofNat (a.toNat + b.toNat) ∧ InRange (sumBlocks a b) ∧
      ofBlocks? ((sumBlocks a b).map Int.ofNat) = .ok (a.add b)) ∧
    (∀ a b : Natural, (a.multiply b).toNat = a.toNat * b.toNat ∧
      (a.multiply b).blocks = Blocks.ofNat (a.toNat * b.toNat) ∧
      Multiplying a b.blocks 0 (a.multiply b)) ∧
    (∀ (a sum : Natural) (taken : List Nat) (offset : Nat), Multiplying a taken offset sum →
      InRange taken →
      sum.toNat * Nat.pow 2 offset + taken.headD 0 % Nat.pow 2 offset * a.toNat = a.toNat * value taken) ∧
    ∀ n, Canonical (Blocks.ofNat n) := by
  refine ⟨fun a b => ?_, fun a b => ?_, fun a sum taken offset => Multiplying.balance, canonical_ofNat⟩
  · exact ⟨toNat_add a b, blocks_eq_ofNat (toNat_add a b), inRange_sumBlocks a b,
      ofBlocks?_of_inRange (inRange_sumBlocks a b)⟩
  · exact ⟨toNat_multiply a b, blocks_eq_ofNat (toNat_multiply a b),
      multiplying_multiplyBlocks a b.blocks⟩

/-! ## Division -/

theorem divide_zero (a : Natural) {divisor : Natural} (zero : divisor.toNat = 0) :
    a.divide divisor = .error .divisionByZero := by
  rw [divide, if_pos (isZero_iff.mpr zero)]

theorem divide_of_pos (a : Natural) {divisor : Natural} (positive : 0 < divisor.toNat) :
    a.divide divisor = .ok (a.divMod divisor) := by
  have nonzero : ¬ divisor.isZero = true := by
    rw [isZero_iff]
    omega
  rw [divide, if_neg nonzero]

/-- Only one quotient and remainder make up a dividend. -/
theorem divide_multiply_add (quotient : Natural) {divisor remainder : Natural}
    (less : remainder.toNat < divisor.toNat) :
    ((quotient.multiply divisor).add remainder).divide divisor = .ok (quotient, remainder) := by
  have positive : 0 < divisor.toNat := Nat.zero_lt_of_lt less
  rw [divide_of_pos _ positive]
  refine congrArg Except.ok (Prod.ext (toNat_inj.mp ?_) (toNat_inj.mp ?_))
  · rw [toNat_divMod_fst _ positive, toNat_add, toNat_multiply, Nat.mul_comm,
      Nat.mul_add_div positive, Nat.div_eq_of_lt less, Nat.add_zero]
  · rw [toNat_divMod_snd _ positive, toNat_add, toNat_multiply, Nat.mul_comm,
      Nat.mul_add_mod, Nat.mod_eq_of_lt less]

/-- Division fails exactly by zero. Otherwise the dividend is the quotient times the divisor and a
remainder below the divisor, and no other quotient and remainder make it up. After every bit of the dividend
the blocks of the quotient and of the remainder fit in their 32 bits, and so do those of the doubled
remainder with its lowest bit set; trimming what has been written in the end gives the quotient. -/
theorem divide_eq_quotient_remainder (a divisor : Natural) :
    (a.divide divisor = .error .divisionByZero ↔ divisor.toNat = 0) ∧
    (divisor.toNat ≠ 0 → ∃ quotient remainder written,
      a.divide divisor = .ok (quotient, remainder) ∧
      a.toNat = quotient.toNat * divisor.toNat + remainder.toNat ∧
      remainder.toNat < divisor.toNat ∧
      Canonical quotient.blocks ∧ Canonical remainder.blocks ∧
      Dividing divisor a.blocks 0 written remainder ∧ quotient.blocks = trim written) ∧
    (∀ remainder, remainder.toNat < divisor.toNat →
      ((a.multiply divisor).add remainder).divide divisor = .ok (a, remainder)) ∧
    ∀ taken offset quotient remainder, Dividing divisor taken offset quotient remainder →
      InRange quotient ∧ InRange remainder.blocks ∧ InRange (setLowBit remainder.double.blocks) := by
  refine ⟨⟨fun failed => ?_, a.divide_zero⟩, fun nonzero => ?_,
    fun remainder less => divide_multiply_add a less, ?_⟩
  · rcases Nat.eq_zero_or_pos divisor.toNat with zero | positive
    · exact zero
    · rw [divide_of_pos a positive] at failed
      cases failed
  · have positive := Nat.pos_of_ne_zero nonzero
    exact ⟨_, _, _, divide_of_pos a positive, (a.divMod_balance divisor).symm,
      a.divMod_remainder_lt positive, canonical _, canonical _,
      dividing_divideBlocks divisor a.blocks, rfl⟩
  · intro taken offset quotient remainder dividing
    exact ⟨dividing.unsettled.inRange, remainder.canonical.inRange,
      inRange_setLowBit remainder.double.canonical.inRange⟩

/-- A dividend of three blocks by a divisor of two. -/
example :
    (Prod.map blocks blocks <$> do
      (← ofBlocks? [7, 0, 5]).divide (← ofBlocks? [1, 3])).toOption =
      some ([2863311530, 1], [1431655773]) := by
  decide +kernel

/-! ## Greatest common divisors -/

/-- A run of Euclid's algorithm from `a` and `b`. While `b` is not zero, `a` is divided by `b`, and `b` and the
remainder take their places; in the end the number in the place of `a` is the result. -/
inductive Euclid : (a b result : Natural) → Prop
  | stop {a b : Natural} (zero : b.isZero = true) : Euclid a b a
  | turn {a b quotient remainder result : Natural} (nonzero : b.isZero = false)
      (step : a.divide b = .ok (quotient, remainder)) (later : Euclid b remainder result) :
      Euclid a b result

/-- A successful division: the parts that it takes the dividend apart into. -/
theorem parts_of_divide {a divisor quotient remainder : Natural}
    (step : a.divide divisor = .ok (quotient, remainder)) :
    quotient.toNat * divisor.toNat + remainder.toNat = a.toNat ∧ remainder.toNat < divisor.toNat := by
  rcases Nat.eq_zero_or_pos divisor.toNat with zero | positive
  · rw [divide_zero a zero] at step
    cases step
  · rw [divide_of_pos a positive] at step
    cases step
    exact ⟨a.divMod_balance divisor, a.divMod_remainder_lt positive⟩

/-- A turn keeps the common divisors. -/
theorem commonDivisor_of_divide {a b quotient remainder : Natural}
    (step : a.divide b = .ok (quotient, remainder)) (d : Nat) :
    d ∣ b.toNat ∧ d ∣ remainder.toNat ↔ d ∣ a.toNat ∧ d ∣ b.toNat := by
  rw [← (parts_of_divide step).1]
  constructor
  · rintro ⟨divisor, remainder⟩
    exact ⟨Nat.dvd_add (Nat.dvd_mul_left_of_dvd divisor _) remainder, divisor⟩
  · rintro ⟨dividend, divisor⟩
    exact ⟨divisor, (Nat.dvd_add_right (Nat.dvd_mul_left_of_dvd divisor _)).mp dividend⟩

/-- The divisors of the result are the common divisors of the two numbers. -/
theorem Euclid.dvd_iff {a b result : Natural} (euclid : Euclid a b result) (d : Nat) :
    d ∣ result.toNat ↔ d ∣ a.toNat ∧ d ∣ b.toNat := by
  induction euclid with
  | stop zero => simp [isZero_iff.mp zero]
  | turn nonzero step later ih => exact ih.trans (commonDivisor_of_divide step d)

theorem Euclid.unique {a b first second : Natural} (euclid : Euclid a b first)
    (again : Euclid a b second) : first = second := by
  have same : ∀ d, d ∣ first.toNat ↔ d ∣ second.toNat := fun d =>
    (euclid.dvd_iff d).trans (again.dvd_iff d).symm
  refine toNat_inj.mp (Nat.dvd_antisymm ?_ ?_)
  · exact (same _).mp (Nat.dvd_refl _)
  · exact (same _).mpr (Nat.dvd_refl _)

/-- The algorithm ends from any two numbers, since the remainder is less than the divisor each time. -/
theorem euclid_gcd (a b : Natural) : Euclid a b (gcd a b) := by
  fun_induction gcd a b with
  | case1 a b zero => exact .stop zero
  | case2 a b nonzero ih =>
    have positive : 0 < b.toNat := Nat.pos_of_ne_zero (mt isZero_iff.mpr nonzero)
    exact .turn (Bool.eq_false_iff.mpr nonzero) (divide_of_pos a positive) ih

/-- Euclid's algorithm ends from any two numbers, without a failing division, with their greatest common
divisor: it divides both, and every number that divides both divides it. That of a number and zero is the
number, also if it is zero itself. -/
theorem gcd_isGreatest (a b : Natural) :
    Euclid a b (gcd a b) ∧ (∀ result, Euclid a b result → result = gcd a b) ∧
    (∀ quotient remainder, a.divide b = .ok (quotient, remainder) → remainder.toNat < b.toNat) ∧
    (gcd a b).toNat ∣ a.toNat ∧ (gcd a b).toNat ∣ b.toNat ∧
    (∀ d, d ∣ a.toNat → d ∣ b.toNat → d ∣ (gcd a b).toNat) ∧
    gcd a zero = a ∧ gcd zero b = b := by
  have run := euclid_gcd a b
  obtain ⟨left, right⟩ := (run.dvd_iff _).mp (Nat.dvd_refl _)
  refine ⟨run, fun result again => again.unique run, fun _ _ step => (parts_of_divide step).2, left, right,
    fun d left right => (run.dvd_iff d).mpr ⟨left, right⟩, toNat_inj.mp ?_, toNat_inj.mp ?_⟩
  · rw [toNat_gcd, toNat_zero, Nat.gcd_zero_right]
  · rw [toNat_gcd, toNat_zero, Nat.gcd_zero_left]

end Abacus.Natural
