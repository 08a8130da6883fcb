import Abacus.Modulus
import Mathlib.Data.Nat.Prime.Basic

/-!
# Primality by trial division

Trial division accepts exactly the prime numbers, so the moduli are the primes below 2^32, and whatever is
none of them is refused as a modulus.
-/

namespace Abacus

/-- The candidates are `divisor`, `divisor + 2`, … up to the square root. -/
theorem noOddDivisorFrom_iff (n divisor : Nat) :
    noOddDivisorFrom n divisor = true ↔
      ∀ step, (divisor + 2 * step) * (divisor + 2 * step) ≤ n → ¬ divisor + 2 * step ∣ n := by
  fun_induction noOddDivisorFrom n divisor with
  | case1 divisor small divides =>
    simp only [Bool.false_eq_true, false_iff, not_forall]
    exact ⟨0, small, not_not.mpr (Nat.dvd_of_mod_eq_zero divides)⟩
  | case2 divisor small apart ih =>
    rw [ih]
    constructor
    · intro later step fits divides
      cases step with
      | zero => exact apart (Nat.mod_eq_zero_of_dvd divides)
      | succ step =>
        have shift : divisor + 2 * (step + 1) = divisor + 2 + 2 * step := by omega
        rw [shift] at fits divides
        exact later step fits divides
    · intro all step fits divides
      have shift : divisor + 2 + 2 * step = divisor + 2 * (step + 1) := by omega
      rw [shift] at fits divides
      exact all (step + 1) fits divides
  | case3 divisor large =>
    simp only [true_iff]
    intro step fits _
    exact large (le_trans (Nat.mul_self_le_mul_self (Nat.le_add_right _ _)) fits)

/-- An odd number is prime if no odd number from three up to its square root divides it. -/
theorem prime_of_noOddDivisorFrom {n : Nat} (large : 2 ≤ n) (odd : n % 2 = 1)
    (undivided : noOddDivisorFrom n 3 = true) : n.Prime := by
  by_contra composite
  have square := Nat.minFac_sq_le_self (by omega) composite
  have divides := Nat.minFac_dvd n
  have atLeast := (Nat.minFac_prime (show n ≠ 1 by omega)).two_le
  have factorOdd : n.minFac % 2 = 1 := by
    by_contra even
    have two : 2 ∣ n := Nat.dvd_trans (Nat.dvd_of_mod_eq_zero (by omega)) divides
    omega
  have candidate : 3 + 2 * ((n.minFac - 3) / 2) = n.minFac := by omega
  refine (noOddDivisorFrom_iff n 3).mp undivided ((n.minFac - 3) / 2) ?_ ?_
  · rw [candidate, ← pow_two]
    exact square
  · rw [candidate]
    exact divides

theorem noOddDivisorFrom_of_prime {n : Nat} (prime : n.Prime) : noOddDivisorFrom n 3 = true := by
  rw [noOddDivisorFrom_iff]
  intro step fits divides
  rcases (Nat.dvd_prime prime).mp divides with one | whole
  · omega
  · rw [whole] at fits
    have := Nat.lt_mul_self_iff.mpr prime.one_lt
    omega

/-- Trial division decides primality. -/
theorem isPrime_iff {n : Int} : isPrime n = true ↔ n.toNat.Prime := by
  rw [isPrime]
  by_cases below : n < 2
  · have small : ¬ n.toNat.Prime := fun prime => by
      have := prime.two_le
      omega
    simp [below, small]
  · by_cases tiny : n < 4
    · have cases : n = 2 ∨ n = 3 := by omega
      rcases cases with rfl | rfl <;> simp [Nat.prime_two, Nat.prime_three]
    · by_cases even : n % 2 = 0
      · have composite : ¬ n.toNat.Prime := fun prime => by
          have two := (Nat.prime_dvd_prime_iff_eq Nat.prime_two prime).mp (by omega)
          omega
        simp [below, tiny, even, composite]
      · simp only [below, tiny, even, if_false]
        exact ⟨prime_of_noOddDivisorFrom (by omega) (by omega), noOddDivisorFrom_of_prime⟩

namespace Modulus

theorem prime_value (p : Modulus) : p.value.Prime :=
  isPrime_iff.mp p.prime

/-- Moduli are told apart by their values. -/
theorem value_inj {p q : Modulus} : p.value = q.value ↔ p = q := by
  refine ⟨fun same => ?_, fun same => same ▸ rfl⟩
  cases p
  cases q
  simp_all only

/-- Every prime below 2^32 is a modulus. -/
def ofPrime (p : Nat) (prime : p.Prime) (fits : p < 2 ^ 32) : Modulus :=
  ⟨p, isPrime_iff.mpr prime, fits⟩

/-- The moduli are the primes below 2^32. -/
theorem exists_value_iff {n : Nat} : (∃ p : Modulus, p.value = n) ↔ n.Prime ∧ n < 2 ^ 32 := by
  constructor
  · rintro ⟨p, rfl⟩
    exact ⟨p.prime_value, p.fits⟩
  · rintro ⟨prime, fits⟩
    exact ⟨.ofPrime n prime fits, rfl⟩

theorem ofInt?_value (p : Modulus) : ofInt? p.value = .ok p := by
  have large := p.two_le
  have fits := p.fits
  rw [ofInt?, dif_pos ⟨by omega, by omega, p.prime⟩]
  exact congrArg Except.ok (value_inj.mp (Int.toNat_natCast p.value))

/-- Any other number is refused. -/
theorem ofInt?_of_forall_ne {m : Int} (other : ∀ p : Modulus, (p.value : Int) ≠ m) :
    ofInt? m = .error (.compositeModulus m) := by
  rw [ofInt?]
  split
  · rename_i valid
    have prime := isPrime_iff.mp valid.2.2
    exact absurd (Int.toNat_of_nonneg (by omega)) (other (.ofPrime m.toNat prime (by omega)))
  · rfl

theorem ofInt?_eq_ok_iff {m : Nat} {p : Modulus} : ofInt? m = .ok p ↔ p.value = m := by
  constructor
  · intro found
    rw [ofInt?] at found
    split at found
    · cases found
      exact Int.toNat_natCast m
    · cases found
  · rintro rfl
    exact ofInt?_value p

theorem ofInt?_eq_error_iff {m : Nat} {error : Error} :
    ofInt? m = .error error ↔ ¬ (m.Prime ∧ m < 2 ^ 32) ∧ error = .compositeModulus m := by
  rw [← exists_value_iff]
  constructor
  · intro failed
    have other : ¬ ∃ p : Modulus, p.value = m := by
      rintro ⟨p, rfl⟩
      cases failed.symm.trans (ofInt?_value p)
    have refused := ofInt?_of_forall_ne fun p same => other ⟨p, Int.natCast_inj.mp same⟩
    exact ⟨other, Except.error.inj (failed.symm.trans refused)⟩
  · rintro ⟨other, rfl⟩
    exact ofInt?_of_forall_ne fun p same => other ⟨p, Int.natCast_inj.mp same⟩

/-- The modulus five. -/
def five : Modulus :=
  ⟨5, by decide +kernel, by decide⟩

/-- The modulus seven. -/
def seven : Modulus :=
  ⟨7, by decide +kernel, by decide⟩

instance (p : Modulus) : Fact p.value.Prime :=
  ⟨p.prime_value⟩

end Modulus

end Abacus
