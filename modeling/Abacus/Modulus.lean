import Abacus.Error

/-!
# Prime moduli

The order of a field of residues is a prime below 2^32. Primality is decided by trial division by
two and the odd numbers up to the square root.
-/

namespace Abacus

/-- Whether none of `divisor`, `divisor + 2`, … divides `n`, up to the square root of `n`. -/
def noOddDivisorFrom (n divisor : Nat) : Bool :=
  if divisor * divisor ≤ n then
    if n % divisor = 0 then false else noOddDivisorFrom n (divisor + 2)
  else true
termination_by n + 1 - divisor
decreasing_by
  rename_i small _
  have : divisor ≤ n := Nat.le_trans (Nat.le_mul_self divisor) small
  omega

/-- Whether `n` is a prime number. -/
def isPrime (n : Int) : Bool :=
  if n < 2 then false
  else if n < 4 then true
  else if n % 2 = 0 then false
  else noOddDivisorFrom n.toNat 3

/-- A prime below 2^32. -/
structure Modulus where
  value : Nat
  prime : isPrime value = true
  fits : value < 0x100000000
deriving DecidableEq

namespace Modulus

/-- The modulus `value`, which must be a prime below 2^32. -/
def ofInt? (value : Int) : Except Error Modulus :=
  if valid : 2 ≤ value ∧ value < 0x100000000 ∧ isPrime value = true then
    .ok
      { value := value.toNat
        prime := by rw [Int.toNat_of_nonneg (by omega)]; exact valid.2.2
        fits := by omega }
  else .error (.compositeModulus value)

theorem two_le (p : Modulus) : 2 ≤ p.value := by
  have prime := p.prime
  unfold isPrime at prime
  split at prime
  · simp at prime
  · omega

theorem value_pos (p : Modulus) : 0 < p.value :=
  Nat.lt_of_lt_of_le (by decide) p.two_le

end Modulus

end Abacus
