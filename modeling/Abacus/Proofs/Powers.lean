import Abacus.Proofs.GroundField

/-!
# Powers and quotients of residues

Powers with any integer exponent, inverses and quotients are those of the field of integers modulo the
prime. They fail where the field has none, and quotients of residues of different moduli fail before
anything else is looked at (`Residue.power_inverse_quotient`).
-/

namespace Abacus

namespace Residue
variable {p : Modulus}

theorem toZMod_eq_zero_iff {x : Residue p} : x.toZMod = 0 ↔ x.value = 0 := by
  rw [← isZero_iff, isZero, beq_iff_eq]

theorem power_of_negative {x : Residue p} (zero : x.value = 0) {exponent : Int} (negative : exponent < 0) :
    x.power exponent = .error .inverseOfZero := by
  rw [power_eq, if_pos ⟨negative, toZMod_eq_zero_iff.mpr zero⟩]

/-- A power exists if the exponent is not negative or the base not zero. -/
theorem exists_power {x : Residue p} {exponent : Int} (defined : 0 ≤ exponent ∨ x.value ≠ 0) :
    ∃ y, x.power exponent = .ok y ∧ y.toZMod = x.toZMod ^ exponent := by
  have proper : ¬ (exponent < 0 ∧ x.toZMod = 0) := by
    rintro ⟨negative, zero⟩
    rcases defined with nonnegative | nonzero
    · omega
    · exact nonzero (toZMod_eq_zero_iff.mp zero)
  exact ⟨_, by rw [power_eq, if_neg proper], toZMod_ofZMod _⟩

/-- The power with the exponent `p - 2` is the inverse, and the only one. -/
theorem multiply_eq_one_iff {x : Residue p} (nonzero : x.value ≠ 0) {z : Residue p} :
    z.multiply x = one p ↔ z = x.pow (p.value - 2) := by
  have some : x.toZMod ≠ 0 := mt toZMod_eq_zero_iff.mp nonzero
  rw [← toZMod_inj, ← toZMod_inj, toZMod_multiply, toZMod_one, toZMod_pow, pow_two_sub_eq_inv some]
  exact mul_eq_one_iff_eq_inv₀ some

/-- The quotient is the only residue that gives the dividend back. -/
theorem exists_divide {x : Residue p} (nonzero : x.value ≠ 0) (y : Residue p) :
    ∃ z, y.divide x = .ok z ∧ ∀ w, w.multiply x = y ↔ w = z := by
  have some : x.toZMod ≠ 0 := mt toZMod_eq_zero_iff.mp nonzero
  refine ⟨_, by rw [divide_eq, if_neg some], fun w => ?_⟩
  rw [← toZMod_inj, ← toZMod_inj, toZMod_multiply, toZMod_ofZMod]
  exact (eq_div_iff some).symm

end Residue

/-- The moduli are the primes below 2^32, and modulo each of them powers, inverses and quotients are those
of the field. A power with any integer exponent exists unless the base is zero and the exponent negative.
Every residue but zero has its one inverse in its power with exponent `p - 2`. Every residue divided by one
that is not zero has one quotient; a quotient by zero fails, and a quotient of residues of different moduli
fails by that, even by zero. -/
theorem Residue.power_inverse_quotient :
    (∀ n : Nat, (∃ p : Modulus, p.value = n) ↔ n.Prime ∧ n < 2 ^ 32) ∧
    ∀ (p : Modulus) (x : Residue p),
      (∀ n : Int, x.value = 0 ∧ n < 0 → x.power n = .error .inverseOfZero) ∧
      (∀ n : Int, ¬ (x.value = 0 ∧ n < 0) →
        ∃ y, x.power n = .ok y ∧ (y.value : ZMod p.value) = (x.value : ZMod p.value) ^ n) ∧
      (x.value = 0 → x.reciprocal = .error .inverseOfZero) ∧
      (x.value ≠ 0 → x.reciprocal = .ok (x.pow (p.value - 2)) ∧
        ∀ z : Residue p, z.multiply x = one p ↔ z = x.pow (p.value - 2)) ∧
      (∀ y : Residue p, x.value = 0 →
        Scalar.divide (.residue p y) (.residue p x) = .error .divisionByZero) ∧
      (∀ y : Residue p, x.value ≠ 0 →
        ∃ z : Residue p, Scalar.divide (.residue p y) (.residue p x) = .ok (.residue p z) ∧
          ∀ w : Residue p, w.multiply x = y ↔ w = z) ∧
      (∀ (q : Modulus) (y : Residue q), q.value ≠ p.value →
        Scalar.divide (.residue q y) (.residue p x) =
          .error (.incompatibleModuli q.value p.value)) ∧
      Error.inverseOfZero.kind = .divisionByZero := by
  refine ⟨fun n => Modulus.exists_value_iff, fun p x => ⟨fun n undefined => ?_, fun n defined => ?_,
    fun zero => ?_, fun nonzero => ⟨?_, fun z => multiply_eq_one_iff nonzero⟩, fun y zero => ?_,
    fun y nonzero => ?_, fun q y differ => Scalar.combine_of_ne differ _ _ y x, rfl⟩⟩
  · exact power_of_negative undefined.1 undefined.2
  · refine exists_power ?_
    omega
  · rw [reciprocal_eq, if_pos (toZMod_eq_zero_iff.mpr zero)]
  · rw [reciprocal, if_neg]
    rw [isZero_iff, toZMod_eq_zero_iff]
    exact nonzero
  · rw [Scalar.divide_residue, divide_eq, if_pos (toZMod_eq_zero_iff.mpr zero)]
    rfl
  · obtain ⟨z, divided, only⟩ := exists_divide nonzero y
    refine ⟨z, ?_, only⟩
    rw [Scalar.divide_residue, divided]
    rfl

end Abacus
