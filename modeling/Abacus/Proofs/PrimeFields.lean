import Abacus.Proofs.Computation
import Abacus.Proofs.GroundField

/-!
# Prime fields

The moduli that are accepted are exactly the primes below 2^32 (`Modulus.accepts_primes`). Modulo each of
them sums, differences, products and negatives are those of the integers, residues of two moduli do not
combine, and no sum that an addition or a multiplication forms reaches twice the modulus before it wraps
around (`Residue.sums_and_products`).
-/

namespace Abacus

/-! ## Moduli -/

theorem prime_toNat_iff {n : Int} : n.toNat.Prime ↔ ∃ q : Nat, q.Prime ∧ (q : Int) = n := by
  constructor
  · intro prime
    have := prime.two_le
    exact ⟨n.toNat, prime, Int.toNat_of_nonneg (by omega)⟩
  · rintro ⟨q, prime, rfl⟩
    exact prime

/-- Integers make residues modulo every prime below 2^32. -/
theorem Scalar.residueOf_value (v : Int) (p : Modulus) :
    residueOf v p.value = .ok (.residue p (.ofInt p v)) :=
  bind_eq_of_ok (Modulus.ofInt?_value p) _

/-- Trial division comes to an end for every integer and accepts the prime numbers. So a modulus is accepted,
and with it a residue of any integer, if it is a prime below 2^32, and any other integer is refused. -/
theorem Modulus.accepts_primes :
    (∀ n : Int, isPrime n = true ↔ ∃ q : Nat, q.Prime ∧ (q : Int) = n) ∧
    ∀ m : Int,
      ((∃ q : Nat, q.Prime ∧ q < 2 ^ 32 ∧ (q : Int) = m) →
        ∃ p : Modulus, (p.value : Int) = m ∧ ofInt? m = .ok p ∧
          ∀ v, Scalar.residueOf v m = .ok (.residue p (.ofInt p v))) ∧
      ((¬ ∃ q : Nat, q.Prime ∧ q < 2 ^ 32 ∧ (q : Int) = m) →
        ofInt? m = .error (.compositeModulus m) ∧
          ∀ v, Scalar.residueOf v m = .error (.compositeModulus m)) := by
  refine ⟨fun n => isPrime_iff.trans prime_toNat_iff, fun m => ⟨?_, fun unfit => ?_⟩⟩
  · rintro ⟨q, prime, fits, rfl⟩
    obtain ⟨p, rfl⟩ := exists_value_iff.mpr ⟨prime, fits⟩
    exact ⟨p, rfl, ofInt?_value p, fun v => Scalar.residueOf_value v p⟩
  · have refused : ofInt? m = .error (.compositeModulus m) :=
      ofInt?_of_forall_ne fun p same => unfit ⟨p.value, p.prime_value, p.fits, same⟩
    refine ⟨refused, fun v => ?_⟩
    rw [Scalar.residueOf, refused]
    rfl

namespace Residue
variable {p : Modulus}

/-! ## Sums before they wrap around -/

/-- The sum, with the number that it is before it wraps around put on record. -/
def addRecorded (x y : Residue p) : StateM (List Nat) (Residue p) := do
  modify fun record => (x.value + y.value) :: record
  return x.add y

/-- Adds as `addTimes` does, with every sum put on record. -/
def addTimesRecorded (sum addend : Residue p) (count : Nat) : StateM (List Nat) (Residue p) :=
  if count = 0 then return sum
  else do
    let total ← if count % 2 = 1 then addRecorded sum addend else pure sum
    let double ← addRecorded addend addend
    addTimesRecorded total double (count / 2)

/-- The product, with every sum on the way put on record. -/
def multiplyRecorded (x y : Residue p) : StateM (List Nat) (Residue p) :=
  addTimesRecorded (zero p) x y.value

theorem value_add_lt (x y : Residue p) : x.value + y.value < 2 * p.value := by
  have := x.value_lt
  have := y.value_lt
  omega

/-- One bit of the count goes on as without a record, and puts sums below twice the modulus on it. -/
theorem addTimesRecorded_step (sum addend : Residue p) {count : Nat} (more : count ≠ 0) (record : List Nat) :
    ∃ sums, addTimesRecorded sum addend count record =
        addTimesRecorded (if count % 2 = 1 then sum.add addend else sum) (addend.add addend) (count / 2)
          (sums ++ record) ∧
      ∀ s ∈ sums, s < 2 * p.value := by
  have double := value_add_lt addend addend
  rw [addTimesRecorded, if_neg more]
  by_cases odd : count % 2 = 1
  · rw [if_pos odd, if_pos odd]
    refine ⟨[addend.value + addend.value, sum.value + addend.value], rfl, ?_⟩
    exact List.forall_mem_cons.mpr ⟨double, List.forall_mem_singleton.mpr (value_add_lt sum addend)⟩
  · rw [if_neg odd, if_neg odd]
    exact ⟨[addend.value + addend.value], rfl, List.forall_mem_singleton.mpr double⟩

/-- Recording changes nothing, and only sums below twice the modulus come on record. -/
theorem addTimesRecorded_eq (sum addend : Residue p) (count : Nat) (record : List Nat) :
    ∃ sums, addTimesRecorded sum addend count record = (addTimes sum addend count, sums ++ record) ∧
      ∀ s ∈ sums, s < 2 * p.value := by
  fun_induction addTimes sum addend count generalizing record with
  | case1 sum addend =>
    rw [addTimesRecorded, if_pos rfl]
    exact ⟨[], rfl, List.forall_mem_nil _⟩
  | case2 sum addend count more ih =>
    obtain ⟨first, step, firstSmall⟩ := addTimesRecorded_step sum addend more record
    obtain ⟨others, run, othersSmall⟩ := ih (first ++ record)
    refine ⟨others ++ first, ?_, List.forall_mem_append.mpr ⟨othersSmall, firstSmall⟩⟩
    rw [step, List.append_assoc]
    exact run

theorem multiplyRecorded_eq (x y : Residue p) :
    ∃ sums, multiplyRecorded x y [] = (x.multiply y, sums) ∧ ∀ s ∈ sums, s < 2 * p.value := by
  obtain ⟨sums, run, small⟩ := addTimesRecorded_eq (zero p) x y.value []
  rw [List.append_nil] at run
  exact ⟨sums, run, small⟩

/-! ## The integers modulo the prime -/

theorem eq_ofInt_of_toZMod {x : Residue p} {n : Int} (same : x.toZMod = n) : x = ofInt p n :=
  toZMod_inj.mp (by rw [same, ofInt_eq, toZMod_ofZMod])

theorem add_eq_ofInt (x y : Residue p) : x.add y = ofInt p (x.value + y.value) := by
  refine eq_ofInt_of_toZMod ?_
  rw [toZMod_add, Int.cast_add, Int.cast_natCast, Int.cast_natCast, toZMod, toZMod]

theorem subtract_eq_ofInt (x y : Residue p) : x.subtract y = ofInt p (x.value - y.value) := by
  refine eq_ofInt_of_toZMod ?_
  rw [toZMod_subtract, Int.cast_sub, Int.cast_natCast, Int.cast_natCast, toZMod, toZMod]

theorem multiply_eq_ofInt (x y : Residue p) : x.multiply y = ofInt p (x.value * y.value) := by
  refine eq_ofInt_of_toZMod ?_
  rw [toZMod_multiply, Int.cast_mul, Int.cast_natCast, Int.cast_natCast, toZMod, toZMod]

theorem negate_eq_ofInt (x : Residue p) : x.negate = ofInt p (-x.value) := by
  refine eq_ofInt_of_toZMod ?_
  rw [toZMod_negate, Int.cast_neg, Int.cast_natCast, toZMod]

end Residue

open Residue in
/-- Modulo every prime below 2^32, an integer is stored as its remainder, and sums, differences, products and
negatives of residues are those of the integers. No sum on the way to a sum or a product reaches twice the
prime before it wraps around. Residues of two primes do not combine, and the primes are reported in order. -/
theorem Residue.sums_and_products :
    (∀ n : Nat, (∃ p : Modulus, p.value = n) ↔ n.Prime ∧ n < 2 ^ 32) ∧
    ∀ p : Modulus,
      (∀ n : Int, Scalar.residueOf n p.value = .ok (.residue p (ofInt p n)) ∧
        ((ofInt p n).value : Int) = n % p.value ∧ (ofInt p n).value < p.value) ∧
      (∀ x y : Residue p,
        Scalar.add (.residue p x) (.residue p y) = .ok (.residue p (ofInt p (x.value + y.value))) ∧
        Scalar.subtract (.residue p x) (.residue p y) = .ok (.residue p (ofInt p (x.value - y.value))) ∧
        Scalar.multiply (.residue p x) (.residue p y) = .ok (.residue p (ofInt p (x.value * y.value))) ∧
        Scalar.negate (.residue p x) = .residue p (ofInt p (-x.value)) ∧
        x.value + y.value < 2 * p.value ∧
        ∃ sums, multiplyRecorded x y [] = (x.multiply y, sums) ∧ ∀ s ∈ sums, s < 2 * p.value) ∧
      ∀ (q : Modulus) (x : Residue p) (y : Residue q), p.value ≠ q.value →
        Scalar.add (.residue p x) (.residue q y) = .error (.incompatibleModuli p.value q.value) ∧
        Scalar.subtract (.residue p x) (.residue q y) = .error (.incompatibleModuli p.value q.value) ∧
        Scalar.multiply (.residue p x) (.residue q y) = .error (.incompatibleModuli p.value q.value) := by
  refine ⟨fun n => Modulus.exists_value_iff, fun p => ⟨fun n => ?_, fun x y => ?_, fun q x y differ => ?_⟩⟩
  · exact ⟨Scalar.residueOf_value n p, eq_ofInt_iff.mp rfl, (ofInt p n).value_lt⟩
  · rw [Scalar.add_residue, Scalar.subtract_residue, Scalar.multiply_residue, Scalar.negate, add_eq_ofInt,
      subtract_eq_ofInt, negate_eq_ofInt]
    refine ⟨rfl, rfl, ?_, rfl, value_add_lt x y, multiplyRecorded_eq x y⟩
    rw [multiply_eq_ofInt]
  · exact ⟨Scalar.combine_of_ne differ _ _ x y, Scalar.combine_of_ne differ _ _ x y,
      Scalar.combine_of_ne differ _ _ x y⟩

end Abacus
