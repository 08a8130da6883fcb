import Abacus.Proofs.GroundField
import Abacus.Proofs.Operations
import Mathlib.Data.Rat.Cast.Lemmas

/-!
# Rational arithmetic modulo a prime

A rational number whose denominator the prime does not divide has a residue, the numerator divided
by the denominator. Sums, differences and products of such numbers are of that kind again, and so
are quotients as long as the divisor does not vanish modulo the prime. So an expression without
variables that has a value modulo the prime has a rational value, and the one is the residue of the
other (`evaluate_modulo`).
-/

namespace Abacus

namespace Modulus
variable {p : Modulus} {x y : ℚ}

/-- The prime does not divide the denominator. -/
def Integral (p : Modulus) (x : ℚ) : Prop :=
  (x.den : ZMod p.value) ≠ 0

theorem integral_iff : p.Integral x ↔ ¬ p.value ∣ x.den := by
  rw [Integral, Ne, ZMod.natCast_eq_zero_iff]

/-- A denominator that divides one without the prime is without the prime. -/
theorem Integral.of_dvd {n : Nat} (whole : (n : ZMod p.value) ≠ 0) (divides : x.den ∣ n) :
    p.Integral x := by
  rintro vanishes
  obtain ⟨cofactor, rfl⟩ := divides
  rw [Nat.cast_mul, vanishes, zero_mul] at whole
  exact whole rfl

theorem integral_intCast (p : Modulus) (n : ℤ) : p.Integral n := by
  rw [Integral, Rat.den_intCast, Nat.cast_one]
  exact one_ne_zero

theorem Integral.product_ne_zero (left : p.Integral x) (right : p.Integral y) :
    ((x.den * y.den : Nat) : ZMod p.value) ≠ 0 := by
  rw [Nat.cast_mul]
  exact mul_ne_zero left right

theorem Integral.neg (integral : p.Integral x) : p.Integral (-x) := by
  rw [Integral, Rat.den_neg_eq_den]
  exact integral

theorem Integral.add (left : p.Integral x) (right : p.Integral y) : p.Integral (x + y) :=
  .of_dvd (left.product_ne_zero right) (Rat.add_den_dvd x y)

theorem Integral.sub (left : p.Integral x) (right : p.Integral y) : p.Integral (x - y) :=
  .of_dvd (left.product_ne_zero right) (Rat.sub_den_dvd x y)

theorem Integral.mul (left : p.Integral x) (right : p.Integral y) : p.Integral (x * y) :=
  .of_dvd (left.product_ne_zero right) (Rat.mul_den_dvd x y)

/-- A number that does not vanish modulo the prime has a numerator that does not. -/
theorem num_ne_zero (nonzero : (x : ZMod p.value) ≠ 0) : (x.num : ZMod p.value) ≠ 0 := by
  rintro vanishes
  rw [Rat.cast_def, vanishes, zero_div] at nonzero
  exact nonzero rfl

/-- The denominator of the inverse is the numerator, sign aside. -/
theorem Integral.inv (nonzero : (x : ZMod p.value) ≠ 0) : p.Integral x⁻¹ := by
  have top := num_ne_zero nonzero
  have some : x.num ≠ 0 := by
    rintro zero
    rw [zero, Int.cast_zero] at top
    exact top rfl
  rw [Integral, Rat.den_inv_of_ne_zero (Rat.num_ne_zero.mp some)]
  rwa [Ne, ZMod.natCast_eq_zero_iff, ← Int.natCast_dvd, ← ZMod.intCast_zmod_eq_zero_iff_dvd]

theorem Integral.div (left : p.Integral x) (nonzero : (y : ZMod p.value) ≠ 0) :
    p.Integral (x / y) := by
  rw [div_eq_mul_inv]
  exact left.mul (.inv nonzero)

end Modulus

/-! ## One operation -/

section Operations
variable {p : Modulus} {x y : ℚ}

/-- What a function makes of a residue, it makes of every rational number with that residue. -/
theorem UnaryFunction.exists_integral {function : UnaryFunction}
    {apply : Scalar → Except Error Scalar} (known : function.onNumber? = some apply)
    (integral : p.Integral x) {s : Scalar}
    (applied : apply ((GroundField.residues p).encode x) = .ok s) :
    ∃ z : ℚ, p.Integral z ∧ s = (GroundField.residues p).encode z ∧
      apply (GroundField.rationals.encode x) = .ok (GroundField.rationals.encode z) := by
  cases function with
  | neg =>
    cases known
    have rational := GroundField.rationals.representation.negate x
    have residue := (GroundField.residues p).representation.negate x
    refine ⟨-x, integral.neg, ?_, congrArg Except.ok rational⟩
    rw [Rat.cast_neg]
    exact (Except.ok.inj applied).symm.trans residue
  | inv =>
    cases known
    by_cases vanishes : (x : ZMod p.value) = 0
    · rw [vanishes] at applied
      cases applied.symm.trans (GroundField.residues p).representation.reciprocal_zero
    · have nonzero : x ≠ 0 := by
        rintro rfl
        exact vanishes Rat.cast_zero
      have rational := GroundField.rationals.representation.reciprocal x nonzero
      have residue := (GroundField.residues p).representation.reciprocal x vanishes
      refine ⟨x⁻¹, .inv vanishes, ?_, rational⟩
      rw [Rat.cast_inv_of_ne_zero (Modulus.num_ne_zero vanishes)]
      exact Except.ok.inj (applied.symm.trans residue)
  | det => cases known
  | rank => cases known
  | rref => cases known

/-- What an operation makes of two residues, it makes of all rational numbers with those residues. -/
theorem BinaryOperation.exists_integral {operation : BinaryOperation}
    {combine : Scalar → Scalar → Except Error Scalar}
    (known : operation.onNumbers? = some combine) (left : p.Integral x) (right : p.Integral y)
    {s : Scalar}
    (combined : combine ((GroundField.residues p).encode x) ((GroundField.residues p).encode y) =
      .ok s) :
    ∃ z : ℚ, p.Integral z ∧ s = (GroundField.residues p).encode z ∧
      combine (GroundField.rationals.encode x) (GroundField.rationals.encode y) =
        .ok (GroundField.rationals.encode z) := by
  cases operation with
  | add =>
    cases known
    refine ⟨x + y, left.add right, ?_, GroundField.rationals.representation.add x y⟩
    rw [Rat.cast_add_of_ne_zero left right]
    exact Except.ok.inj (combined.symm.trans ((GroundField.residues p).representation.add x y))
  | sub =>
    cases known
    refine ⟨x - y, left.sub right, ?_, GroundField.rationals.representation.subtract x y⟩
    rw [Rat.cast_sub_of_ne_zero left right]
    exact Except.ok.inj (combined.symm.trans ((GroundField.residues p).representation.subtract x y))
  | mul =>
    cases known
    refine ⟨x * y, left.mul right, ?_, GroundField.rationals.representation.multiply x y⟩
    rw [Rat.cast_mul_of_ne_zero left right]
    exact Except.ok.inj (combined.symm.trans ((GroundField.residues p).representation.multiply x y))
  | div =>
    cases known
    by_cases vanishes : (y : ZMod p.value) = 0
    · rw [vanishes] at combined
      cases combined.symm.trans ((GroundField.residues p).representation.divide_zero x)
    · have nonzero : y ≠ 0 := by
        rintro rfl
        exact vanishes Rat.cast_zero
      have rational := GroundField.rationals.representation.divide x y nonzero
      have residue := (GroundField.residues p).representation.divide x y vanishes
      refine ⟨x / y, left.div vanishes, ?_, rational⟩
      rw [Rat.cast_div_of_ne_zero left (Modulus.num_ne_zero vanishes)]
      exact Except.ok.inj (combined.symm.trans residue)
  | pow => cases known
  | scale => cases known

end Operations

/-! ## Expressions without variables -/

namespace Expr

/-- Integer literals under the four operations, negation and inversion. -/
def IsArithmetic : Expr → Prop
  | literal text => ∃ n, Numeral text.toList n
  | var _ => False
  | unary function operand => (function = .neg ∨ function = .inv) ∧ operand.IsArithmetic
  | binary operation left right =>
    operation ∈ BinaryOperation.signs ∧ left.IsArithmetic ∧ right.IsArithmetic

/-- Where an expression has a residue for its value, it has a rational value with that residue. -/
def EvaluatesModulo (p : Modulus) (store : Store Value) (e : Expr) : Prop :=
  ∀ ⦃levels s⦄, evaluateScalar store levels (.residues p.value) e = .ok s →
    ∃ x : ℚ, p.Integral x ∧ s = (GroundField.residues p).encode x ∧
      evaluateScalar store levels .rationals e = .ok (GroundField.rationals.encode x)

namespace EvaluatesModulo
variable {p : Modulus} {store : Store Value}

theorem literal {text : String} {n : Int} (numeral : Numeral text.toList n) :
    EvaluatesModulo p store (.literal text) := by
  intro levels s evaluated
  have residue := (GroundField.residues p).representation.read numeral
  have rational := GroundField.rationals.representation.read numeral
  rw [evaluateScalar] at evaluated ⊢
  refine ⟨n, p.integral_intCast n, ?_, rational⟩
  rw [Rat.cast_intCast]
  exact Except.ok.inj (evaluated.symm.trans residue)

theorem unary {function : UnaryFunction} {apply : Scalar → Except Error Scalar}
    (known : function.onNumber? = some apply) {e : Expr} (operand : EvaluatesModulo p store e) :
    EvaluatesModulo p store (.unary function e) := by
  intro levels s evaluated
  cases levels with
  | zero =>
    rw [evaluateScalar] at evaluated
    cases evaluated
  | succ levels =>
    rw [evaluateScalar_unary known] at evaluated ⊢
    obtain ⟨t, first, applied⟩ := bind_eq_ok_iff.mp evaluated
    obtain ⟨x, integral, rfl, rational⟩ := operand first
    rw [rational]
    exact function.exists_integral known integral applied

theorem binary {operation : BinaryOperation} {combine : Scalar → Scalar → Except Error Scalar}
    (known : operation.onNumbers? = some combine) {l r : Expr} (left : EvaluatesModulo p store l)
    (right : EvaluatesModulo p store r) : EvaluatesModulo p store (.binary operation l r) := by
  intro levels s evaluated
  cases levels with
  | zero =>
    rw [evaluateScalar] at evaluated
    cases evaluated
  | succ levels =>
    rw [evaluateScalar_binary known] at evaluated ⊢
    obtain ⟨t, first, rest⟩ := bind_eq_ok_iff.mp evaluated
    obtain ⟨u, second, combined⟩ := bind_eq_ok_iff.mp rest
    obtain ⟨x, leftIntegral, rfl, leftRational⟩ := left first
    obtain ⟨y, rightIntegral, rfl, rightRational⟩ := right second
    rw [leftRational, rightRational]
    exact operation.exists_integral known leftIntegral rightIntegral combined

end EvaluatesModulo

theorem evaluatesModulo (p : Modulus) (store : Store Value) {e : Expr}
    (arithmetic : e.IsArithmetic) : EvaluatesModulo p store e := by
  induction e with
  | literal text =>
    obtain ⟨n, numeral⟩ := arithmetic
    exact .literal numeral
  | var name => exact arithmetic.elim
  | unary function operand ih =>
    obtain ⟨place, arithmetic⟩ := arithmetic
    rcases place with rfl | rfl
    · exact .unary rfl (ih arithmetic)
    · exact .unary rfl (ih arithmetic)
  | binary operation l r left right =>
    obtain ⟨place, leftArithmetic, rightArithmetic⟩ := arithmetic
    simp only [BinaryOperation.signs, List.mem_cons, List.not_mem_nil, or_false] at place
    rcases place with rfl | rfl | rfl | rfl
    all_goals exact .binary rfl (left leftArithmetic) (right rightArithmetic)

/-- An expression of integer literals with a value modulo a prime has a rational value, within the same
levels of nesting, however many these are. In lowest terms its denominator is not divisible by the prime,
and the value modulo the prime is the numerator times the inverse of the denominator. So where the rational
value does not exist, neither does the value modulo any prime. -/
theorem evaluate_modulo (store : Store Value) {e : Expr} (arithmetic : e.IsArithmetic)
    (p : Modulus) (levels : Nat) :
    (∀ value, e.evaluate store (.scalar (.residues p.value)) levels = .ok value →
      ∃ (r : Residue p) (x : Rational), value = .scalar (.residue p r) ∧
        e.evaluate store (.scalar .rationals) levels = .ok (.scalar (.rational x)) ∧
        Nat.Coprime x.numerator.toInt.natAbs x.denominator.toNat ∧
        ¬ p.value ∣ x.denominator.toNat ∧
        (r.value : ZMod p.value) =
          x.numerator.toInt * (x.denominator.toNat : ZMod p.value)⁻¹) ∧
    (Fails (e.evaluate store (.scalar .rationals) levels) →
      Fails (e.evaluate store (.scalar (.residues p.value)) levels)) := by
  have modulo := evaluatesModulo p store arithmetic
  constructor
  · intro value evaluated
    obtain ⟨s, residue, rfl⟩ := map_eq_ok_iff.mp evaluated
    obtain ⟨x, integral, rfl, rational⟩ := modulo residue
    refine ⟨Residue.ofZMod x, Rational.ofRat x, rfl, ?_, (Rational.ofRat x).toRat.reduced, ?_, ?_⟩
    · exact map_eq_ok_iff.mpr ⟨_, rational, rfl⟩
    · rw [Rational.ofRat, Natural.toNat_ofNat]
      exact Modulus.integral_iff.mp integral
    · rw [Rational.ofRat, Natural.toNat_ofNat, Integer.toInt_ofInt, ← div_eq_mul_inv, ← Rat.cast_def]
      exact Residue.toZMod_ofZMod _
  · rintro ⟨error, failed⟩
    cases attempt : e.evaluate store (.scalar (.residues p.value)) levels with
    | error other => exact ⟨other, rfl⟩
    | ok value =>
      obtain ⟨s, residue, -⟩ := map_eq_ok_iff.mp attempt
      obtain ⟨x, -, -, rational⟩ := modulo residue
      cases failed.symm.trans (map_eq_ok_iff.mpr ⟨_, rational, rfl⟩)

/-- Three divided by six. -/
def half : Expr :=
  .binary .div (.literal "3") (.unary .neg (.literal "-6"))

theorem half_isArithmetic : half.IsArithmetic := by
  refine ⟨by decide, ⟨_, .unsigned (isDigits_singleton rfl)⟩, Or.inl rfl, ?_⟩
  exact ⟨_, .signed (isDigits_singleton rfl)⟩

theorem evaluate_modulo_half :
    half.IsArithmetic ∧ ∃ (r : Residue .seven) (x : Rational),
      half.evaluate .empty (.scalar (.residues 7)) = .ok (.scalar (.residue .seven r)) ∧
      half.evaluate .empty (.scalar .rationals) = .ok (.scalar (.rational x)) ∧
      (r.value : ZMod 7) = x.numerator.toInt * (x.denominator.toNat : ZMod 7)⁻¹ := by
  have residue : half.evaluate .empty (.scalar (.residues 7)) =
      .ok (.scalar (.residue .seven ⟨4, by decide⟩)) := by decide +kernel
  obtain ⟨r, x, same, rational, -, -, quotient⟩ :=
    (evaluate_modulo .empty half_isArithmetic .seven maxLevels).1 _ residue
  rw [same] at residue
  exact ⟨half_isArithmetic, r, x, residue, rational, quotient⟩

end Expr

end Abacus
