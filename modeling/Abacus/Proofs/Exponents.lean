import Abacus.Proofs.Nesting
import Abacus.Proofs.Powers

/-!
# Exponents of any length

An exponent is folded digit by digit into the range up to `p - 1`, with its sign, and raises every residue
to the same power as the integer that it denotes in full (`exponent_range`, `Residue.power_eq_of_numeral`).
So an expression raised to a numeral has the power of its value for a value, wherever that exists, and
otherwise fails in the way that the power does (`Expr.evaluate_pow`).
-/

namespace Abacus

theorem reduceExponent_le (p : Modulus) {digits : List Char} (all : ∀ c ∈ digits, c.isDigit = true) :
    reduceExponent digits p.value ≤ p.value - 1 := by
  have order : 0 < p.value - 1 := by
    have := p.two_le
    omega
  have folded := Nat.mod_lt (digitsValue digits) order
  rw [← foldDigits_eq _ all] at folded
  rw [reduceExponent]
  split
  · exact Nat.zero_le _
  · split
    · exact Nat.le_refl _
    · rename_i rest some
      omega

theorem sign_reduceExponent (p : Modulus) {digits : List Char} (all : ∀ c ∈ digits, c.isDigit = true) :
    (reduceExponent digits p.value : Int).sign = (digitsValue digits : Int).sign := by
  have zeros := reduceExponent_eq_zero_iff p all
  by_cases zero : digitsValue digits = 0
  · rw [zero, zeros.mpr zero]
  · rw [Int.sign_natCast_of_ne_zero zero, Int.sign_natCast_of_ne_zero (mt zeros.mp zero)]

/-- Folding keeps the sign of an exponent, and whether it is zero, and leaves at most `p - 1` of it. -/
theorem exponent_range (p : Modulus) {chars : List Char} {n : Int} (numeral : Numeral chars n) :
    (exponentOf chars p.value).sign = n.sign ∧ (exponentOf chars p.value).natAbs ≤ p.value - 1 := by
  cases numeral with
  | unsigned word =>
    rw [exponentOf_unsigned word, Int.natAbs_natCast]
    exact ⟨sign_reduceExponent p word.all, reduceExponent_le p word.all⟩
  | signed word =>
    rw [exponentOf_signed word, Int.sign_neg, Int.sign_neg, Int.natAbs_neg, Int.natAbs_natCast]
    exact ⟨congrArg _ (sign_reduceExponent p word.all), reduceExponent_le p word.all⟩

/-- A folded exponent raises every residue to the same power as the full one, or fails like it. -/
theorem Residue.power_eq_of_numeral {p : Modulus} (x : Residue p) {chars : List Char} {n : Int}
    (numeral : Numeral chars n) : x.power (exponentOf chars p.value) = x.power n := by
  rw [power_exponentOf x numeral, power_eq x n]

namespace Expr

variable {p : Modulus} {store : Store Value} {levels : Nat} {e : Expr} {x : Residue p} {text : String}
  {n : Int}

/-- An expression raised to a numeral takes one level more than the expression. Where that is left, its value
is the power of the value. -/
theorem evaluate_power
    (evaluated : evaluate store (.scalar (.residues p.value)) e levels = .ok (.scalar (.residue p x)))
    (numeral : Numeral text.toList n) (other : Nat) :
    evaluate store (.scalar (.residues p.value)) (.binary .pow e (.literal text)) other =
      if e.depth < other then (fun y => .scalar (.residue p y)) <$> x.power n
      else .error .nestedTooDeeply := by
  cases other with
  | zero => rw [evaluate_binary_zero, if_neg (Nat.not_lt_zero _)]
  | succ other =>
    rw [evaluate, evaluateScalar, evaluateScalar_of_ok evaluated other]
    by_cases room : e.depth < other + 1
    · rw [within_of_le (Nat.le_of_lt_succ room), if_pos room]
      show Value.scalar <$> Scalar.residue p <$> x.power (exponentOf text.toList p.value) = _
      rw [x.power_eq_of_numeral numeral]
      cases x.power n with
      | error error => rfl
      | ok y => rfl
    · rw [within_of_lt (Nat.lt_of_succ_le (Nat.not_lt.mp room)), if_neg room]
      rfl

/-- Let an expression have the residue `x` for a value within some levels. Raised to the numeral for `n`, it
has the power of `x` with the full exponent `n` for a value, or fails like this power: by zero having no
inverse, if `x` is zero and `n` negative. That holds within whatever number of levels leaves one for the power;
within any other it is nested too deeply. The exponent that is raised to in its place keeps the sign of `n`, is
not above `p - 1`, and makes no difference to any residue. -/
theorem evaluate_pow
    (evaluated : evaluate store (.scalar (.residues p.value)) e levels = .ok (.scalar (.residue p x)))
    (numeral : Numeral text.toList n) :
    (∀ other, e.depth < other →
      evaluate store (.scalar (.residues p.value)) (.binary .pow e (.literal text)) other =
        (fun y => .scalar (.residue p y)) <$> x.power n) ∧
    (∀ other, other ≤ e.depth →
      evaluate store (.scalar (.residues p.value)) (.binary .pow e (.literal text)) other =
        .error .nestedTooDeeply) ∧
    (x.value = 0 ∧ n < 0 → x.power n = .error .inverseOfZero) ∧
    (¬ (x.value = 0 ∧ n < 0) →
      ∃ y, x.power n = .ok y ∧ (y.value : ZMod p.value) = (x.value : ZMod p.value) ^ n) ∧
    Error.inverseOfZero.kind = .divisionByZero ∧
    (exponentOf text.toList p.value).sign = n.sign ∧
    (exponentOf text.toList p.value).natAbs ≤ p.value - 1 ∧
    ∀ z : Residue p, z.power (exponentOf text.toList p.value) = z.power n := by
  obtain ⟨sign, small⟩ := exponent_range p numeral
  refine ⟨fun other room => ?_, fun other tooDeep => ?_, fun undefined => ?_, fun defined => ?_, rfl,
    sign, small, fun z => z.power_eq_of_numeral numeral⟩
  · rw [evaluate_power evaluated numeral, if_pos room]
  · rw [evaluate_power evaluated numeral, if_neg (Nat.not_lt_of_le tooDeep)]
  · exact Residue.power_of_negative undefined.1 undefined.2
  · refine Residue.exists_power ?_
    omega

/-- Minus four to the power of minus twelve modulo seven; twelve is a multiple of six. -/
theorem evaluate_pow_twelve :
    Numeral "-0012".toList (-12) ∧ ∃ y : Residue .seven,
      evaluate .empty (.scalar (.residues 7)) (.binary .pow (.unary .neg (.literal "4")) (.literal "-0012")) =
        .ok (.scalar (.residue .seven y)) ∧
      (y.value : ZMod Modulus.seven.value) = 3 ^ (-12 : Int) := by
  have digits : IsDigits ['0', '0', '1', '2'] := ⟨List.cons_ne_nil _ _, List.all_eq_true.mp rfl⟩
  have numeral : Numeral "-0012".toList (-12) := .signed digits
  have three : evaluate .empty (.scalar (.residues Modulus.seven.value)) (.unary .neg (.literal "4")) =
      .ok (.scalar (.residue .seven ⟨3, by decide⟩)) := by decide +kernel
  obtain ⟨evaluated, -, -, defined, -⟩ := evaluate_pow three numeral
  obtain ⟨y, power, same⟩ := defined (by decide)
  rw [power] at evaluated
  exact ⟨numeral, y, evaluated maxLevels (by decide), same⟩

end Expr

end Abacus
