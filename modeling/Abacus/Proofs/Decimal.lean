import Abacus.Proofs.Computation
import Abacus.Proofs.GroundField

/-!
# Decimal text

A natural number is written as its usual decimal digits, an integer as a numeral that denotes it, a
fraction as two numerals around a bar unless it is whole. Reading the text of a number gives that
number again (`Scalar.read_text`), so different numbers of one field have different texts.
-/

namespace Abacus

/-! ## Digits -/

theorem isDigits_toDigits (n : Nat) : IsDigits (Nat.toDigits 10 n) :=
  ⟨Nat.toDigits_ne_nil, fun _ => Nat.isDigit_of_mem_toDigits (by decide) (by decide)⟩

theorem digitsValue_toDigits (n : Nat) : digitsValue (Nat.toDigits 10 n) = n :=
  Nat.ofDigitChars_ten_toDigits

theorem numeral_toDigits (n : Nat) : Numeral (Nat.toDigits 10 n) n := by
  have numeral := Numeral.unsigned (isDigits_toDigits n)
  rwa [digitsValue_toDigits] at numeral

/-- Dividing by ten until nothing is left writes the decimal digits. -/
theorem Natural.digitsOnto_eq (n : Natural) (written : List Char) :
    n.digitsOnto written = (if n.toNat = 0 then [] else Nat.toDigits 10 n.toNat) ++ written := by
  fun_induction digitsOnto n written with
  | case1 n written zero => rw [if_pos (isZero_iff.mp zero), List.nil_append]
  | case2 n written nonzero ih =>
    have some : n.toNat ≠ 0 := fun zero => nonzero (isZero_iff.mpr zero)
    rw [ih, toNat_divMod_fst n (by simp), toNat_divMod_snd n (by simp), toNat_ten, if_neg some]
    by_cases last : n.toNat < 10
    · rw [if_pos (Nat.div_eq_of_lt last), Nat.mod_eq_of_lt last, Nat.toDigits_of_lt_base last]
      rfl
    · have more : n.toNat / 10 ≠ 0 := by omega
      rw [if_neg more, Nat.toDigits_of_base_le (by decide) (Nat.le_of_not_lt last),
        List.append_assoc]
      rfl

theorem Natural.digits_eq (n : Natural) : n.digits = Nat.toDigits 10 n.toNat := by
  rw [digits]
  split
  · rename_i zero
    rw [isZero_iff.mp zero, Nat.toDigits_zero]
  · rename_i nonzero
    rw [digitsOnto_eq, if_neg (mt isZero_iff.mpr nonzero), List.append_nil]

theorem Natural.toList_text (n : Natural) : n.text.toList = Nat.toDigits 10 n.toNat := by
  rw [text, String.toList_ofList, digits_eq]

theorem Natural.isDigits_text (n : Natural) : IsDigits n.text.toList := by
  rw [toList_text]
  exact isDigits_toDigits n.toNat

/-! ## Writing and reading again -/

/-- The text of an integer is a numeral that denotes it. -/
theorem Integer.numeral_text (a : Integer) : Numeral a.text.toList a.toInt := by
  have magnitude := a.magnitude.isDigits_text
  have value : digitsValue a.magnitude.text.toList = a.magnitude.toNat := by
    rw [Natural.toList_text, digitsValue_toDigits]
  rw [text, toInt]
  split
  · rw [String.toList_append, ← value]
    exact .signed magnitude
  · rw [← value]
    exact .unsigned magnitude

theorem Natural.numeral_text (n : Natural) : Numeral n.text.toList n.toNat := by
  rw [toList_text]
  exact numeral_toDigits n.toNat

theorem Rational.toList_text {x : Rational} (fraction : x.denominator.isOne ≠ true) :
    x.text.toList = x.numerator.text.toList ++ '/' :: x.denominator.text.toList := by
  rw [text, if_neg fraction, String.toList_append, String.toList_append, List.append_assoc]
  rfl

/-- Two numerals around a bar are read as the quotient of what they denote. -/
theorem Rational.read_quotient {top bottom : List Char} {n d : Int} (numerator : Numeral top n)
    (denominator : Numeral bottom d) :
    read (top ++ '/' :: bottom) = ofIntegers (.ofInt n) (.ofInt d) := by
  have noBar : '/' ∉ top := fun member => numerator.ne_bar member rfl
  have single : '/' ∉ bottom := fun member => denominator.ne_bar member rfl
  rw [read_bar noBar, if_neg single, Text.strip_eq_self fun _ => numerator.not_blank,
    Text.strip_eq_self fun _ => denominator.not_blank, Integer.read_numeral numerator,
    Integer.read_numeral denominator]
  rfl

theorem Rational.read_text (x : Rational) : read x.text.toList = .ok x := by
  by_cases whole : x.denominator.isOne = true
  · rw [text, if_pos whole, read_numeral x.numerator.numeral_text]
    refine congrArg Except.ok (toRat_inj.mp ?_)
    rw [toRat_ofRat, toRat_eq_div, Natural.isOne_iff.mp whole, Nat.cast_one, div_one]
  · have nonzero : 0 < (Integer.ofInt x.denominator.toNat).magnitude.toNat := by
      rw [← Integer.natAbs_toInt, Integer.toInt_ofInt]
      exact x.positive
    rw [toList_text whole, read_quotient x.numerator.numeral_text x.denominator.numeral_text,
      ofIntegers, dif_pos nonzero]
    refine congrArg Except.ok (toRat_inj.mp ?_)
    rw [toRat_reduce, Integer.toInt_ofInt, Integer.toInt_ofInt, toRat_eq_div, Int.cast_natCast]

theorem Residue.numeral_text {p : Modulus} (x : Residue p) : Numeral x.text.toList x.value := by
  rw [text, Nat.toString_eq_repr, Nat.toList_repr]
  exact numeral_toDigits x.value

theorem Residue.read_text {p : Modulus} (x : Residue p) : read p x.text.toList = .ok x := by
  rw [read_numeral x.numeral_text, Int.cast_natCast]
  exact congrArg Except.ok (ofZMod_toZMod x)

/-- The text of a number is read as that number. -/
theorem Scalar.read_text (x : Scalar) : read x.field x.text.toList = .ok x := by
  cases x with
  | rational x =>
    rw [field, read, text, x.read_text]
    rfl
  | residue p x =>
    rw [field, read, text, Modulus.ofInt?_value, bind_eq_of_ok rfl, x.read_text]
    rfl

/-! ## The characters of a number -/

/-- At least one character, and none but digits, signs and bars. -/
structure IsNumberText (chars : List Char) : Prop where
  nonempty : chars ≠ []
  all : ∀ c ∈ chars, c.isDigit = true ∨ c = '-' ∨ c = '/'

theorem Numeral.isNumberText {chars : List Char} {n : Int} (numeral : Numeral chars n) :
    IsNumberText chars := by
  cases numeral with
  | unsigned word => exact ⟨word.nonempty, fun c member => .inl (word.all c member)⟩
  | signed word =>
    refine ⟨List.cons_ne_nil _ _, List.forall_mem_cons.mpr ⟨.inr (.inl rfl), fun c member => ?_⟩⟩
    exact .inl (word.all c member)

theorem Rational.isNumberText (x : Rational) : IsNumberText x.text.toList := by
  have numerator := x.numerator.numeral_text.isNumberText
  by_cases whole : x.denominator.isOne = true
  · rwa [text, if_pos whole]
  · have denominator := x.denominator.numeral_text.isNumberText
    rw [toList_text whole]
    refine ⟨List.append_ne_nil_of_left_ne_nil numerator.nonempty _, fun c member => ?_⟩
    rcases List.mem_append.mp member with before | after
    · exact numerator.all c before
    · rcases List.mem_cons.mp after with bar | after
      · exact .inr (.inr bar)
      · exact denominator.all c after

theorem Scalar.isNumberText (x : Scalar) : IsNumberText x.text.toList := by
  cases x with
  | rational x => exact x.isNumberText
  | residue p x => exact x.numeral_text.isNumberText

end Abacus
