import Abacus.Proofs.Decimal
import Abacus.Proofs.Natural
import Mathlib.Data.Nat.Digits.Defs

/-!
# Decimal digits

Writing a natural number and reading decimal digits are inverse to each other, up to zeros in front of the
digits (`Natural.digits_inverse`). The writer goes through the digits from the last to the first and the reader
from the first to the last; the first character that is no digit stops the reader.
-/

namespace Abacus

/-- The number that one decimal digit stands for. -/
def digitValue (c : Char) : Nat :=
  c.toNat - '0'.toNat

/-- The digits without the zeros in front; one zero if there is nothing else. -/
def significant (digits : List Char) : List Char :=
  match digits.dropWhile (· == '0') with
  | [] => ['0']
  | first :: rest => first :: rest

theorem digitValue_lt {c : Char} (digit : c.isDigit = true) : digitValue c < 10 := by
  obtain ⟨-, high⟩ := isDigit_iff.mp digit
  have zero : '0'.toNat = 48 := rfl
  rw [digitValue]
  omega

theorem digitChar_digitValue {c : Char} (digit : c.isDigit = true) : Nat.digitChar (digitValue c) = c := by
  have written := Nat.toNat_digitChar_of_lt_ten (digitValue_lt digit)
  obtain ⟨low, -⟩ := isDigit_iff.mp digit
  have zero : '0'.toNat = 48 := rfl
  refine Char.toNat_inj.mp ?_
  rw [written, digitValue]
  omega

/-! ## The value of digits -/

theorem digitsValue_append_singleton (front : List Char) (c : Char) :
    digitsValue (front ++ [c]) = 10 * digitsValue front + digitValue c := by
  rw [digitsValue, Nat.ofDigitChars_append, Nat.ofDigitChars_cons, Nat.ofDigitChars_nil]
  rfl

/-- Each digit counts by its place, the last one for itself. -/
theorem digitsValue_eq_ofDigits (digits : List Char) :
    digitsValue digits = Nat.ofDigits 10 (digits.reverse.map digitValue) := by
  induction digits using List.reverseRecOn with
  | nil => rfl
  | append_singleton front c ih =>
    rw [digitsValue_append_singleton, ih, List.reverse_append, List.reverse_singleton,
      List.singleton_append, List.map_cons, Nat.ofDigits_cons]
    exact Nat.add_comm _ _

/-- Digits without a zero in front are those of the number that they denote. -/
theorem toDigits_digitsValue {first : Char} {rest : List Char} (word : IsDigits (first :: rest))
    (nonzero : first ≠ '0') : Nat.toDigits 10 (digitsValue (first :: rest)) = first :: rest := by
  induction rest using List.reverseRecOn with
  | nil =>
    have digit := word.all first List.mem_cons_self
    have value : digitsValue [first] = digitValue first := by
      rw [digitsValue, Nat.ofDigitChars_cons, Nat.ofDigitChars_nil, Nat.mul_zero, Nat.zero_add, digitValue]
    rw [value, Nat.toDigits_of_lt_base (digitValue_lt digit), digitChar_digitValue digit]
  | append_singleton rest c ih =>
    have front : IsDigits (first :: rest) :=
      ⟨List.cons_ne_nil _ _, fun d member => word.all d (List.mem_append_left [c] member)⟩
    have digit := word.all c (List.mem_append_right (first :: rest) List.mem_cons_self)
    have last := digitValue_lt digit
    have positive : digitsValue (first :: rest) ≠ 0 := by
      rw [Ne, digitsValue_eq_zero_iff front.all, List.all_cons, Bool.and_eq_true, beq_iff_eq]
      exact fun zeros => nonzero zeros.1
    rw [← List.cons_append, digitsValue_append_singleton, Nat.toDigits_of_base_le (by decide) (by omega),
      Nat.mul_add_div (by decide), Nat.div_eq_of_lt last, Nat.add_zero, ih front, Nat.mul_add_mod,
      Nat.mod_eq_of_lt last, digitChar_digitValue digit]

theorem significant_of_head_zero {digits : List Char} (zero : (significant digits).head? = some '0') :
    significant digits = ['0'] := by
  have nonzero := List.head?_dropWhile_not (· == '0') digits
  rw [significant] at zero ⊢
  cases rest : digits.dropWhile (· == '0') with
  | nil => rfl
  | cons first others =>
    rw [rest] at zero nonzero
    obtain rfl : first = '0' := Option.some.inj zero
    cases nonzero

/-- Digits are those of the number that they denote, up to the zeros in front. -/
theorem toDigits_eq_significant {digits : List Char} (all : ∀ c ∈ digits, c.isDigit = true) :
    Nat.toDigits 10 (digitsValue digits) = significant digits := by
  rw [← digitsValue_dropWhile, significant]
  have kept := (List.dropWhile_suffix (· == '0') (l := digits)).subset
  have nonzero := List.head?_dropWhile_not (· == '0') digits
  cases rest : digits.dropWhile (· == '0') with
  | nil => exact Nat.toDigits_zero 10
  | cons first others =>
    rw [rest] at kept nonzero
    refine toDigits_digitsValue ⟨List.cons_ne_nil _ _, fun c member => all c (kept member)⟩ ?_
    simpa using nonzero

namespace Natural

/-! ## Writing -/

/-- A run of the writer. While something is left of the number, it is divided by ten, and the digit of the
remainder, which is a single block, is put in front of those already written. -/
inductive Writing : (left : Natural) → (written text : List Char) → Prop
  | stop {left : Natural} {written : List Char} (zero : left.isZero = true) :
      Writing left written written
  | turn {left quotient remainder : Natural} {digit : Nat} {written text : List Char}
      (nonzero : left.isZero = false) (step : left.divide ten = .ok (quotient, remainder))
      (block : remainder.blocks = [digit])
      (later : Writing quotient (Char.ofNat ('0'.toNat + digit) :: written) text) :
      Writing left written text

theorem blocks_of_lt {n : Natural} (small : n.toNat < Blocks.base) : n.blocks = [n.toNat] := by
  rw [blocks_eq_ofNat rfl, Blocks.ofNat, if_pos small]

theorem digitChar_eq_ofNat {digit : Nat} (single : digit < 10) :
    Nat.digitChar digit = Char.ofNat ('0'.toNat + digit) := by
  refine Char.toNat_inj.mp ?_
  rw [Nat.toNat_digitChar_of_lt_ten single]
  interval_cases digit <;> rfl

/-- Dividing by ten takes the last digit off; the remainder holds it in its only block. -/
theorem divide_ten (n : Natural) :
    n.divide ten = .ok ((n.divMod ten).1, (n.divMod ten).2) ∧ (n.divMod ten).2.toNat < 10 ∧
      (n.divMod ten).2.blocks = [(n.divMod ten).2.toNat] := by
  have positive : 0 < ten.toNat := by simp
  have less := n.divMod_remainder_lt positive
  rw [toNat_ten] at less
  exact ⟨divide_of_pos n positive, less, blocks_of_lt (less.trans (by decide))⟩

/-- The run of the writer ends, with what the digits are put in front of each other to. -/
theorem writing_iff {left : Natural} {written text : List Char} :
    Writing left written text ↔ text = left.digitsOnto written := by
  constructor
  · intro writing
    induction writing with
    | stop zero => rw [digitsOnto, if_pos zero]
    | @turn left quotient remainder digit written text nonzero step block later ih =>
      obtain ⟨divides, single, last⟩ := left.divide_ten
      obtain ⟨rfl, rfl⟩ := Prod.mk.inj (Except.ok.inj (step.symm.trans divides))
      obtain rfl : digit = _ := List.singleton_inj.mp (block.symm.trans last)
      rw [ih, ← digitChar_eq_ofNat single]
      conv_rhs => rw [digitsOnto, if_neg (Bool.eq_false_iff.mp nonzero)]
  · rintro rfl
    fun_induction digitsOnto left written with
    | case1 left written zero => exact .stop zero
    | case2 left written nonzero ih =>
      obtain ⟨divides, single, last⟩ := left.divide_ten
      rw [digitChar_eq_ofNat single] at ih ⊢
      exact .turn (Bool.eq_false_iff.mpr nonzero) divides last ih

/-- A zero stands in front only where it is the whole text. -/
theorem text_of_head_zero {n : Natural} (zero : n.text.toList.head? = some '0') : n.text = "0" := by
  have kept := toDigits_eq_significant (isDigits_toDigits n.toNat).all
  rw [digitsValue_toDigits, ← toList_text] at kept
  rw [kept] at zero
  refine String.toList_inj.mp ?_
  rw [kept, significant_of_head_zero zero]
  rfl

/-! ## Reading -/

/-- The reader fails exactly if there is a character that is no digit, and it reports the first of them. -/
theorem readFrom_eq_error_iff {chars : List Char} {sum : Natural} {error : Error} :
    readFrom sum chars = .error error ↔
      ∃ c, chars.find? (fun c => !c.isDigit) = some c ∧ error = .invalidDigit c := by
  induction chars generalizing sum with
  | nil => simp [readFrom]
  | cons c rest ih =>
    rw [readFrom]
    cases digit : c.isDigit with
    | true => simpa [digit] using ih
    | false => simp [digit, eq_comm]

/-- Writing and reading decimal digits are inverse to each other. A number is written by a run of divisions by
ten, as its usual digits: there are some, and none of several is a zero in front. They are read as the number
again. Whatever digits are read denote their number place by place, and it is written as the same digits
without the zeros in front. All other texts fail for their first character that is no digit. -/
theorem digits_inverse :
    (∀ n : Natural, n.text.toList = Nat.toDigits 10 n.toNat ∧ IsDigits n.text.toList ∧
      (n.text.toList.head? = some '0' → n.text = "0") ∧ read n.text.toList = .ok n ∧
      (n.isZero = false → ∀ text, Writing n [] text ↔ text = n.text.toList)) ∧
    (∀ digits, (∀ c ∈ digits, c.isDigit = true) → ∃ n, read digits = .ok n ∧
      n.toNat = Nat.ofDigits 10 (digits.reverse.map digitValue) ∧
      n.text.toList = significant digits) ∧
    (∀ chars error, read chars = .error error ↔
      ∃ c, chars.find? (fun c => !c.isDigit) = some c ∧ error = .invalidDigit c) := by
  refine ⟨fun n => ⟨n.toList_text, n.isDigits_text, text_of_head_zero, ?_, fun nonzero text => ?_⟩,
    fun digits all => ⟨ofNat (digitsValue digits), ?_, ?_, ?_⟩,
    fun chars error => readFrom_eq_error_iff⟩
  · rw [read_digits n.isDigits_text, toList_text, digitsValue_toDigits, ofNat_toNat]
  · rw [writing_iff, Natural.text, String.toList_ofList, digits, if_neg (Bool.eq_false_iff.mp nonzero)]
  · rw [read, readFrom_digits all, toNat_zero, digitsValue]
  · rw [toNat_ofNat, digitsValue_eq_ofDigits]
  · rw [toList_text, toNat_ofNat, toDigits_eq_significant all]

/-- Zeros in front of other digits do not come back. -/
example : (text <$> read "00420".toList).toOption = some "420" := by
  decide +kernel

end Natural

end Abacus
