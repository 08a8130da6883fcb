import Abacus.Exponent
import Abacus.Proofs.Rational
import Abacus.Proofs.Residue
import Abacus.Proofs.Stripping
import Mathlib.Data.List.TakeWhile

/-!
# Numerals

A numeral is one or more decimal digits after at most one minus sign. Every type of numbers reads a
numeral as the integer that it denotes, and a residue raised to a numeral is raised to that integer
in full, although the exponent is folded modulo `p - 1` on the way.
-/

namespace Abacus

/-- One or more decimal digits. -/
structure IsDigits (digits : List Char) : Prop where
  nonempty : digits ≠ []
  all : ∀ c ∈ digits, c.isDigit = true

/-- The number that decimal digits denote. -/
def digitsValue (digits : List Char) : Nat :=
  Nat.ofDigitChars 10 digits 0

/-- The integer that a numeral denotes. -/
inductive Numeral : List Char → Int → Prop
  | unsigned {digits : List Char} (word : IsDigits digits) : Numeral digits (digitsValue digits)
  | signed {digits : List Char} (word : IsDigits digits) :
      Numeral ('-' :: digits) (-(digitsValue digits : Int))

theorem isDigit_iff {c : Char} : c.isDigit = true ↔ 48 ≤ c.toNat ∧ c.toNat ≤ 57 := by
  simp only [Char.isDigit, Bool.and_eq_true, decide_eq_true_eq, UInt32.le_iff_toNat_le]
  rfl

theorem ne_minus_of_isDigit {c : Char} (digit : c.isDigit = true) : c ≠ '-' := by
  rintro rfl
  exact absurd digit (by decide)

theorem IsDigits.head_ne_minus {first : Char} {rest : List Char} (word : IsDigits (first :: rest)) :
    first ≠ '-' :=
  ne_minus_of_isDigit (word.all first List.mem_cons_self)

theorem IsDigits.head?_ne_minus {digits : List Char} (word : IsDigits digits) : digits.head? ≠ some '-' := by
  intro sign
  exact ne_minus_of_isDigit (word.all '-' (List.mem_of_mem_head? sign)) rfl

/-- A numeral without a sign consists of digits. -/
theorem Numeral.isDigits {chars : List Char} {n : Int} (numeral : Numeral chars n)
    (unsigned : chars.head? ≠ some '-') : IsDigits chars := by
  cases numeral with
  | unsigned word => exact word
  | signed word => exact absurd rfl unsigned

theorem isDigits_cons {c : Char} {digits : List Char} (digit : c.isDigit = true)
    (all : ∀ d ∈ digits, d.isDigit = true) : IsDigits (c :: digits) :=
  ⟨List.cons_ne_nil c digits, List.forall_mem_cons.mpr ⟨digit, all⟩⟩

theorem isDigits_singleton {c : Char} (digit : c.isDigit = true) : IsDigits [c] :=
  isDigits_cons digit (List.forall_mem_nil _)

/-- Leading zeros do not count. -/
theorem digitsValue_dropWhile (digits : List Char) :
    digitsValue (digits.dropWhile (· == '0')) = digitsValue digits := by
  induction digits with
  | nil => rfl
  | cons c rest ih =>
    rw [List.dropWhile_cons]
    split
    · rename_i zero
      obtain rfl : c = '0' := beq_iff_eq.mp zero
      rw [ih, digitsValue, digitsValue, Nat.ofDigitChars_cons]
      rfl
    · rfl

/-! ## Reading -/

theorem Natural.ofNat_toNat (n : Natural) : ofNat n.toNat = n :=
  toNat_inj.mp (toNat_ofNat n.toNat)

theorem Natural.readFrom_digits {digits : List Char} (all : ∀ c ∈ digits, c.isDigit = true)
    (sum : Natural) :
    readFrom sum digits = .ok (ofNat (Nat.ofDigitChars 10 digits sum.toNat)) := by
  induction digits generalizing sum with
  | nil => rw [readFrom, Nat.ofDigitChars_nil, ofNat_toNat]
  | cons c rest ih =>
    rw [readFrom, if_pos (all c List.mem_cons_self),
      ih (fun d later => all d (List.mem_cons_of_mem c later)), Nat.ofDigitChars_cons, toNat_add,
      toNat_multiply, toNat_ten, ofDigit, toNat_ofNat, Nat.mul_comm]

theorem Natural.read_digits {digits : List Char} (word : IsDigits digits) :
    Natural.read digits = .ok (ofNat (digitsValue digits)) := by
  rw [Natural.read, readFrom_digits word.all, toNat_zero, digitsValue]

theorem Integer.read_unsigned {first : Char} {rest : List Char} (noSign : first ≠ '-') :
    Integer.read (first :: rest) = signed false <$> Natural.read (first :: rest) := by
  rw [Integer.read.eq_4 _ (by simp) (fun same => noSign (List.cons.inj same).1)
    (fun _ same => noSign (List.cons.inj same).1)]
  rfl

theorem Integer.read_signed {digits : List Char} (some : digits ≠ []) :
    Integer.read ('-' :: digits) = signed true <$> Natural.read digits := by
  rw [Integer.read.eq_3 _ some]
  rfl

theorem Integer.read_numeral {chars : List Char} {n : Int} (numeral : Numeral chars n) :
    Integer.read chars = .ok (ofInt n) := by
  cases numeral with
  | unsigned word =>
    have value := Natural.read_digits word
    cases chars with
    | nil => exact absurd rfl word.nonempty
    | cons first rest =>
      rw [read_unsigned word.head_ne_minus, value]
      refine congrArg Except.ok (toInt_inj.mp ?_)
      simp
  | @signed digits word =>
    rw [read_signed word.nonempty, Natural.read_digits word]
    refine congrArg Except.ok (toInt_inj.mp ?_)
    simp

theorem Numeral.not_blank {chars : List Char} {n : Int} (numeral : Numeral chars n) {c : Char}
    (member : c ∈ chars) : Text.isBlank c = false := by
  have digitNotBlank : ∀ d : Char, d.isDigit = true → Text.isBlank d = false := by
    intro d digit
    obtain ⟨low, high⟩ := isDigit_iff.mp digit
    simp only [Text.isBlank, Bool.or_eq_false_iff, Bool.and_eq_false_iff, decide_eq_false_iff_not,
      beq_eq_false_iff_ne]
    omega
  cases numeral with
  | unsigned word => exact digitNotBlank c (word.all c member)
  | signed word =>
    rcases List.mem_cons.mp member with rfl | later
    · decide
    · exact digitNotBlank c (word.all c later)

theorem Numeral.ne_bar {chars : List Char} {n : Int} (numeral : Numeral chars n) {c : Char}
    (member : c ∈ chars) : c ≠ '/' := by
  rintro rfl
  cases numeral with
  | unsigned word => exact absurd (word.all _ member) (by decide)
  | signed word =>
    rcases List.mem_cons.mp member with same | later
    · exact absurd same (by decide)
    · exact absurd (word.all _ later) (by decide)

theorem Text.strip_eq_self {chars : List Char} (solid : ∀ c ∈ chars, isBlank c = false) :
    strip chars = chars := by
  have whole : Strips ([] ++ (chars ++ [])) chars :=
    .intro nofun nofun (fun c first => solid c (List.mem_of_mem_head? first))
      (fun c last => solid c (List.mem_of_mem_getLast? last))
  rw [List.nil_append, List.append_nil] at whole
  exact strip_of_strips whole

/-- Without a bar, the whole text is an integer. -/
theorem Rational.read_of_noBar {chars : List Char} (noBar : '/' ∉ chars) :
    read chars = ofInteger <$> Integer.read (Text.strip chars) := by
  have each : ∀ c ∈ Text.strip chars, (c != '/') = true := fun c member => by
    rw [bne_iff_ne]
    rintro rfl
    exact noBar (Text.mem_of_mem_strip member)
  have before := List.takeWhile_eq_self_iff.mpr each
  have after := List.dropWhile_eq_nil_iff.mpr each
  simp only [read, before, after, Text.strip_strip]
  rfl

/-- With a bar, the text in front of it and the text behind it are integers, unless that behind it has another
bar. -/
theorem Rational.read_bar {top bottom : List Char} (noBar : '/' ∉ top) :
    read (top ++ '/' :: bottom) =
      if '/' ∈ bottom then .error (.invalidInteger (String.ofList (top ++ '/' :: bottom)))
      else (do ofIntegers (← Integer.read (Text.strip top)) (← Integer.read (Text.strip bottom))) := by
  have solid : Text.isBlank '/' = false := by decide
  have front : ∀ c ∈ top.dropWhile Text.isBlank, (c != '/') = true := fun c member => by
    rw [bne_iff_ne]
    rintro rfl
    exact noBar ((List.dropWhile_suffix _).subset member)
  have bar : ∀ c ∈ ('/' :: bottom.rdropWhile Text.isBlank).head?, (c != '/') = false := by
    rintro c ⟨⟩
    rfl
  have again : '/' ∈ bottom.rdropWhile Text.isBlank ↔ '/' ∈ bottom :=
    ⟨fun member => (List.rdropWhile_prefix _ _).subset member, fun member => mem_rdropWhile_of_neg member solid⟩
  simp only [read, Text.strip_append_cons solid, takeWhile_run front bar, dropWhile_run front bar,
    Text.strip_dropWhile, Text.strip_rdropWhile, List.contains_iff_mem, again]

theorem Rational.read_of_integer {chars : List Char} {n : Int} (noBar : '/' ∉ chars)
    (integer : Integer.read (Text.strip chars) = .ok (.ofInt n)) : read chars = .ok (ofInt n) := by
  rw [read_of_noBar noBar, integer]
  rfl

theorem Rational.read_numeral {chars : List Char} {n : Int} (numeral : Numeral chars n) :
    Rational.read chars = .ok (ofRat n) := by
  have noBar : '/' ∉ chars := fun member => numeral.ne_bar member rfl
  have integer := Integer.read_numeral numeral
  rw [← Text.strip_eq_self fun _ => numeral.not_blank] at integer
  rw [read_of_integer noBar integer, ofInt_eq]

@[simp] theorem Residue.toZMod_ofNatural (p : Modulus) (n : Natural) :
    (ofNatural p n).toZMod = n.toNat := by
  have positive : 0 < (Natural.ofNat p.value).toNat := by simpa using p.value_pos
  simp only [ofNatural, toZMod, Natural.toNat_divMod_snd n positive, Natural.toNat_ofNat,
    ZMod.natCast_mod]

theorem Residue.read_of_integer {p : Modulus} {chars : List Char} {n : Int}
    (integer : Integer.read (Text.strip chars) = .ok (.ofInt n)) : read p chars = .ok (ofInt p n) := by
  rw [read, integer, ofInt_eq]
  refine congrArg Except.ok (toZMod_inj.mp ?_)
  rw [toZMod_ofZMod]
  have value := Integer.toInt_eq_sign_mul (Integer.ofInt n)
  rw [Integer.toInt_ofInt] at value
  conv_rhs => rw [value]
  cases (Integer.ofInt n).negative <;> simp

theorem Residue.read_numeral {p : Modulus} {chars : List Char} {n : Int}
    (numeral : Numeral chars n) : Residue.read p chars = .ok (ofZMod n) := by
  have integer := Integer.read_numeral numeral
  rw [← Text.strip_eq_self fun _ => numeral.not_blank] at integer
  rw [read_of_integer integer, ofInt_eq]

/-! ## Powers -/

theorem foldDigits_eq (order : Nat) {digits : List Char} (all : ∀ c ∈ digits, c.isDigit = true) :
    foldDigits order digits = digitsValue digits % order := by
  -- The induction needs every start, not only zero.
  have from_start : ∀ start : Nat,
      digits.foldl (fun (rest : Nat) digit => ((rest * 10 + digitWeight digit) % order).toNat)
        (start % order) = Nat.ofDigitChars 10 digits start % order := by
    induction digits with
    | nil => intro start; rw [List.foldl_nil, Nat.ofDigitChars_nil]
    | cons c rest ih =>
      intro start
      obtain ⟨low, -⟩ := isDigit_iff.mp (all c List.mem_cons_self)
      have weight : digitWeight c = ((c.toNat - '0'.toNat : Nat) : Int) := by
        have zero : '0'.toNat = 48 := rfl
        rw [digitWeight]
        omega
      have step : ((((start % order : Nat) : Int) * 10 + digitWeight c) % order).toNat =
          (10 * start + (c.toNat - '0'.toNat)) % order := by
        have cast : (((start % order : Nat) : Int) * 10 + ((c.toNat - '0'.toNat : Nat) : Int)) % order =
            ((start % order * 10 + (c.toNat - '0'.toNat)) % order : Nat) := by
          simp only [Int.natCast_emod, Int.natCast_add, Int.natCast_mul, Nat.cast_ofNat]
        rw [weight, cast, Int.toNat_natCast, Nat.add_mod, Nat.mul_mod, Nat.mod_mod, ← Nat.mul_mod,
          Nat.mul_comm start, ← Nat.add_mod]
      rw [List.foldl_cons, step, ih (fun d later => all d (List.mem_cons_of_mem c later)),
        Nat.ofDigitChars_cons]
  have whole := from_start 0
  rwa [Nat.zero_mod] at whole

theorem ofDigitChars_eq_zero_iff {digits : List Char} (all : ∀ c ∈ digits, c.isDigit = true)
    (start : Nat) :
    Nat.ofDigitChars 10 digits start = 0 ↔ start = 0 ∧ digits.all (· == '0') = true := by
  induction digits generalizing start with
  | nil => simp
  | cons c rest ih =>
    obtain ⟨low, -⟩ := isDigit_iff.mp (all c List.mem_cons_self)
    have same : c = '0' ↔ c.toNat - '0'.toNat = 0 := by
      have zero : '0'.toNat = 48 := rfl
      rw [← Char.toNat_inj, zero]
      omega
    rw [Nat.ofDigitChars_cons, ih (fun d later => all d (List.mem_cons_of_mem c later)),
      List.all_cons, Bool.and_eq_true, beq_iff_eq, same, ← and_assoc]
    refine and_congr_left' ?_
    omega

theorem digitsValue_eq_zero_iff {digits : List Char} (all : ∀ c ∈ digits, c.isDigit = true) :
    digitsValue digits = 0 ↔ digits.all (· == '0') = true := by
  rw [digitsValue, ofDigitChars_eq_zero_iff all, eq_self_iff_true, true_and]

/-- Folding an exponent keeps whether it is zero. -/
theorem reduceExponent_eq_zero_iff (p : Modulus) {digits : List Char}
    (all : ∀ c ∈ digits, c.isDigit = true) :
    reduceExponent digits p.value = 0 ↔ digitsValue digits = 0 := by
  have large := p.two_le
  rw [digitsValue_eq_zero_iff all, reduceExponent]
  by_cases zeros : digits.all (· == '0') = true
  · simp [zeros]
  · rw [if_neg zeros]
    split
    · simp only [zeros, Bool.false_eq_true, iff_false]
      omega
    · simp [zeros]

/-- A folded exponent acts on every residue as the full one: by Fermat's little theorem on those
that are not zero, and on zero because both exponents are zero or neither is. -/
theorem pow_reduceExponent {p : Modulus} (z : ZMod p.value) {digits : List Char}
    (all : ∀ c ∈ digits, c.isDigit = true) :
    z ^ reduceExponent digits p.value = z ^ digitsValue digits := by
  by_cases none : z = 0
  · have zeros := reduceExponent_eq_zero_iff p all
    rw [none, zero_pow_eq, zero_pow_eq]
    simp only [zeros]
  · have cycle : z ^ (p.value - 1) = 1 := ZMod.pow_card_sub_one_eq_one none
    have fold : z ^ (digitsValue digits % (p.value - 1)) = z ^ digitsValue digits := by
      conv_rhs => rw [← Nat.div_add_mod (digitsValue digits) (p.value - 1), pow_add, pow_mul,
        cycle, one_pow, one_mul]
    rw [reduceExponent]
    by_cases zeros : digits.all (· == '0') = true
    · rw [if_pos zeros, (digitsValue_eq_zero_iff all).mpr zeros]
    · rw [if_neg zeros, foldDigits_eq _ all]
      split
      · rename_i whole
        rw [← fold, whole, cycle, pow_zero]
      · rename_i rest part
        rw [← Nat.succ_eq_add_one, ← part, fold]

theorem exponentOf_unsigned {digits : List Char} (word : IsDigits digits) (modulus : Nat) :
    exponentOf digits modulus = reduceExponent digits modulus := by
  cases digits with
  | nil => exact absurd rfl word.nonempty
  | cons first rest =>
    have plain := word.head_ne_minus
    rw [exponentOf, List.dropWhile_cons, if_neg (by simpa using plain), if_neg (by simpa using plain)]

theorem exponentOf_signed {digits : List Char} (word : IsDigits digits) (modulus : Nat) :
    exponentOf ('-' :: digits) modulus = -(reduceExponent digits modulus : Int) := by
  have rest : digits.dropWhile (· == '-') = digits := by
    cases digits with
    | nil => rfl
    | cons first rest => rw [List.dropWhile_cons, if_neg (by simpa using word.head_ne_minus)]
  simp [exponentOf, rest]

/-- Raising to a numeral is raising to the integer that it denotes. -/
theorem Residue.power_exponentOf {p : Modulus} (x : Residue p) {chars : List Char} {n : Int}
    (numeral : Numeral chars n) :
    x.power (exponentOf chars p.value) =
      if n < 0 ∧ x.toZMod = 0 then .error .inverseOfZero else .ok (ofZMod (x.toZMod ^ n)) := by
  rw [power_eq]
  cases numeral with
  | unsigned word =>
    have below : ¬ (digitsValue chars : Int) < 0 := by omega
    have reducedBelow : ¬ (reduceExponent chars p.value : Int) < 0 := by omega
    rw [exponentOf_unsigned word, if_neg (fun both => reducedBelow both.1),
      if_neg (fun both => below both.1), zpow_natCast, zpow_natCast, pow_reduceExponent _ word.all]
  | @signed digits word =>
    have zeros := reduceExponent_eq_zero_iff p word.all
    have negative : -(reduceExponent digits p.value : Int) < 0 ↔ -(digitsValue digits : Int) < 0 := by
      omega
    rw [exponentOf_signed word]
    simp only [negative, zpow_neg, zpow_natCast, pow_reduceExponent _ word.all]

end Abacus
