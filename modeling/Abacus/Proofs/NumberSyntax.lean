import Abacus.Proofs.Digits
import Abacus.Proofs.GroundField

/-!
# The syntax of numbers

A rational number is written as an integer or as two integers around a bar, the second of them not zero; a
residue is written as an integer. An integer is a numeral, with any blanks around it. Every other text has a
fault, which is what reading it fails with; the integer in front of a bar is judged before the one behind it
(`Scalar.read_recognises`).
-/

namespace Abacus
open Text (isBlank Strips strip)

/-- If what is computed is known both for good and for bad input, and all input is one of the two, then nothing
else is computed. -/
theorem outcome_iff {α : Type} {computation : Except Error α} {good : α → Prop} {bad : Error → Prop}
    (returns : ∀ x, good x → computation = .ok x) (fails : ∀ error, bad error → computation = .error error)
    (judged : (∃ x, good x) ∨ ∃ error, bad error) :
    (∀ x, computation = .ok x ↔ good x) ∧ ∀ error, computation = .error error ↔ bad error := by
  refine ⟨fun x => ⟨fun returned => ?_, returns x⟩, fun error => ⟨fun failed => ?_, fails error⟩⟩
  · rcases judged with ⟨y, holds⟩ | ⟨error, holds⟩
    · cases returned.symm.trans (returns y holds)
      exact holds
    · cases returned.symm.trans (fails error holds)
  · rcases judged with ⟨y, holds⟩ | ⟨other, holds⟩
    · cases failed.symm.trans (returns y holds)
    · cases failed.symm.trans (fails other holds)
      exact holds

/-! ## Numerals -/

/-- How characters fail to be a numeral: there is none, or only a minus sign, or a first character that should
be a digit and is none. -/
inductive NumeralFault : List Char → Error → Prop
  | empty : NumeralFault [] (.invalidInteger "")
  | sign : NumeralFault ['-'] (.invalidInteger "-")
  | unsigned {digits rest : List Char} {c : Char} (all : ∀ d ∈ digits, d.isDigit = true)
      (stray : c.isDigit = false) (noSign : digits = [] → c ≠ '-') :
      NumeralFault (digits ++ c :: rest) (.invalidDigit c)
  | signed {digits rest : List Char} {c : Char} (all : ∀ d ∈ digits, d.isDigit = true)
      (stray : c.isDigit = false) : NumeralFault ('-' :: (digits ++ c :: rest)) (.invalidDigit c)

theorem digits_or_stray (chars : List Char) :
    (∀ c ∈ chars, c.isDigit = true) ∨ ∃ digits c rest, chars = digits ++ c :: rest ∧
      (∀ d ∈ digits, d.isDigit = true) ∧ c.isDigit = false := by
  cases found : chars.find? (fun c => !c.isDigit) with
  | none => exact .inl (by simpa using found)
  | some c =>
    obtain ⟨stray, digits, rest, same, all⟩ := List.find?_eq_some_iff_append.mp found
    exact .inr ⟨digits, c, rest, same, by simpa using all, by simpa using stray⟩

theorem numeral_or_fault (chars : List Char) : (∃ n, Numeral chars n) ∨ ∃ error, NumeralFault chars error := by
  cases chars with
  | nil => exact .inr ⟨_, .empty⟩
  | cons first rest =>
    by_cases minus : first = '-'
    · subst minus
      rcases digits_or_stray rest with all | ⟨digits, c, others, rfl, all, stray⟩
      · cases rest with
        | nil => exact .inr ⟨_, .sign⟩
        | cons second others => exact .inl ⟨_, .signed ⟨List.cons_ne_nil _ _, all⟩⟩
      · exact .inr ⟨_, .signed all stray⟩
    · rcases digits_or_stray (first :: rest) with all | ⟨digits, c, others, same, all, stray⟩
      · exact .inl ⟨_, .unsigned ⟨List.cons_ne_nil _ _, all⟩⟩
      · rw [same]
        refine .inr ⟨_, .unsigned all stray ?_⟩
        rintro rfl rfl
        exact minus (List.cons.inj same).1

theorem Natural.read_of_stray {digits rest : List Char} {c : Char} (all : ∀ d ∈ digits, d.isDigit = true)
    (stray : c.isDigit = false) : Natural.read (digits ++ c :: rest) = .error (.invalidDigit c) := by
  refine Natural.readFrom_eq_error_iff.mpr ⟨c, ?_, rfl⟩
  rw [List.find?_eq_some_iff_append]
  exact ⟨by simp [stray], digits, rest, rfl, by simpa using all⟩

theorem Integer.read_of_fault {chars : List Char} {error : Error} (fault : NumeralFault chars error) :
    read chars = .error error := by
  cases fault with
  | empty => rfl
  | sign => rfl
  | @unsigned digits rest c all stray noSign =>
    have failed : Natural.read (digits ++ c :: rest) = _ := Natural.read_of_stray all stray
    cases digits with
    | nil =>
      rw [List.nil_append, read_unsigned (noSign rfl)]
      exact congrArg _ failed
    | cons first digits =>
      rw [List.cons_append, read_unsigned (ne_minus_of_isDigit (all first List.mem_cons_self))]
      exact congrArg _ failed
  | @signed digits rest c all stray =>
    rw [read_signed (by simp), Natural.read_of_stray all stray]
    rfl

/-! ## Integers with blanks around them -/

/-- A numeral with any blanks around it. -/
inductive IntegerText : List Char → Int → Prop
  | intro {chars inner : List Char} {n : Int} (strips : Strips chars inner) (numeral : Numeral inner n) :
      IntegerText chars n

/-- What is left without the blanks around it is no numeral. -/
inductive IntegerFault : List Char → Error → Prop
  | intro {chars inner : List Char} {error : Error} (strips : Strips chars inner)
      (fault : NumeralFault inner error) : IntegerFault chars error

theorem integerText_or_fault (chars : List Char) :
    (∃ n, IntegerText chars n) ∨ ∃ error, IntegerFault chars error := by
  have strips := Text.strips_strip chars
  rcases numeral_or_fault (strip chars) with ⟨n, numeral⟩ | ⟨error, fault⟩
  · exact .inl ⟨n, strips, numeral⟩
  · exact .inr ⟨error, strips, fault⟩

theorem IntegerText.read {chars : List Char} {n : Int} (text : IntegerText chars n) :
    Integer.read (strip chars) = .ok (.ofInt n) := by
  obtain ⟨strips, numeral⟩ := text
  rw [Text.strip_of_strips strips, Integer.read_numeral numeral]

theorem IntegerFault.read {chars : List Char} {error : Error} (fault : IntegerFault chars error) :
    Integer.read (strip chars) = .error error := by
  obtain ⟨strips, fault⟩ := fault
  rw [Text.strip_of_strips strips, Integer.read_of_fault fault]

theorem IntegerText.noBar {chars : List Char} {n : Int} (text : IntegerText chars n) : '/' ∉ chars := by
  obtain ⟨strips, numeral⟩ := text
  intro bar
  rw [← Text.strip_of_strips strips] at numeral
  have kept : '/' ∈ strip chars := Text.mem_strip bar (by decide)
  exact numeral.ne_bar kept rfl

/-! ## Fractions -/

/-- An integer, or two integers around a bar, the second of them not zero. -/
inductive FractionText : List Char → ℚ → Prop
  | integer {chars : List Char} {n : Int} (text : IntegerText chars n) : FractionText chars n
  | quotient {top bottom : List Char} {n d : Int} (numerator : IntegerText top n)
      (denominator : IntegerText bottom d) (nonzero : d ≠ 0) :
      FractionText (top ++ '/' :: bottom) (n / d)

/-- How characters fail to be a fraction. More bars than one are a fault whatever stands between them; then the
integers are judged from left to right, and whether the second one is zero in the end. -/
inductive FractionFault : List Char → Error → Prop
  | bars {chars : List Char} (several : 2 ≤ chars.count '/') :
      FractionFault chars (.invalidInteger (String.ofList chars))
  | integer {chars : List Char} {error : Error} (noBar : '/' ∉ chars) (fault : IntegerFault chars error) :
      FractionFault chars error
  | numerator {top bottom : List Char} {error : Error} (single : (top ++ '/' :: bottom).count '/' = 1)
      (fault : IntegerFault top error) : FractionFault (top ++ '/' :: bottom) error
  | denominator {top bottom : List Char} {n : Int} {error : Error}
      (single : (top ++ '/' :: bottom).count '/' = 1) (numerator : IntegerText top n)
      (fault : IntegerFault bottom error) : FractionFault (top ++ '/' :: bottom) error
  | zero {top bottom : List Char} {n : Int} (numerator : IntegerText top n)
      (denominator : IntegerText bottom 0) : FractionFault (top ++ '/' :: bottom) .divisionByZero

theorem count_bar {top bottom : List Char} :
    (top ++ '/' :: bottom).count '/' = 1 ↔ '/' ∉ top ∧ '/' ∉ bottom := by
  rw [List.count_append, List.count_cons_self, ← List.count_eq_zero, ← List.count_eq_zero]
  omega

theorem fractionText_or_fault (chars : List Char) :
    (∃ q, FractionText chars q) ∨ ∃ error, FractionFault chars error := by
  by_cases bar : '/' ∈ chars
  · obtain ⟨top, bottom, rfl, noBar⟩ := List.eq_append_cons_of_mem bar
    by_cases single : '/' ∈ bottom
    · refine .inr ⟨_, .bars ?_⟩
      rw [List.count_append, List.count_cons_self]
      have := List.count_pos_iff.mpr single
      omega
    · have single := count_bar.mpr ⟨noBar, single⟩
      rcases integerText_or_fault top with ⟨n, numerator⟩ | ⟨error, fault⟩
      · rcases integerText_or_fault bottom with ⟨d, denominator⟩ | ⟨error, fault⟩
        · by_cases zero : d = 0
          · subst zero
            exact .inr ⟨_, .zero numerator denominator⟩
          · exact .inl ⟨_, .quotient numerator denominator zero⟩
        · exact .inr ⟨_, .denominator single numerator fault⟩
      · exact .inr ⟨_, .numerator single fault⟩
  · rcases integerText_or_fault chars with ⟨n, text⟩ | ⟨error, fault⟩
    · exact .inl ⟨_, .integer text⟩
    · exact .inr ⟨_, .integer bar fault⟩

theorem FractionText.read {chars : List Char} {q : ℚ} (text : FractionText chars q) :
    Rational.read chars = .ok (.ofRat q) := by
  cases text with
  | integer text => rw [Rational.read_of_integer text.noBar text.read, Rational.ofInt_eq]
  | @quotient top bottom n d numerator denominator nonzero =>
    rw [Rational.read_bar numerator.noBar, if_neg denominator.noBar, numerator.read, denominator.read]
    show Rational.ofIntegers (.ofInt n) (.ofInt d) = _
    rw [Rational.ofIntegers_eq, Integer.toInt_ofInt, Integer.toInt_ofInt, if_neg nonzero]

theorem FractionFault.read {chars : List Char} {error : Error} (fault : FractionFault chars error) :
    Rational.read chars = .error error := by
  cases fault with
  | bars several =>
    have bar : '/' ∈ chars := List.count_pos_iff.mp (by omega)
    obtain ⟨top, bottom, rfl, noBar⟩ := List.eq_append_cons_of_mem bar
    have again : '/' ∈ bottom := by
      rw [List.count_append, List.count_cons_self, List.count_eq_zero.mpr noBar] at several
      exact List.count_pos_iff.mp (by omega)
    rw [Rational.read_bar noBar, if_pos again]
  | integer noBar fault =>
    rw [Rational.read_of_noBar noBar, fault.read]
    rfl
  | numerator single fault =>
    obtain ⟨noBar, single⟩ := count_bar.mp single
    rw [Rational.read_bar noBar, if_neg single, fault.read]
    rfl
  | denominator single numerator fault =>
    obtain ⟨noBar, single⟩ := count_bar.mp single
    rw [Rational.read_bar noBar, if_neg single, numerator.read, fault.read]
    rfl
  | @zero top bottom n numerator denominator =>
    rw [Rational.read_bar numerator.noBar, if_neg denominator.noBar, numerator.read, denominator.read]
    show Rational.ofIntegers (.ofInt n) (.ofInt 0) = _
    rw [Rational.ofIntegers_eq, Integer.toInt_ofInt, if_pos rfl]

/-! ## Numbers of a field -/

namespace Scalar

/-- The modulus is prime, so only the text is judged. -/
theorem read_residues (p : Modulus) (chars : List Char) :
    read (.residues p.value) chars = residue p <$> Residue.read p chars := by
  show (Modulus.ofInt? p.value >>= fun q => residue q <$> Residue.read q chars) = _
  rw [Modulus.ofInt?_value]
  rfl

theorem read_rationals_iff (chars : List Char) :
    (∀ x, read .rationals chars = .ok x ↔ ∃ q, FractionText chars q ∧ x = .rational (.ofRat q)) ∧
    ∀ error, read .rationals chars = .error error ↔ FractionFault chars error := by
  refine outcome_iff ?_ (fun error fault => congrArg (rational <$> ·) fault.read) ?_
  · rintro x ⟨q, text, rfl⟩
    exact congrArg (rational <$> ·) text.read
  · rcases fractionText_or_fault chars with ⟨q, text⟩ | fault
    · exact .inl ⟨_, q, text, rfl⟩
    · exact .inr fault

theorem read_residues_iff (p : Modulus) (chars : List Char) :
    (∀ x, read (.residues p.value) chars = .ok x ↔
      ∃ n y, IntegerText chars n ∧ x = .residue p y ∧ (y.value : Int) = n % p.value) ∧
    ∀ error, read (.residues p.value) chars = .error error ↔ IntegerFault chars error := by
  rw [read_residues]
  refine outcome_iff ?_ (fun error fault => ?_) ?_
  · rintro x ⟨n, y, text, rfl, value⟩
    rw [Residue.read_of_integer text.read, Residue.eq_ofInt_iff.mpr value]
    rfl
  · rw [Residue.read, fault.read]
    rfl
  · rcases integerText_or_fault chars with ⟨n, text⟩ | fault
    · exact .inl ⟨_, n, .ofInt p n, text, rfl, Residue.eq_ofInt_iff.mp rfl⟩
    · exact .inr fault

/-- A number is read exactly from the texts that write it. A rational number is read from an integer or from two
integers around a bar, as their quotient in lowest terms, and a residue from an integer, as its remainder. Every
other text is reported with its fault. -/
theorem read_recognises :
    (∀ chars x, read .rationals chars = .ok x ↔ ∃ q, FractionText chars q ∧ x = .rational (.ofRat q)) ∧
    (∀ chars error, read .rationals chars = .error error ↔ FractionFault chars error) ∧
    (∀ (p : Modulus) chars x, read (.residues p.value) chars = .ok x ↔
      ∃ n y, IntegerText chars n ∧ x = .residue p y ∧ (y.value : Int) = n % p.value) ∧
    (∀ (p : Modulus) chars error, read (.residues p.value) chars = .error error ↔
      IntegerFault chars error) :=
  ⟨fun chars => (read_rationals_iff chars).1, fun chars => (read_rationals_iff chars).2,
    fun p chars => (read_residues_iff p chars).1, fun p chars => (read_residues_iff p chars).2⟩

/-- Blanks stand on both sides of each integer, but not behind its sign. -/
example :
    (text <$> read .rationals " -6 /\t4\n".toList).toOption = some "-3/2" ∧
      (text <$> read .rationals "- 6".toList).toOption = none := by
  decide +kernel

end Scalar

end Abacus
