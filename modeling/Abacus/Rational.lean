import Abacus.Integer
import Abacus.Text.Blank

/-!
# Rational numbers

A rational number is a fraction in lowest terms with a positive denominator, so every number has
one representation. Each operation works on fractions and reduces its result.
-/

namespace Abacus

structure Rational where
  numerator : Integer
  denominator : Natural
  positive : 0 < denominator.toNat
  lowest : Nat.gcd numerator.magnitude.toNat denominator.toNat = 1
deriving DecidableEq

namespace Rational

/-- The fraction of two integers in lowest terms, the sign on the numerator. -/
def reduce (numerator denominator : Integer) (nonzero : 0 < denominator.magnitude.toNat) :
    Rational :=
  let common := Natural.gcd numerator.magnitude denominator.magnitude
  have divides : 0 < common.toNat := by
    rw [Natural.toNat_gcd]
    exact Nat.gcd_pos_of_pos_right _ nonzero
  { numerator :=
      .signed (numerator.negative != denominator.negative) (numerator.magnitude.divMod common).1
    denominator := (denominator.magnitude.divMod common).1
    positive := by
      rw [Natural.toNat_divMod_fst _ divides, Natural.toNat_gcd]
      exact Nat.div_pos (Nat.gcd_le_right _ nonzero) (Nat.gcd_pos_of_pos_right _ nonzero)
    lowest := by
      rw [Integer.magnitude_signed, Natural.toNat_divMod_fst _ divides,
        Natural.toNat_divMod_fst _ divides, Natural.toNat_gcd]
      exact Nat.coprime_div_gcd_div_gcd (Nat.gcd_pos_of_pos_right _ nonzero) }

/-- The fraction of two integers; the denominator must not be zero. -/
def ofIntegers (numerator denominator : Integer) : Except Error Rational :=
  if nonzero : 0 < denominator.magnitude.toNat then .ok (reduce numerator denominator nonzero)
  else .error .divisionByZero

/-- The integer as a fraction. -/
def ofInteger (a : Integer) : Rational :=
  reduce a .one (by decide +kernel)

/-- The integer `value` as a fraction. -/
def ofInt (value : Int) : Rational :=
  ofInteger (.ofInt value)

def zero : Rational := ofInt 0

def one : Rational := ofInt 1

instance : Inhabited Rational := ⟨zero⟩

/-- The denominator with its sign. -/
def bottom (x : Rational) : Integer :=
  .signed false x.denominator

def isZero (x : Rational) : Bool :=
  x.numerator.isZero

def isOne (x : Rational) : Bool :=
  x.numerator.isOne && x.denominator.isOne

theorem product_positive (x y : Rational) :
    0 < (x.bottom.multiply y.bottom).magnitude.toNat := by
  simp only [bottom, Integer.multiply, Integer.magnitude_signed, Natural.toNat_multiply]
  exact Nat.mul_pos x.positive y.positive

def add (x y : Rational) : Rational :=
  reduce ((x.numerator.multiply y.bottom).add (x.bottom.multiply y.numerator))
    (x.bottom.multiply y.bottom) (product_positive x y)

def subtract (x y : Rational) : Rational :=
  reduce ((x.numerator.multiply y.bottom).subtract (x.bottom.multiply y.numerator))
    (x.bottom.multiply y.bottom) (product_positive x y)

def multiply (x y : Rational) : Rational :=
  reduce (x.numerator.multiply y.numerator) (x.bottom.multiply y.bottom) (product_positive x y)

/-- The quotient; the divisor must not be zero. -/
def divide (x y : Rational) : Except Error Rational :=
  ofIntegers (x.numerator.multiply y.bottom) (x.bottom.multiply y.numerator)

def reciprocal (x : Rational) : Except Error Rational :=
  if nonzero : 0 < x.numerator.magnitude.toNat then .ok (reduce x.bottom x.numerator nonzero)
  else .error .inverseOfZero

def negate (x : Rational) : Rational :=
  reduce x.numerator.negate x.bottom (by simpa [bottom] using x.positive)

/-- The number written as an integer or as two integers around a bar, blanks allowed around each;
the numerator is judged before the denominator. -/
def read (chars : List Char) : Except Error Rational :=
  let stripped := Text.strip chars
  let numerator := Text.strip (stripped.takeWhile (· != '/'))
  match stripped.dropWhile (· != '/') with
  | [] => do return ofInteger (← Integer.read numerator)
  | _ :: denominator =>
    if denominator.contains '/' then .error (.invalidInteger (String.ofList chars))
    else do ofIntegers (← Integer.read numerator) (← Integer.read (Text.strip denominator))

/-- An integer, or two integers around a bar. -/
def text (x : Rational) : String :=
  if x.denominator.isOne then x.numerator.text
  else x.numerator.text ++ "/" ++ x.denominator.text

end Rational

end Abacus
