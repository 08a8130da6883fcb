import Abacus.Natural.Division

/-!
# Decimal text of natural numbers

Reading folds in one digit after the other; writing divides by ten until nothing is left.
-/

namespace Abacus.Natural

/-- The number that a decimal digit stands for. -/
def ofDigit (digit : Char) : Natural :=
  ofNat (digit.toNat - '0'.toNat)

/-- Folds the digits in `chars` into `sum`. -/
def readFrom (sum : Natural) : List Char → Except Error Natural
  | [] => .ok sum
  | c :: rest =>
    if c.isDigit then readFrom ((sum.multiply ten).add (ofDigit c)) rest
    else .error (.invalidDigit c)

/-- The number with the decimal digits `chars`; no digits stand for zero. The first character that
is no digit is reported. -/
def read (chars : List Char) : Except Error Natural :=
  readFrom zero chars

/-- The decimal digits of `n` before those already `written`; none for zero. -/
def digitsOnto (n : Natural) (written : List Char) : List Char :=
  if n.isZero then written
  else digitsOnto (n.divMod ten).1 (Nat.digitChar (n.divMod ten).2.toNat :: written)
termination_by n.toNat
decreasing_by
  rename_i nonzero
  rw [isZero_iff] at nonzero
  rw [toNat_divMod_fst n (by simp), toNat_ten]
  omega

/-- The decimal digits, without leading zeros except in zero itself. -/
def digits (n : Natural) : List Char :=
  if n.isZero then ['0'] else digitsOnto n []

def text (n : Natural) : String :=
  String.ofList n.digits

end Abacus.Natural
