/-!
# Exponents of any length

Raising a residue modulo the prime `p` to an exponent depends on the exponent only modulo `p - 1`
and on whether it is zero. So a long exponent is folded digit by digit and moved into the range
from one to `p - 1`.
-/

namespace Abacus

/-- What a character counts for: its distance from `0`, which for a digit is the digit. -/
def digitWeight (c : Char) : Int :=
  c.toNat - '0'.toNat

/-- The decimal number `digits` modulo `order`, one digit at a time. -/
def foldDigits (order : Nat) (digits : List Char) : Nat :=
  digits.foldl (fun rest digit => ((rest * 10 + digitWeight digit) % order).toNat) 0

/-- An exponent that acts on every residue modulo `modulus` as the decimal number `digits` does:
zero for zero, and otherwise from one to `modulus - 1`. -/
def reduceExponent (digits : List Char) (modulus : Nat) : Nat :=
  if digits.all (· == '0') then 0
  else
    match foldDigits (modulus - 1) digits with
    | 0 => modulus - 1
    | rest + 1 => rest + 1

/-- The exponent that a literal stands for modulo `modulus`, with its sign. -/
def exponentOf (literal : List Char) (modulus : Nat) : Int :=
  let size := reduceExponent (literal.dropWhile (· == '-')) modulus
  if literal.head? = some '-' then -(size : Int) else size

end Abacus
