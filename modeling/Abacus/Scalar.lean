import Abacus.Exponent
import Abacus.Rational
import Abacus.Residue
import Abacus.ValueType

/-!
# Numbers of any field

A number is a rational number or a residue. Two numbers combine only within one field.
-/

namespace Abacus

inductive Scalar where
  | rational (x : Rational)
  | residue (p : Modulus) (x : Residue p)
deriving DecidableEq

namespace Scalar

/-- The field that a number belongs to. -/
def field : Scalar → NumberField
  | rational _ => .rationals
  | residue p _ => .residues p.value

/-- The residue of `value` modulo `modulus`, which must be a prime below 2^32. -/
def residueOf (value modulus : Int) : Except Error Scalar := do
  let p ← Modulus.ofInt? modulus
  return residue p (.ofInt p value)

/-- Combines two numbers of one field by the operation of that field. -/
def combine (rationals : Rational → Rational → Except Error Rational)
    (residues : (p : Modulus) → Residue p → Residue p → Except Error (Residue p)) :
    Scalar → Scalar → Except Error Scalar
  | rational x, rational y => rational <$> rationals x y
  | residue p x, residue q y =>
    if same : p = q then residue q <$> residues q (same ▸ x) y
    else .error (.incompatibleModuli p.value q.value)
  | rational _, residue _ _ | residue _ _, rational _ => .error .mixedFields

def add : Scalar → Scalar → Except Error Scalar :=
  combine (fun x y => .ok (x.add y)) fun _ x y => .ok (x.add y)

def subtract : Scalar → Scalar → Except Error Scalar :=
  combine (fun x y => .ok (x.subtract y)) fun _ x y => .ok (x.subtract y)

def multiply : Scalar → Scalar → Except Error Scalar :=
  combine (fun x y => .ok (x.multiply y)) fun _ x y => .ok (x.multiply y)

/-- The quotient; the divisor must not be zero, and is judged after the fields. -/
def divide : Scalar → Scalar → Except Error Scalar :=
  combine Rational.divide fun _ => Residue.divide

def reciprocal : Scalar → Except Error Scalar
  | rational x => rational <$> x.reciprocal
  | residue p x => residue p <$> x.reciprocal

def negate : Scalar → Scalar
  | rational x => rational x.negate
  | residue p x => residue p x.negate

/-- The power of a residue. -/
def power : Scalar → Int → Except Error Scalar
  | rational _, _ => .error (.misplaced "pow" (.operationOn (.scalar .rationals)))
  | residue p x, exponent => residue p <$> x.power exponent

/-- The power of a residue with the exponent written as `literal`. -/
def powerOf : Scalar → List Char → Except Error Scalar
  | rational x, _ => power (rational x) 0
  | residue p x, literal => power (residue p x) (exponentOf literal p.value)

/-- The zero of the number's own field. -/
def zeroLike : Scalar → Scalar
  | rational _ => rational .zero
  | residue p _ => residue p (.zero p)

/-- The one of the number's own field. -/
def oneLike : Scalar → Scalar
  | rational _ => rational .one
  | residue p _ => residue p (.one p)

def isZero : Scalar → Bool
  | rational x => x.isZero
  | residue _ x => x.isZero

def isOne : Scalar → Bool
  | rational x => x.isOne
  | residue _ x => x.isOne

/-- The number of the given field that `chars` write; a field of residues needs a prime modulus
before anything is read. -/
def read (field : NumberField) (chars : List Char) : Except Error Scalar :=
  match field with
  | .rationals => rational <$> Rational.read chars
  | .residues modulus => do
    let p ← Modulus.ofInt? modulus
    return residue p (← Residue.read p chars)

/-- The number as results show it. -/
def text : Scalar → String
  | rational x => x.text
  | residue _ x => x.text

end Scalar

end Abacus
