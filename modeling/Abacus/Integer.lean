import Abacus.Natural.Decimal

/-!
# Integers

An integer is a sign and a magnitude. Zero has no sign, so every integer has one representation.
Sums of unlike signs subtract the smaller magnitude from the larger, which decides the sign.
-/

namespace Abacus

/-- An integer of any size. -/
structure Integer where
  negative : Bool
  magnitude : Natural
  zero_unsigned : magnitude.isZero = true → negative = false
deriving DecidableEq

namespace Integer

/-- The integer with the given magnitude and, unless it is zero, the given sign. -/
def signed (negative : Bool) (magnitude : Natural) : Integer :=
  ⟨negative && !magnitude.isZero, magnitude, fun zero => by simp [zero]⟩

/-- The integer itself. -/
def toInt (a : Integer) : Int :=
  if a.negative then -(a.magnitude.toNat : Int) else a.magnitude.toNat

/-- The integer `value` as sign and magnitude. -/
def ofInt (value : Int) : Integer :=
  signed (value < 0) (Natural.ofNat value.natAbs)

def zero : Integer := ofInt 0

def one : Integer := ofInt 1

instance : Inhabited Integer := ⟨zero⟩

def isZero (a : Integer) : Bool :=
  a.magnitude.isZero

def isOne (a : Integer) : Bool :=
  !a.negative && a.magnitude.isOne

def add (a b : Integer) : Integer :=
  if a.negative = b.negative then signed a.negative (a.magnitude.add b.magnitude)
  else
    let difference := a.magnitude.monus b.magnitude
    if difference.2 then signed b.negative (b.magnitude.monus a.magnitude).1
    else signed a.negative difference.1

def negate (a : Integer) : Integer :=
  signed (!a.negative) a.magnitude

def subtract (a b : Integer) : Integer :=
  a.add b.negate

def multiply (a b : Integer) : Integer :=
  signed (a.negative != b.negative) (a.magnitude.multiply b.magnitude)

/-- The quotient by a natural number, rounded toward zero; the divisor must not be zero. -/
def divide (a : Integer) (divisor : Natural) : Except Error Integer := do
  let (quotient, _) ← a.magnitude.divide divisor
  return signed a.negative quotient

/-- The integer written as decimal digits after at most one minus sign; at least one digit is
required. -/
def read (chars : List Char) : Except Error Integer :=
  match chars with
  | [] | ['-'] => .error (.invalidInteger (String.ofList chars))
  | '-' :: digits => do return signed true (← Natural.read digits)
  | digits => do return signed false (← Natural.read digits)

def text (a : Integer) : String :=
  if a.negative then "-" ++ a.magnitude.text else a.magnitude.text

@[simp] theorem magnitude_signed (negative : Bool) (magnitude : Natural) :
    (signed negative magnitude).magnitude = magnitude :=
  rfl

/-- A signed magnitude is plus or minus the magnitude. -/
@[simp] theorem toInt_signed (negative : Bool) (magnitude : Natural) :
    (signed negative magnitude).toInt =
      if negative then -(magnitude.toNat : Int) else magnitude.toNat := by
  cases negative
  · simp [toInt, signed]
  · cases zero : magnitude.isZero
    · simp [toInt, signed, zero]
    · simp [toInt, signed, zero, Natural.isZero_iff.mp zero]

@[simp] theorem toInt_ofInt (value : Int) : (ofInt value).toInt = value := by
  rw [ofInt, toInt_signed, Natural.toNat_ofNat]
  by_cases below : value < 0
  · rw [if_pos (decide_eq_true below)]
    omega
  · rw [if_neg (by simpa using below)]
    omega

theorem isZero_iff {a : Integer} : a.isZero = true ↔ a.toInt = 0 := by
  rw [isZero, Natural.isZero_iff, toInt]
  split <;> omega

/-- Two representations of one integer are the same. -/
theorem toInt_inj {a b : Integer} : a.toInt = b.toInt ↔ a = b := by
  refine ⟨fun same => ?_, fun same => same ▸ rfl⟩
  have leftUnsigned := mt a.zero_unsigned
  have rightUnsigned := mt b.zero_unsigned
  rw [Natural.isZero_iff] at leftUnsigned rightUnsigned
  have magnitudes : a.magnitude = b.magnitude := by
    rw [← Natural.toNat_inj]
    simp only [toInt] at same
    split at same <;> split at same <;> omega
  have signs : a.negative = b.negative := by
    simp only [toInt, magnitudes] at same leftUnsigned
    cases left : a.negative <;> cases right : b.negative
    · rfl
    · have nonzero := rightUnsigned (by simp [right])
      simp only [left, right, Bool.false_eq_true, if_true, if_false] at same
      omega
    · have nonzero := leftUnsigned (by simp [left])
      simp only [left, right, Bool.false_eq_true, if_true, if_false] at same
      omega
    · rfl
  cases a; cases b; simp_all

end Integer

end Abacus
