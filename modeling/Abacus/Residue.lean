import Abacus.Integer
import Abacus.Modulus
import Abacus.Text.Blank

/-!
# Residues modulo a prime

The residues modulo one prime are the numbers below it. Sums wrap around at the modulus, products
double and add, powers square and multiply, and the inverse is the power with exponent `p - 2`;
no sum on the way reaches twice the modulus.
-/

namespace Abacus

structure Residue (p : Modulus) where
  value : Nat
  value_lt : value < p.value
deriving DecidableEq

namespace Residue
variable {p : Modulus}

/-- The residue of an integer, which wraps around when it is negative. -/
def ofInt (p : Modulus) (value : Int) : Residue p where
  value := (value % p.value).toNat
  value_lt := by
    have := p.value_pos
    have := Int.emod_nonneg value (b := p.value) (by omega)
    have := Int.emod_lt_of_pos value (b := p.value) (by omega)
    omega

/-- The remainder of a natural number. -/
def ofNatural (p : Modulus) (n : Natural) : Residue p where
  value := (n.divMod (.ofNat p.value)).2.toNat
  value_lt := by
    rw [Natural.toNat_divMod_snd _ (by simpa using p.value_pos), Natural.toNat_ofNat]
    exact Nat.mod_lt _ p.value_pos

def zero (p : Modulus) : Residue p := ⟨0, p.value_pos⟩

def one (p : Modulus) : Residue p := ⟨1, p.two_le⟩

def isZero (x : Residue p) : Bool :=
  x.value == 0

def isOne (x : Residue p) : Bool :=
  x.value == 1

/-- The sum, wrapped around at the modulus. -/
def add (x y : Residue p) : Residue p :=
  if _ : x.value + y.value < p.value then ⟨x.value + y.value, by omega⟩
  else ⟨x.value + y.value - p.value, by have := x.value_lt; have := y.value_lt; omega⟩

/-- The difference, wrapped around at zero. -/
def subtract (x y : Residue p) : Residue p :=
  if _ : y.value ≤ x.value then ⟨x.value - y.value, by have := x.value_lt; omega⟩
  else ⟨p.value - (y.value - x.value), by have := p.value_pos; omega⟩

def negate (x : Residue p) : Residue p :=
  if _ : x.value = 0 then x else ⟨p.value - x.value, by have := p.value_pos; omega⟩

/-- Adds `addend` to `sum` `count` times, doubling the addend for each bit of the count. -/
def addTimes (sum addend : Residue p) (count : Nat) : Residue p :=
  if count = 0 then sum
  else addTimes (if count % 2 = 1 then sum.add addend else sum) (addend.add addend) (count / 2)

/-- The product, by doubling and adding over the bits of `y`. -/
def multiply (x y : Residue p) : Residue p :=
  addTimes (zero p) x y.value

/-- Multiplies `product` by `base` `count` times, squaring the base for each bit of the count. -/
def multiplyTimes (product base : Residue p) (count : Nat) : Residue p :=
  if count = 0 then product
  else
    multiplyTimes (if count % 2 = 1 then product.multiply base else product)
      (base.multiply base) (count / 2)

def pow (x : Residue p) (exponent : Nat) : Residue p :=
  multiplyTimes (one p) x exponent

def reciprocal (x : Residue p) : Except Error (Residue p) :=
  if x.isZero then .error .inverseOfZero else .ok (x.pow (p.value - 2))

/-- The quotient; the divisor must not be zero. -/
def divide (x y : Residue p) : Except Error (Residue p) :=
  if y.isZero then .error .divisionByZero else do return x.multiply (← y.reciprocal)

/-- The power with any integer exponent; a negative one raises the inverse. -/
def power (x : Residue p) (exponent : Int) : Except Error (Residue p) :=
  if exponent < 0 then do return (← x.reciprocal).pow exponent.natAbs
  else .ok (x.pow exponent.natAbs)

/-- The residue of an integer of any size, written in decimal with blanks allowed around it. -/
def read (p : Modulus) (chars : List Char) : Except Error (Residue p) := do
  let a ← Integer.read (Text.strip chars)
  let x := ofNatural p a.magnitude
  return if a.negative then x.negate else x

/-- The value in decimal; the modulus is known from context. -/
def text (x : Residue p) : String :=
  toString x.value

end Residue

end Abacus
