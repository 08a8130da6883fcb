/-!
# The types of values

A value is a number of some field or a matrix of such numbers. The fields are the rationals and
the residues modulo a prime; a type only names its modulus, and whoever makes numbers of the field
checks that it is prime.
-/

namespace Abacus

/-- A field of numbers by its name. -/
inductive NumberField where
  | rationals
  | residues (modulus : Int)
deriving DecidableEq

/-- The field as commands write it: `Q` or `Z p`. -/
def NumberField.text : NumberField → String
  | .rationals => "Q"
  | .residues modulus => "Z " ++ toString modulus

/-- The type of a variable or of an expression. -/
inductive ValueType where
  | scalar (field : NumberField)
  | matrix (field : NumberField)
deriving DecidableEq

namespace ValueType

/-- The field of a number, or of the entries of a matrix. -/
def field : ValueType → NumberField
  | scalar field => field
  | matrix field => field

/-- The type as commands write it. -/
def text : ValueType → String
  | scalar field => field.text
  | matrix field => "Matrix[" ++ field.text ++ "]"

end ValueType

end Abacus
