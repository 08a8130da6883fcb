import Abacus.Expr
import Abacus.ValueType

/-!
# Commands

A command leaves the calculator, defines a variable or evaluates an expression. Numbers and
expressions are not part of the command; they stand on the lines that follow it.
-/

namespace Abacus

inductive Command where
  | exit
  /-- The number stands on the next line. -/
  | defineScalar (field : NumberField) (name : String)
  /-- The rows stand on the next `height` lines. -/
  | defineMatrix (field : NumberField) (height width : Nat) (name : String)
  /-- The expression stands on the next line. -/
  | evaluate (type : ValueType)
deriving DecidableEq

namespace Command

/-- The words that commands begin with. -/
def keywords : List String := ["EXIT", "DEF", "EVAL"]

/-- The names that no variable can have. -/
def reservedNames : List String :=
  keywords ++ UnaryFunction.all.map UnaryFunction.text ++
    BinaryOperation.names.map BinaryOperation.text ++ ["Q", "Z", "Matrix"]

end Command

end Abacus
