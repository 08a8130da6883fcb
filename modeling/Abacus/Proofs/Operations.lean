import Abacus.Evaluation
import Abacus.Proofs.Computation

/-!
# Operations on values

The functions and operations whose operands have the type of the whole: first the operands are
evaluated, from left to right, and then their values are combined. Where an expression has a value,
there was a level of nesting for every operation and function in it.
-/

namespace Abacus

/-- What a function does to a number, if its operand is a number as well. -/
def UnaryFunction.onNumber? : UnaryFunction → Option (Scalar → Except Error Scalar)
  | neg => some fun x => .ok x.negate
  | inv => some Scalar.reciprocal
  | det | rank | rref => none

/-- What a function does to a matrix, if its value is a matrix as well. -/
def UnaryFunction.onMatrix? : UnaryFunction → Option (Matrix → Except Error Matrix)
  | neg => some Matrix.negate
  | rref => some fun a => Matrix.Reduced.form <$> a.reduce
  | inv | det | rank => none

/-- What an operation makes of two numbers. -/
def BinaryOperation.onNumbers? : BinaryOperation → Option (Scalar → Scalar → Except Error Scalar)
  | add => some Scalar.add
  | sub => some Scalar.subtract
  | mul => some Scalar.multiply
  | div => some Scalar.divide
  | pow | scale => none

/-- What an operation makes of two matrices. -/
def BinaryOperation.onMatrices? : BinaryOperation → Option (Matrix → Matrix → Except Error Matrix)
  | add => some Matrix.add
  | sub => some Matrix.subtract
  | mul => some Matrix.multiply
  | div | pow | scale => none

namespace Expr
variable {store : Store Value} {function : UnaryFunction} {operation : BinaryOperation}
  {e l r : Expr} {levels : Nat} {field : NumberField}

theorem evaluateScalar_unary {apply : Scalar → Except Error Scalar}
    (known : function.onNumber? = some apply) :
    evaluateScalar store (levels + 1) field (.unary function e) =
      (evaluateScalar store levels field e >>= apply) := by
  cases function with
  | neg =>
    cases known
    rw [evaluateScalar]
    rfl
  | inv =>
    cases known
    rw [evaluateScalar]
  | det => cases known
  | rank => cases known
  | rref => cases known

theorem evaluateMatrix_unary {apply : Matrix → Except Error Matrix}
    (known : function.onMatrix? = some apply) :
    evaluateMatrix store (levels + 1) field (.unary function e) =
      (evaluateMatrix store levels field e >>= apply) := by
  cases function with
  | neg =>
    cases known
    rw [evaluateMatrix]
  | rref =>
    cases known
    rw [evaluateMatrix]
    rfl
  | inv => cases known
  | det => cases known
  | rank => cases known

theorem evaluateScalar_binary {combine : Scalar → Scalar → Except Error Scalar}
    (known : operation.onNumbers? = some combine) :
    evaluateScalar store (levels + 1) field (.binary operation l r) =
      (evaluateScalar store levels field l >>= fun x =>
        evaluateScalar store levels field r >>= combine x) := by
  cases operation with
  | pow => cases known
  | scale => cases known
  | _ =>
    cases known
    rw [evaluateScalar]

theorem evaluateMatrix_binary {combine : Matrix → Matrix → Except Error Matrix}
    (known : operation.onMatrices? = some combine) :
    evaluateMatrix store (levels + 1) field (.binary operation l r) =
      (evaluateMatrix store levels field l >>= fun a =>
        evaluateMatrix store levels field r >>= combine a) := by
  cases operation with
  | div => cases known
  | pow => cases known
  | scale => cases known
  | _ =>
    cases known
    rw [evaluateMatrix]

end Expr

end Abacus
