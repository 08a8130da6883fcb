import Abacus.Expr
import Abacus.Matrix.Reduction
import Abacus.Store
import Abacus.Value

/-!
# Evaluating expressions

The type that an expression is evaluated at decides what it means. Operands have the type of the
whole, with three exceptions: `det` and `rank` take a matrix where a number is wanted, and `scale`
takes a number where a matrix is wanted. The operand of `rank` is a matrix over the field of the
first matrix variable in it, because its result is a rational number whatever that field is.

Each operation and function is one level of nesting, and only so many levels are evaluated. What
can be judged at an operation itself is judged before its operands, and the left operand before
the right one.
-/

namespace Abacus.Expr

/-- The field of the first matrix variable, reading from left to right. -/
def firstMatrixField (store : Store Value) : Expr → Option NumberField
  | literal _ => none
  | var name =>
    match store.typeOf? name with
    | some (.matrix field) => some field
    | _ => none
  | unary _ operand => firstMatrixField store operand
  | binary _ left right =>
    match firstMatrixField store left with
    | some field => some field
    | none => firstMatrixField store right

/-- The number that a variable of the given field holds. -/
def lookupScalar (store : Store Value) (field : NumberField) (name : String) :
    Except Error Scalar := do
  match ← store.lookup name (.scalar field) with
  | .scalar x => return x
  | .matrix a => throw (.wrongType name (.scalar field) (Value.matrix a).type)

/-- The matrix that a variable of the given field holds. -/
def lookupMatrix (store : Store Value) (field : NumberField) (name : String) :
    Except Error Matrix := do
  match ← store.lookup name (.matrix field) with
  | .matrix a => return a
  | .scalar x => throw (.wrongType name (.matrix field) (Value.scalar x).type)

mutual

/-- The number of the given field that an expression stands for. -/
def evaluateScalar (store : Store Value) (levels : Nat) (field : NumberField) :
    Expr → Except Error Scalar
  | literal text => Scalar.read field text.toList
  | var name => lookupScalar store field name
  | unary function operand =>
    match levels with
    | 0 => .error .nestedTooDeeply
    | levels + 1 =>
      match function with
      | .neg => do return (← evaluateScalar store levels field operand).negate
      | .inv => do (← evaluateScalar store levels field operand).reciprocal
      | .det => do (← evaluateMatrix store levels field operand).determinant
      | .rank =>
        match field with
        | .rationals => do
          let place := (firstMatrixField store operand).getD .rationals
          let rank ← (← evaluateMatrix store levels place operand).rank
          return .rational (.ofInt rank)
        | .residues _ => .error (.misplaced "rank" (.functionReturning (.scalar field)))
      | .rref => .error (.misplaced "rref" .functionOnNumbers)
  | binary operation left right =>
    match levels with
    | 0 => .error .nestedTooDeeply
    | levels + 1 =>
      match operation with
      | .pow =>
        match field, right with
        | .rationals, _ => .error (.misplaced "pow" (.operationOn (.scalar field)))
        | .residues _, literal text => do
          (← evaluateScalar store levels field left).powerOf text.toList
        | .residues _, _ => .error .exponentNotLiteral
      | .scale => .error (.misplaced "scale" .functionOnNumbers)
      | .add => do
        let x ← evaluateScalar store levels field left
        x.add (← evaluateScalar store levels field right)
      | .sub => do
        let x ← evaluateScalar store levels field left
        x.subtract (← evaluateScalar store levels field right)
      | .mul => do
        let x ← evaluateScalar store levels field left
        x.multiply (← evaluateScalar store levels field right)
      | .div => do
        let x ← evaluateScalar store levels field left
        x.divide (← evaluateScalar store levels field right)

/-- The matrix over the given field that an expression stands for. -/
def evaluateMatrix (store : Store Value) (levels : Nat) (field : NumberField) :
    Expr → Except Error Matrix
  | literal text => .error (.numberForMatrix text (.matrix field))
  | var name => lookupMatrix store field name
  | unary function operand =>
    match levels with
    | 0 => .error .nestedTooDeeply
    | levels + 1 =>
      match function with
      | .neg => do (← evaluateMatrix store levels field operand).negate
      | .rref => do return (← (← evaluateMatrix store levels field operand).reduce).form
      | .inv | .det | .rank =>
        .error (.misplaced function.text (.functionReturning (.matrix field)))
  | binary operation left right =>
    match levels with
    | 0 => .error .nestedTooDeeply
    | levels + 1 =>
      match operation with
      | .scale => do
        let factor ← evaluateScalar store levels field left
        (← evaluateMatrix store levels field right).scale factor
      | .div | .pow => .error (.misplaced operation.text .operationOnMatrices)
      | .add => do
        let a ← evaluateMatrix store levels field left
        a.add (← evaluateMatrix store levels field right)
      | .sub => do
        let a ← evaluateMatrix store levels field left
        a.subtract (← evaluateMatrix store levels field right)
      | .mul => do
        let a ← evaluateMatrix store levels field left
        a.multiply (← evaluateMatrix store levels field right)

end

/-- The value of the given type that an expression stands for, if `levels` leave room for it. -/
def evaluate (store : Store Value) (type : ValueType) (expression : Expr)
    (levels : Nat := maxLevels) : Except Error Value :=
  match type with
  | .scalar field => Value.scalar <$> evaluateScalar store levels field expression
  | .matrix field => Value.matrix <$> evaluateMatrix store levels field expression

end Abacus.Expr
