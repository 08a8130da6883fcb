/-!
# Expressions

An expression is a literal, a variable, or an operation or function applied to expressions. It
has no type of its own: what it means depends on the type that it is evaluated at.
-/

namespace Abacus

/-- The functions of one operand. -/
inductive UnaryFunction where
  | neg
  | inv
  | det
  | rank
  | rref
deriving DecidableEq

/-- The operations and functions of two operands. -/
inductive BinaryOperation where
  | add
  | sub
  | mul
  | div
  | pow
  | scale
deriving DecidableEq

namespace UnaryFunction

def text : UnaryFunction → String
  | neg => "neg"
  | inv => "inv"
  | det => "det"
  | rank => "rank"
  | rref => "rref"

def all : List UnaryFunction := [neg, inv, det, rank, rref]

def ofText? (text : String) : Option UnaryFunction :=
  all.find? (·.text == text)

end UnaryFunction

namespace BinaryOperation

/-- The sign or name of the operation. -/
def text : BinaryOperation → String
  | add => "+"
  | sub => "-"
  | mul => "*"
  | div => "/"
  | pow => "pow"
  | scale => "scale"

/-- The operations written as a sign. -/
def signs : List BinaryOperation := [add, sub, mul, div]

/-- The operations written as a name. -/
def names : List BinaryOperation := [pow, scale]

def ofSign? (text : String) : Option BinaryOperation :=
  signs.find? (·.text == text)

def ofName? (text : String) : Option BinaryOperation :=
  names.find? (·.text == text)

end BinaryOperation

inductive Expr where
  | literal (text : String)
  | var (name : String)
  | unary (function : UnaryFunction) (operand : Expr)
  | binary (operation : BinaryOperation) (left right : Expr)
deriving DecidableEq

/-- The levels of nesting that the calculator reads and evaluates. The number stands for the limit on
recursion of the system that runs the calculator, which the calculator does not choose; so what is
proved about reading and evaluating is proved for any number of levels. -/
def Expr.maxLevels : Nat := 900

end Abacus
