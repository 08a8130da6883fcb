import Abacus.Expr
import Abacus.Lexer

/-!
# Reading expressions

Expressions are written with the operation first. Parentheses around an expression change nothing
but count, like every operation and function, as one level of nesting.
-/

namespace Abacus.Expr

/-- What an expression begins with. -/
inductive Head where
  | leaf (expression : Expr)
  | group
  | unary (function : UnaryFunction)
  | binary (operation : BinaryOperation)

def Head.ofToken (token : Token) : Except Error Head :=
  match token.kind with
  | .literal => .ok (.leaf (.literal token.text))
  | .name =>
    match UnaryFunction.ofText? token.text, BinaryOperation.ofName? token.text with
    | some function, _ => .ok (.unary function)
    | none, some operation => .ok (.binary operation)
    | none, none => .ok (.leaf (.var token.text))
  | .special =>
    if token.text = "(" then .ok .group
    else
      match BinaryOperation.ofSign? token.text with
      | some operation => .ok (.binary operation)
      | none => .error (.unexpected token.text token.position)
  | .lineEnd => .error .incompleteExpression

/-- Takes the token that an expression begins with. -/
def readHead : EStateM Error Lexer Head := do
  let token ← Lexer.next
  match Head.ofToken token with
  | .ok head => return head
  | .error error => throw error

/-- Reads one expression of at most `levels` levels of nesting. -/
def readNested : (levels : Nat) → EStateM Error Lexer Expr
  | 0 => do
    match ← readHead with
    | .leaf expression => return expression
    | _ => throw .nestedTooDeeply
  | levels + 1 => do
    match ← readHead with
    | .leaf expression => return expression
    | .group =>
      let inner ← readNested levels
      Lexer.expect ")"
      return inner
    | .unary function => return .unary function (← readNested levels)
    | .binary operation =>
      let left ← readNested levels
      return .binary operation left (← readNested levels)

/-- The expression of at most `levels` levels of nesting that makes up a whole line. -/
def ofText (line : String) (levels : Nat := maxLevels) : Except Error Expr :=
  Lexer.read (do let expression ← readNested levels; Lexer.expectEnd; return expression) line

end Abacus.Expr
