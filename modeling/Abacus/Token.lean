/-!
# Tokens

The pieces of a line: special characters, integer literals, names, and the end of the line. A
literal is a run of digits, with a minus sign when one stands immediately before it; a name is a
letter or underscore followed by letters, digits and underscores. All of these are ASCII.
-/

namespace Abacus

inductive TokenKind where
  | special
  | literal
  | name
  | lineEnd
deriving DecidableEq

/-- A token and the place where it starts, counted from zero. -/
structure Token where
  kind : TokenKind
  text : String
  position : Nat
deriving DecidableEq

namespace Token

/-- Whether `c` separates tokens and means nothing else. -/
def isGap (c : Char) : Bool :=
  c == ' ' || c == '\t'

/-- Whether `c` is a token by itself; a minus sign is one unless a digit follows it. -/
def isSpecial (c : Char) : Bool :=
  ['+', '*', '/', '[', ']', '(', ')', '-'].contains c

def startsName (c : Char) : Bool :=
  c.isAlpha || c == '_'

def continuesName (c : Char) : Bool :=
  startsName c || c.isDigit

/-- Kind and characters of the longest token that begins with `first` and goes on in `rest`;
nothing if `first` begins no token. -/
def lexeme? (first : Char) (rest : List Char) : Option (TokenKind × List Char) :=
  let digits := rest.takeWhile Char.isDigit
  if first.isDigit || (first == '-' && !digits.isEmpty) then some (.literal, first :: digits)
  else if isSpecial first then some (.special, [first])
  else if startsName first then some (.name, first :: rest.takeWhile continuesName)
  else none

/-- A token is never empty. -/
theorem lexeme?_ne_nil {first : Char} {rest : List Char} {kind : TokenKind} {lexeme : List Char}
    (found : lexeme? first rest = some (kind, lexeme)) : lexeme ≠ [] := by
  grind [lexeme?]

/-- A line end is no token of the line. -/
theorem lexeme?_kind_ne {first : Char} {rest : List Char} {kind : TokenKind} {lexeme : List Char}
    (found : lexeme? first rest = some (kind, lexeme)) : kind ≠ .lineEnd := by
  grind [lexeme?]

end Token

end Abacus
