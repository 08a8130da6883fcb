import Abacus.Matrix.Basic
import Abacus.Token

/-!
# Descriptions

How numbers, matrices and tokens are described to someone who has to tell them apart: with the
word for what they are in front.
-/

namespace Abacus

def Natural.describe (n : Natural) : String :=
  "Natural(" ++ n.text ++ ")"

def Integer.describe (a : Integer) : String :=
  "Integer(" ++ a.text ++ ")"

def Rational.describe (x : Rational) : String :=
  "Rational(" ++ x.text ++ ")"

def Residue.describe {p : Modulus} (x : Residue p) : String :=
  "Residue(" ++ x.text ++ ", mod " ++ toString p.value ++ ")"

def Modulus.describe (p : Modulus) : String :=
  "PrimeField(" ++ toString p.value ++ ")"

def Scalar.describe : Scalar → String
  | rational x => x.describe
  | residue _ x => x.describe

/-- Texts in brackets, with commas between them. -/
def bracketed (texts : List String) : String :=
  "[" ++ ", ".intercalate texts ++ "]"

def Matrix.describe (a : Matrix) : String :=
  "Matrix(" ++ Error.shapeText a.shape ++ ", " ++
    bracketed (a.rows.map fun row => bracketed (row.map Scalar.describe)) ++ ")"

/-- The name of a kind of tokens. -/
def TokenKind.text : TokenKind → String
  | special => "special"
  | literal => "literal"
  | name => "name"
  | lineEnd => "end"

/-- The token's kind and text, and what it is. -/
def Token.describe (token : Token) : String :=
  "Token(" ++ token.kind.text ++ ", " ++ Text.quote token.text ++ ")"

end Abacus
