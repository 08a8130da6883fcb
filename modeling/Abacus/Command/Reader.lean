import Abacus.Command
import Abacus.Lexer
import Abacus.Modulus

/-!
# Reading commands

`EXIT`, `EVAL` and a type, or `DEF`, a type, the height and width if it is a matrix type, and a
name. Moduli and dimensions have at most ten digits, leading zeros aside, and moduli are checked
to be prime as soon as they are read.
-/

namespace Abacus.Command

/-- The most digits that a modulus or dimension may have; 2^32 has as many. -/
def maxDigits : Nat := 10

/-- The number that decimal digits stand for. -/
def digitsValue (digits : List Char) : Nat :=
  digits.foldl (fun value digit => value * 10 + (digit.toNat - '0'.toNat)) 0

/-- The number that a token stands for: a literal without a sign and of not too many digits.
`complaint` makes the error of the number of digits, if that is what is wrong. -/
def smallNumber (complaint : Option Nat → Error) (token : Token) : Except Error Nat :=
  let digits := token.text.toList.dropWhile (· == '0')
  if token.kind ≠ .literal ∨ token.text.toList.head? = some '-' then .error (complaint none)
  else if maxDigits < digits.length then .error (complaint (some digits.length))
  else .ok (digitsValue digits)

/-- Takes a number of not too many digits. -/
def readSmallNumber (complaint : Option Nat → Error) : EStateM Error Lexer Nat := do
  let token ← Lexer.next
  match smallNumber complaint token with
  | .ok number => return number
  | .error error => throw error

def readModulus : EStateM Error Lexer Modulus := do
  let value ← readSmallNumber .invalidModulus
  match Modulus.ofInt? value with
  | .ok modulus => return modulus
  | .error error => throw error

def readDimension : EStateM Error Lexer Nat := do
  let dimension ← readSmallNumber .invalidDimension
  if dimension = 0 then throw (.invalidDimension none) else return dimension

/-- The field that begins with `token`. -/
def readFieldFrom (token : Token) : EStateM Error Lexer NumberField := do
  if token.kind = .name ∧ token.text = "Q" then return .rationals
  else if token.kind = .name ∧ token.text = "Z" then return .residues (← readModulus).value
  else throw (.unknownType token.text)

def readType : EStateM Error Lexer ValueType := do
  let token ← Lexer.next
  if token.kind = .name ∧ token.text = "Matrix" then do
    Lexer.expect "["
    let field ← readFieldFrom (← Lexer.next)
    Lexer.expect "]"
    return .matrix field
  else return .scalar (← readFieldFrom token)

def readName : EStateM Error Lexer String := do
  let token ← Lexer.next
  if token.kind ≠ .name then throw .missingName
  else if reservedNames.contains token.text then throw (.reservedName token.text)
  else return token.text

def readDefinition : EStateM Error Lexer Command := do
  match ← readType with
  | .scalar field => return .defineScalar field (← readName)
  | .matrix field =>
    let height ← readDimension
    let width ← readDimension
    return .defineMatrix field height width (← readName)

/-- Takes a command; `line` is quoted when it holds nothing at all. -/
def readCommand (line : String) : EStateM Error Lexer Command := do
  let token ← Lexer.next
  if token.kind ≠ .name then
    throw (.unknownCommand (if token.text = "" then line else token.text))
  else
    match token.text with
    | "EXIT" => return .exit
    | "EVAL" => return .evaluate (← readType)
    | "DEF" => readDefinition
    | word => throw (.unknownCommand word)

/-- The command that makes up a whole line. -/
def ofText (line : String) : Except Error Command :=
  Lexer.read (do let command ← readCommand line; Lexer.expectEnd; return command) line

end Abacus.Command
