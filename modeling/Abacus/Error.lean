import Abacus.Text.Quoted
import Abacus.ValueType

/-!
# What can go wrong

Every failure by its cause. `Error.message` holds the wording and `Error.kind` the coarser class
that callers tell apart.
-/

namespace Abacus

/-- The place in which an operation or function was used and does not belong. -/
inductive Role where
  | functionReturning (type : ValueType)
  | operationOn (type : ValueType)
  | functionOnNumbers
  | operationOnMatrices
deriving DecidableEq

def Role.text : Role → String
  | .functionReturning type => "a function returning " ++ type.text
  | .operationOn type => "an operation on " ++ type.text
  | .functionOnNumbers => "a function on numbers"
  | .operationOnMatrices => "an operation on matrices"

/-- The cause of a failure. -/
inductive Error where
  /-- A block of a natural number lies outside its 32 bits. -/
  | blockOutOfRange (block : Int)
  /-- A natural number was asked for and a negative one given. -/
  | negativeNatural (value : Int)
  /-- A character stands where a decimal digit should. -/
  | invalidDigit (symbol : Char)
  /-- A text has no digits at all, or one fraction bar too many. -/
  | invalidInteger (text : String)
  | divisionByZero
  | inverseOfZero
  /-- The modulus is no prime below 2^32. -/
  | compositeModulus (modulus : Int)
  /-- Residues of two moduli meet. -/
  | incompatibleModuli (left right : Int)
  /-- A rational number meets a residue. -/
  | mixedFields
  /-- A matrix has no rows or no columns. -/
  | emptyMatrix
  /-- The entries of a matrix form no table but an array of another number of dimensions. -/
  | notATable (dimensions : Nat)
  /-- A row, counted from one, has the wrong number of entries. -/
  | rowLength (row found expected : Nat)
  /-- Two matrices to be combined entry by entry differ in shape. -/
  | unequalShapes (verb : String) (left right : Nat × Nat)
  /-- The left factor is not as wide as the right one is high. -/
  | incompatibleFactors (left right : Nat × Nat)
  | unknownCharacter (symbol : Char)
  | unknownCommand (text : String)
  /-- Something stands at a place, counted from zero, where nothing may. -/
  | unexpected (text : String) (position : Nat)
  /-- One special character is required and another text, or nothing, is there. -/
  | missing (sought found : String)
  /-- What follows `Z` is no modulus; a number with too many digits has them counted. -/
  | invalidModulus (digits : Option Nat)
  /-- A height or width is no dimension; a number with too many digits has them counted. -/
  | invalidDimension (digits : Option Nat)
  | unknownType (text : String)
  | missingName
  | reservedName (name : String)
  | incompleteExpression
  | nestedTooDeeply
  | exponentNotLiteral
  /-- A variable is of another type than its place requires. -/
  | wrongType (name : String) (expected actual : ValueType)
  /-- A number is written where a matrix is required. -/
  | numberForMatrix (literal : String) (expected : ValueType)
  | misplaced (name : String) (role : Role)
  | undefinedVariable (name : String)
  | unknownLogLevel (name : String)
  | emptyTitle
deriving DecidableEq

namespace Error

inductive Kind where
  | invalidValue
  | invalidDigit
  | invalidInteger
  | divisionByZero
  | compositeModulus
  | incompatibleModuli
  | emptyMatrix
  | incompatibleDimensions
  | unknownCharacter
  | invalidSyntax
  | incompatibleType
  | undefinedVariable
deriving DecidableEq

def kind : Error → Kind
  | blockOutOfRange _ | negativeNatural _ | unknownLogLevel _ | emptyTitle => .invalidValue
  | invalidDigit _ => .invalidDigit
  | invalidInteger _ => .invalidInteger
  | divisionByZero | inverseOfZero => .divisionByZero
  | compositeModulus _ => .compositeModulus
  | incompatibleModuli _ _ => .incompatibleModuli
  | emptyMatrix => .emptyMatrix
  | notATable _ | rowLength _ _ _ | unequalShapes _ _ _ | incompatibleFactors _ _ =>
    .incompatibleDimensions
  | unknownCharacter _ => .unknownCharacter
  | unknownCommand _ | unexpected _ _ | missing _ _ | invalidModulus _ | invalidDimension _
  | unknownType _ | missingName | reservedName _ | incompleteExpression | nestedTooDeeply
  | exponentNotLiteral => .invalidSyntax
  | mixedFields | wrongType _ _ _ | numberForMatrix _ _ | misplaced _ _ => .incompatibleType
  | undefinedVariable _ => .undefinedVariable

/-- A shape as height, a cross and width. -/
def shapeText (shape : Nat × Nat) : String :=
  toString shape.1 ++ "x" ++ toString shape.2

/-- The number of digits of a number that has too many. -/
def digitsText : Option Nat → String
  | none => ""
  | some digits => " (got a " ++ toString digits ++ "-digit number)"

/-- A piece of a line in quotes; an empty piece is the end of the line. -/
def pieceText (text : String) : String :=
  Text.quote (if text = "" then "end of line" else text)

/-- The wording of a failure. -/
def message : Error → String
  | blockOutOfRange block => "block " ++ toString block ++ " does not fit in 32 bits"
  | negativeNatural value => "naturals cannot be negative, got " ++ toString value
  | invalidDigit symbol => "invalid digit " ++ Text.quote (String.singleton symbol)
  | invalidInteger text => "invalid integer " ++ Text.quote text
  | divisionByZero => "division by zero"
  | inverseOfZero => "zero has no inverse"
  | compositeModulus modulus => "modulus " ++ toString modulus ++ " is not a prime below 2^32"
  | incompatibleModuli left right =>
    "cannot combine elements of Z_" ++ toString left ++ " and Z_" ++ toString right
  | mixedFields => "cannot combine a rational number and a residue"
  | emptyMatrix => "matrices must have at least one row and one column"
  | notATable dimensions =>
    "matrix entries must be 2-dimensional, got " ++ toString dimensions ++ " dimensions"
  | rowLength row found expected =>
    "row " ++ toString row ++ " has " ++ toString found ++ " entries, expected " ++
      toString expected
  | unequalShapes verb left right =>
    "cannot " ++ verb ++ " " ++ shapeText left ++ " and " ++ shapeText right ++ " matrices"
  | incompatibleFactors left right =>
    "cannot multiply " ++ shapeText left ++ " by " ++ shapeText right ++ " matrix"
  | unknownCharacter symbol => "unknown character " ++ Text.quote (String.singleton symbol)
  | unknownCommand text => "unknown command " ++ Text.quote text
  | unexpected text position =>
    "unexpected " ++ Text.quote text ++ " at position " ++ toString (position + 1)
  | missing sought found => "expected " ++ Text.quote sought ++ ", found " ++ pieceText found
  | invalidModulus digits => "Z must be followed by a prime below 2^32" ++ digitsText digits
  | invalidDimension digits =>
    "matrix dimensions must be positive integers below 2^32" ++ digitsText digits
  | unknownType text => "unknown type " ++ pieceText text
  | missingName => "expected a variable name"
  | reservedName name => Text.quote name ++ " is reserved"
  | incompleteExpression => "incomplete expression"
  | nestedTooDeeply => "expression nested too deeply"
  | exponentNotLiteral => "pow needs an integer literal exponent"
  | wrongType name expected actual =>
    Text.quote name ++ " is " ++ actual.text ++ ", expected " ++ expected.text
  | numberForMatrix literal expected =>
    Text.quote literal ++ " is a number, expected " ++ expected.text
  | misplaced name role => Text.quote name ++ " cannot be used as " ++ role.text
  | undefinedVariable name => "undefined variable " ++ Text.quote name
  | unknownLogLevel name =>
    "log_level must be one of DEBUG, INFO, WARNING, ERROR, CRITICAL, got " ++ Text.quote name
  | emptyTitle => "name must not be empty"

end Error

end Abacus
