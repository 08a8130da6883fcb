import Abacus.Description
import Abacus.Main
import Abacus.Proofs.Echelon
import Abacus.Proofs.Elimination
import Abacus.Proofs.Integer
import Abacus.Proofs.Modulus
import Abacus.Proofs.Numeral
import Abacus.Proofs.Rational
import Abacus.Proofs.Stripping
import Abacus.Proofs.Residue
import Abacus.Proofs.GroundField
import Abacus.Proofs.Tables
import Abacus.Proofs.Reduction
import Abacus.Proofs.ReducedForm
import Abacus.Proofs.Meaning
import Abacus.Proofs.Evaluation
import Abacus.Proofs.Reading
import Abacus.Proofs.Integrality
import Abacus.Proofs.IntegerTables
import Abacus.Proofs.Commands
import Abacus.Proofs.Execution
import Abacus.Proofs.LastDefinition
import Abacus.Proofs.Turns
import Abacus.Proofs.Course
import Abacus.Proofs.Soundness
import Abacus.Proofs.Reachability
import Abacus.Proofs.Cells
import Abacus.Proofs.Layout
import Abacus.Proofs.Lexing
import Abacus.Proofs.Pieces
import Abacus.Proofs.Grammar
import Abacus.Proofs.CommandText
import Abacus.Proofs.Reentry
import Abacus.Proofs.Failures
import Abacus.Proofs.Natural
import Abacus.Proofs.Order
import Abacus.Proofs.Powers
import Abacus.Proofs.Confinement
import Abacus.Proofs.RankOperand
import Abacus.Proofs.Exponents
import Abacus.Proofs.Digits
import Abacus.Proofs.NumberSyntax
import Abacus.Proofs.Recognition
import Abacus.Proofs.CommandGrammar
import Abacus.Proofs.Tiling
import Abacus.Proofs.PrimeFields
import Abacus.Proofs.Products
import Abacus.Proofs.Laws
import Abacus.Proofs.RowByRow
import Abacus.Proofs.ForeignModuli
import Abacus.Proofs.Coincidence
import Abacus.Proofs.Frame
import Abacus.Proofs.Peeking
import Abacus.Proofs.SameTokens
import Abacus.Proofs.Spelling
import Abacus.Proofs.Representation
import Abacus.Proofs.CellRuns
