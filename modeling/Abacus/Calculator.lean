import Abacus.Command.Reader
import Abacus.Evaluation
import Abacus.Expr.Reader
import Abacus.Text.Cells

/-!
# Executing commands

A command takes effect at once or becomes a task, which waits for the lines that follow: the
number or the rows of a definition, or the expression of an evaluation. A task is fed one line at
a time. It fails, waits for another line, or is finished with an effect; only a finished task
changes anything.
-/

namespace Abacus

/-- A line of input, or an interruption where a line was awaited. -/
inductive Line where
  | text (text : String)
  | interrupt
deriving DecidableEq

/-- A command that waits for its next line. -/
inductive Task where
  | number (field : NumberField) (name : String)
  /-- `done` are the rows already read, the latest first. -/
  | rows (field : NumberField) (name : String) (height width : Nat) (done : List (List Scalar))
  | expression (type : ValueType)

/-- What a command does once it is finished. -/
inductive Effect where
  | exit
  | define (name : String) (type : ValueType) (value : Value)
  | result (value : Value)

/-- Whether a command is finished. -/
inductive Progress where
  | waiting (task : Task)
  | finished (effect : Effect)

/-- How a command begins. -/
def Command.start : Command → Progress
  | exit => .finished .exit
  | defineScalar field name => .waiting (.number field name)
  | defineMatrix field height width name => .waiting (.rows field name height width [])
  | evaluate type => .waiting (.expression type)

/-- The numbers of one row. The number of cells is judged before any of them is read. -/
def Task.readRow (field : NumberField) (row width : Nat) (line : String) :
    Except Error (List Scalar) :=
  let cells := Text.splitCells line.toList
  if cells.length = width then cells.mapM (Scalar.read field)
  else .error (.rowLength row cells.length width)

/-- Feeds a task its next line. -/
def Task.feed (store : Store Value) (line : String) : Task → Except Error Progress
  | number field name => do
    let x ← Scalar.read field line.toList
    return .finished (.define name (.scalar field) (.scalar x))
  | rows field name height width done => do
    let row ← readRow field (done.length + 1) width line
    if done.length + 1 < height then return .waiting (.rows field name height width (row :: done))
    else
      let a ← Matrix.ofRows? (row :: done).reverse
      return .finished (.define name (.matrix field) (.matrix a))
  | expression type => do
    let value ← (← Expr.ofText line).evaluate store type
    return .finished (.result value)

/-- The text that a finished command shows. -/
def Effect.text? : Effect → Option String
  | result value => some (Display.value value)
  | exit | define _ _ _ => none

/-- The variables, and whether the calculator has been left. -/
structure Calculator where
  store : Store Value
  exited : Bool

/-- Why a command was not finished. -/
inductive Failure where
  | error (error : Error)
  | endOfInput
  | interrupted
deriving DecidableEq

/-- The outcome of a command together with what it leaves behind. -/
structure Execution where
  calculator : Calculator
  outcome : Except Failure (Option String)
  unread : List Line
  /-- How often a line was asked for. -/
  reads : Nat

namespace Calculator

/-- A calculator without variables. -/
def new : Calculator :=
  ⟨.empty, false⟩

/-- Puts an effect into force. -/
def apply (calculator : Calculator) : Effect → Calculator
  | .exit => { calculator with exited := true }
  | .define name type value => { calculator with store := calculator.store.define name type value }
  | .result _ => calculator

/-- Feeds a task from `lines` until it is finished. -/
def run (calculator : Calculator) (task : Task) : List Line → Execution
  | [] => ⟨calculator, .error .endOfInput, [], 1⟩
  | .interrupt :: rest => ⟨calculator, .error .interrupted, rest, 1⟩
  | .text line :: rest =>
    match task.feed calculator.store line with
    | .error error => ⟨calculator, .error (.error error), rest, 1⟩
    | .ok (.finished effect) => ⟨calculator.apply effect, .ok effect.text?, rest, 1⟩
    | .ok (.waiting task) =>
      let later := run calculator task rest
      { later with reads := later.reads + 1 }

/-- Executes a command line with `lines` to follow. -/
def execute (calculator : Calculator) (command : String) (lines : List Line) : Execution :=
  match Command.ofText command with
  | .error error => ⟨calculator, .error (.error error), lines, 0⟩
  | .ok command =>
    match command.start with
    | .finished effect => ⟨calculator.apply effect, .ok effect.text?, lines, 0⟩
    | .waiting task => calculator.run task lines

end Calculator

end Abacus
