import Abacus.Calculator
import Abacus.Proofs.Commands
import Abacus.Proofs.Rows
import Mathlib.Data.List.Forall2

/-!
# What a call does

A call is a command line with the lines that follow it. Executing it defines a variable, leaves the
calculator, shows a value or fails, and does nothing besides (`Calculator.execute_transition`). Which
variable a call defines, and with what value, does not depend on the calculator (`Call.Defines`), and a
call that defines a variable succeeds (`Calculator.execute_of_defines`). No call looks at more lines than
it takes (`Calculator.execute_taken`).
-/

namespace Abacus

/-- The name and the type that a command is to define. -/
def Command.target? : Command → Option (String × ValueType)
  | defineScalar field name => some (name, .scalar field)
  | defineMatrix field _ _ name => some (name, .matrix field)
  | exit | evaluate _ => none

/-- A command line and the lines that follow it. -/
structure Call where
  command : String
  lines : List Line

/-! ## Rows -/

/-- The cells of the line are read as the numbers of the row, one after the other. -/
def WritesRow (field : NumberField) (line : String) (row : List Scalar) : Prop :=
  List.Forall₂ (fun cell x => Scalar.read field cell = .ok x) (Text.splitCells line.toList) row

theorem Task.readRow_eq_ok_iff {field : NumberField} {index width : Nat} {line : String}
    {row : List Scalar} :
    readRow field index width line = .ok row ↔ WritesRow field line row ∧ row.length = width := by
  simp only [readRow, WritesRow, ← mapM_eq_ok_iff]
  split
  case isTrue even =>
    refine ⟨fun read => ⟨read, ?_⟩, And.left⟩
    rw [← even, (mapM_eq_ok_iff.mp read).length_eq]
  case isFalse uneven =>
    constructor
    · intro failed
      cases failed
    · rintro ⟨read, width⟩
      rw [← width, (mapM_eq_ok_iff.mp read).length_eq] at uneven
      exact absurd rfl uneven

/-! ## One line -/

/-- What a line makes of a task that it does not fail. -/
inductive Task.Feeds (store : Store Value) (line : String) : Task → Progress → Prop
  | number {field : NumberField} {name : String} {x : Scalar}
      (read : Scalar.read field line.toList = .ok x) :
      Feeds store line (.number field name) (.finished (.define name (.scalar field) (.scalar x)))
  | row {field : NumberField} {name : String} {height width : Nat} {done : List (List Scalar)}
      {row : List Scalar} (read : readRow field (done.length + 1) width line = .ok row)
      (more : done.length + 1 < height) :
      Feeds store line (.rows field name height width done)
        (.waiting (.rows field name height width (row :: done)))
  | lastRow {field : NumberField} {name : String} {height width : Nat} {done : List (List Scalar)}
      {row : List Scalar} {a : Matrix} (read : readRow field (done.length + 1) width line = .ok row)
      (last : height ≤ done.length + 1) (made : Matrix.ofRows? (row :: done).reverse = .ok a) :
      Feeds store line (.rows field name height width done)
        (.finished (.define name (.matrix field) (.matrix a)))
  | expression {type : ValueType} {e : Expr} {value : Value} (parsed : Expr.ofText line = .ok e)
      (evaluated : e.evaluate store type = .ok value) :
      Feeds store line (.expression type) (.finished (.result value))

theorem Task.feeds_of_feed {store : Store Value} {line : String} {task : Task} {progress : Progress}
    (fed : task.feed store line = .ok progress) : task.Feeds store line progress := by
  cases task with
  | number field name =>
    obtain ⟨x, read, finished⟩ := bind_eq_ok_iff.mp fed
    cases finished
    exact .number read
  | rows field name height width done =>
    obtain ⟨row, read, continued⟩ := bind_eq_ok_iff.mp fed
    split at continued
    · rename_i more
      cases continued
      exact .row read more
    · rename_i last
      obtain ⟨a, made, finished⟩ := bind_eq_ok_iff.mp continued
      cases finished
      exact .lastRow read (Nat.le_of_not_lt last) made
  | expression type =>
    obtain ⟨e, parsed, evaluates⟩ := bind_eq_ok_iff.mp fed
    obtain ⟨value, evaluated, finished⟩ := bind_eq_ok_iff.mp evaluates
    cases finished
    exact .expression parsed evaluated

/-! ## Definitions -/

/-- The variable that a call defines, and what it is bound to: the number on the first line, or the
matrix with a row on each of the first lines. -/
inductive Call.Defines (call : Call) : String → Binding Value → Prop
  | number {field : NumberField} {name line : String} {x : Scalar} {rest : List Line}
      (command : Command.ofText call.command = .ok (.defineScalar field name))
      (lines : call.lines = .text line :: rest) (read : Scalar.read field line.toList = .ok x) :
      Defines call name ⟨.scalar field, .scalar x⟩
  | rows {field : NumberField} {name : String} {texts : List String} {a : Matrix} {rest : List Line}
      (command : Command.ofText call.command = .ok (.defineMatrix field a.height a.width name))
      (lines : call.lines = texts.map .text ++ rest)
      (written : List.Forall₂ (WritesRow field) texts a.rows) :
      Defines call name ⟨.matrix field, .matrix a⟩

/-- What executing a call can come to. -/
inductive Call.Transition (call : Call) (before : Calculator) : Execution → Prop
  | defined {name : String} {binding : Binding Value} (defines : call.Defines name binding)
      (unread : List Line) (reads : Nat) :
      Transition call before
        ⟨{ before with store := before.store.define name binding.type binding.value }, .ok none, unread,
          reads⟩
  | left (command : Command.ofText call.command = .ok .exit) (unread : List Line) (reads : Nat) :
      Transition call before ⟨{ before with exited := true }, .ok none, unread, reads⟩
  | shown {type : ValueType} (value : Value)
      (command : Command.ofText call.command = .ok (.evaluate type)) (unread : List Line)
      (reads : Nat) : Transition call before ⟨before, .ok (some (Display.value value)), unread, reads⟩
  | failed (failure : Failure) (unread : List Line) (reads : Nat) :
      Transition call before ⟨before, .error failure, unread, reads⟩

namespace Calculator
variable {calculator : Calculator} {field : NumberField} {name : String}

/-! ## Tasks -/

section Lines
variable {task : Task} {line : String}

theorem run_of_error {error : Error} (fed : task.feed calculator.store line = .error error)
    (rest : List Line) :
    calculator.run task (.text line :: rest) = ⟨calculator, .error (.error error), rest, 1⟩ := by
  rw [run, fed]

theorem run_of_finished {effect : Effect}
    (fed : task.feed calculator.store line = .ok (.finished effect)) (rest : List Line) :
    calculator.run task (.text line :: rest) = ⟨calculator.apply effect, .ok effect.text?, rest, 1⟩ := by
  rw [run, fed]

theorem run_of_waiting {next : Task} (fed : task.feed calculator.store line = .ok (.waiting next))
    (rest : List Line) :
    calculator.run task (.text line :: rest) =
      { calculator.run next rest with reads := (calculator.run next rest).reads + 1 } := by
  rw [run, fed]

variable {command : String} {parsed : Command}

theorem execute_of_error {error : Error} (read : Command.ofText command = .error error)
    (lines : List Line) :
    calculator.execute command lines = ⟨calculator, .error (.error error), lines, 0⟩ := by
  rw [execute, read]

theorem execute_of_finished {effect : Effect} (read : Command.ofText command = .ok parsed)
    (started : parsed.start = .finished effect) (lines : List Line) :
    calculator.execute command lines = ⟨calculator.apply effect, .ok effect.text?, lines, 0⟩ := by
  rw [execute, read]
  dsimp only
  rw [started]

theorem execute_of_waiting (read : Command.ofText command = .ok parsed)
    (started : parsed.start = .waiting task) (lines : List Line) :
    calculator.execute command lines = calculator.run task lines := by
  rw [execute, read]
  dsimp only
  rw [started]

end Lines

/-- Once the rows of a matrix that are left have been read, the matrix is defined. -/
theorem run_rows {a : Matrix} {texts : List String} {done left : List (List Scalar)}
    (written : List.Forall₂ (WritesRow field) texts left) (whole : done.reverse ++ left = a.rows)
    (more : left ≠ []) (rest : List Line) :
    calculator.run (.rows field name a.height a.width done) (texts.map .text ++ rest) =
      ⟨calculator.apply (.define name (.matrix field) (.matrix a)), .ok none, rest, texts.length⟩ := by
  induction written generalizing done with
  | nil => exact absurd rfl more
  | @cons line row texts left first written ih =>
    have height : done.length + (left.length + 1) = a.height := by
      rw [← a.length_rows, ← whole, List.length_append, List.length_reverse, List.length_cons]
    have wide : row.length = a.width :=
      Matrix.length_of_mem_rows (whole ▸ List.mem_append_right _ List.mem_cons_self)
    have read : Task.readRow field (done.length + 1) a.width line = .ok row :=
      Task.readRow_eq_ok_iff.mpr ⟨first, wide⟩
    have onward : (row :: done).reverse ++ left = a.rows := by
      rw [List.reverse_cons, List.append_assoc]
      exact whole
    rw [List.map_cons, List.cons_append, run, Task.feed, bind_eq_of_ok read]
    cases written with
    | nil =>
      have last : ¬ done.length + 1 < a.height := height ▸ Nat.lt_irrefl _
      rw [List.append_nil] at onward
      rw [if_neg last, onward, bind_eq_of_ok a.ofRows?_rows]
      rfl
    | @cons _ _ _ left _ _ =>
      have between : done.length + 1 < a.height := by
        rw [← height, List.length_cons]
        omega
      have later := ih onward (List.cons_ne_nil _ left)
      rw [if_pos between]
      dsimp only [pure, Except.pure]
      rw [later]
      rfl

/-- A task that is not finished leaves the calculator as it was. -/
def GivesUp (calculator : Calculator) (execution : Execution) : Prop :=
  ∃ failure unread reads, execution = ⟨calculator, .error failure, unread, reads⟩

/-- Either the first of the lines write the rows that a matrix still lacks, or it is given up. -/
theorem run_rows_cases (field : NumberField) (name : String) {height : Nat} (width : Nat)
    {done : List (List Scalar)} (short : done.length < height) (lines : List Line) :
    (∃ (texts : List String) (left : List (List Scalar)) (a : Matrix) (rest : List Line),
      lines = texts.map .text ++ rest ∧ List.Forall₂ (WritesRow field) texts left ∧
      done.reverse ++ left = a.rows ∧ a.height = height ∧ a.width = width) ∨
    calculator.GivesUp (calculator.run (.rows field name height width done) lines) := by
  induction lines generalizing done with
  | nil => exact .inr ⟨_, _, _, rfl⟩
  | cons line rest ih =>
    cases line with
    | interrupt => exact .inr ⟨_, _, _, rfl⟩
    | text line =>
      rw [run, Task.feed]
      cases read : Task.readRow field (done.length + 1) width line with
      | error error => exact .inr ⟨_, _, _, rfl⟩
      | ok row =>
        obtain ⟨written, wide⟩ := Task.readRow_eq_ok_iff.mp read
        rw [bind_eq_of_ok rfl]
        split_ifs with more
        · rcases ih (show (row :: done).length < height from more) with
            ⟨texts, left, a, rest, rfl, later, whole, shape⟩ | ⟨failure, unread, reads, failed⟩
          · refine .inl ⟨line :: texts, row :: left, a, rest, rfl, .cons written later, ?_, shape⟩
            rw [← whole, List.reverse_cons, List.append_assoc]
            rfl
          · refine .inr ⟨failure, unread, reads + 1, ?_⟩
            dsimp only [pure, Except.pure]
            rw [failed]
        · cases made : Matrix.ofRows? (row :: done).reverse with
          | error error => exact .inr ⟨_, _, _, rfl⟩
          | ok a =>
            have rows := Matrix.rows_of_ofRows? made
            refine .inl ⟨[line], [row], a, rest, rfl, .cons written .nil, ?_, ?_, ?_⟩
            · rw [rows, List.reverse_cons]
            · rw [← a.length_rows, rows, List.length_reverse, List.length_cons]
              omega
            · rw [← wide]
              refine (Matrix.length_of_mem_rows ?_).symm
              rw [rows]
              exact List.mem_reverse.mpr List.mem_cons_self

/-- A task is given up, or it can be fed the first of the lines. -/
theorem run_cases (task : Task) (lines : List Line) :
    (∃ line rest progress, lines = .text line :: rest ∧
      task.feed calculator.store line = .ok progress) ∨
    calculator.GivesUp (calculator.run task lines) := by
  cases lines with
  | nil => exact .inr ⟨_, _, _, rfl⟩
  | cons line rest =>
    cases line with
    | interrupt => exact .inr ⟨_, _, _, rfl⟩
    | text line =>
      cases fed : task.feed calculator.store line with
      | error error => exact .inr ⟨_, _, _, run_of_error fed rest⟩
      | ok progress => exact .inl ⟨line, rest, progress, rfl, fed⟩

/-- A call that defines a variable succeeds, whatever the calculator holds. -/
theorem execute_of_defines {call : Call} {binding : Binding Value}
    (defines : call.Defines name binding) (calculator : Calculator) :
    ∃ unread reads, calculator.execute call.command call.lines =
      ⟨{ calculator with store := calculator.store.define name binding.type binding.value }, .ok none,
        unread, reads⟩ := by
  cases defines with
  | @number field name line x rest command lines read =>
    refine ⟨rest, 1, ?_⟩
    rw [execute_of_waiting command rfl, lines, run, Task.feed, bind_eq_of_ok read]
    rfl
  | @rows field name texts a rest command lines written =>
    refine ⟨rest, texts.length, ?_⟩
    rw [execute_of_waiting command rfl, lines]
    exact run_rows written rfl a.rows_ne_nil rest

theorem GivesUp.transition {execution : Execution} (givesUp : calculator.GivesUp execution)
    (call : Call) : call.Transition calculator execution := by
  obtain ⟨failure, unread, reads, rfl⟩ := givesUp
  exact .failed failure unread reads

theorem transition_of_defines {call : Call} {binding : Binding Value}
    (defines : call.Defines name binding) (calculator : Calculator) :
    call.Transition calculator (calculator.execute call.command call.lines) := by
  obtain ⟨unread, reads, executed⟩ := execute_of_defines defines calculator
  rw [executed]
  exact .defined defines unread reads

/-- Executing a call comes to nothing else than a call can come to. -/
theorem execute_transition (calculator : Calculator) (call : Call) :
    call.Transition calculator (calculator.execute call.command call.lines) := by
  cases read : Command.ofText call.command with
  | error error =>
    rw [execute_of_error read]
    exact .failed _ _ _
  | ok command =>
    cases command with
    | exit =>
      rw [execute_of_finished read rfl]
      exact .left read _ _
    | defineScalar field name =>
      rcases run_cases (.number field name) call.lines with
        ⟨line, rest, progress, lines, fed⟩ | givesUp
      · cases Task.feeds_of_feed fed with
        | number number => exact transition_of_defines (.number read lines number) calculator
      · rw [execute_of_waiting read rfl]
        exact givesUp.transition call
    | defineMatrix field height width name =>
      have tall : ([] : List (List Scalar)).length < height := by
        cases Command.legal_of_ofText read with
        | defineMatrix F tall wide legal => exact tall
      rcases run_rows_cases field name width tall call.lines with
        ⟨texts, left, a, rest, lines, written, rfl, rfl, rfl⟩ | givesUp
      · exact transition_of_defines (.rows read lines written) calculator
      · rw [execute_of_waiting read rfl]
        exact givesUp.transition call
    | evaluate type =>
      rw [execute_of_waiting read rfl]
      rcases run_cases (.expression type) call.lines with
        ⟨line, rest, progress, lines, fed⟩ | givesUp
      · rw [lines]
        cases Task.feeds_of_feed fed with
        | @expression type e value parsed evaluated =>
          rw [run_of_finished fed]
          exact .shown value read _ _
      · exact givesUp.transition call

/-! ## Lines that are taken -/

/-- What is made of the lines: either all of them are not enough, or some are taken and those after them
make no difference. -/
def Thrifty (execute : List Line → Execution) (lines : List Line) : Prop :=
  ((execute lines).outcome = .error .endOfInput ∧ (execute lines).unread = [] ∧
    (execute lines).reads = lines.length + 1) ∨
  ∃ taken, lines = taken ++ (execute lines).unread ∧ (execute lines).reads = taken.length ∧
    ∀ rest, execute (taken ++ rest) = { execute lines with unread := rest }

theorem Thrifty.none {execute : List Line → Execution} {outcome : Except Failure (Option String)}
    (executed : ∀ lines, execute lines = ⟨calculator, outcome, lines, 0⟩) (lines : List Line) :
    Thrifty execute lines := by
  refine .inr ⟨[], ?_, ?_, fun other => ?_⟩
  · rw [executed]
    rfl
  · rw [executed]
    rfl
  · rw [executed, executed]
    rfl

theorem Thrifty.one {execute : List Line → Execution} {line : Line}
    {outcome : Except Failure (Option String)}
    (executed : ∀ rest, execute (line :: rest) = ⟨calculator, outcome, rest, 1⟩) (rest : List Line) :
    Thrifty execute (line :: rest) := by
  refine .inr ⟨[line], ?_, ?_, fun other => ?_⟩
  · rw [executed]
    rfl
  · rw [executed]
    rfl
  · rw [executed]
    exact executed other

theorem Thrifty.cons {execute later : List Line → Execution} {line : Line} {rest : List Line}
    (executed : ∀ rest, execute (line :: rest) =
      { later rest with reads := (later rest).reads + 1 })
    (thrifty : Thrifty later rest) : Thrifty execute (line :: rest) := by
  rcases thrifty with ⟨outcome, unread, reads⟩ | ⟨taken, lines, reads, same⟩
  · refine .inl ⟨?_, ?_, ?_⟩
    · rw [executed]
      exact outcome
    · rw [executed]
      exact unread
    · rw [executed, List.length_cons, ← reads]
  · refine .inr ⟨line :: taken, ?_, ?_, fun other => ?_⟩
    · rw [executed, List.cons_append]
      exact congrArg (line :: ·) lines
    · rw [executed, List.length_cons, ← reads]
    · rw [List.cons_append, executed, executed, same]

theorem run_thrifty (calculator : Calculator) (task : Task) (lines : List Line) :
    Thrifty (calculator.run task) lines := by
  induction lines generalizing task with
  | nil => exact .inl ⟨rfl, rfl, rfl⟩
  | cons line rest ih =>
    cases line with
    | interrupt => exact .one (fun _ => rfl) rest
    | text line =>
      cases fed : task.feed calculator.store line with
      | error error => exact .one (run_of_error fed) rest
      | ok progress =>
        cases progress with
        | finished effect => exact .one (run_of_finished fed) rest
        | waiting next => exact .cons (run_of_waiting fed) (ih next)

theorem execute_thrifty (calculator : Calculator) (command : String) (lines : List Line) :
    Thrifty (calculator.execute command) lines := by
  cases read : Command.ofText command with
  | error error => exact .none (execute_of_error read) lines
  | ok parsed =>
    cases started : parsed.start with
    | finished effect => exact .none (execute_of_finished read started) lines
    | waiting task =>
      rw [funext (execute_of_waiting read started)]
      exact calculator.run_thrifty task lines

/-- An execution that did not stop for want of a line has taken the lines in front of those that it left,
and goes the same with any other lines behind them. -/
theorem execute_taken {command : String} {following rest : List Line} {after : Calculator}
    {outcome : Except Failure (Option String)} {reads : Nat}
    (executed : calculator.execute command (following ++ rest) = ⟨after, outcome, rest, reads⟩)
    (reached : outcome ≠ .error .endOfInput) :
    reads = following.length ∧
      ∀ other, calculator.execute command (following ++ other) = ⟨after, outcome, other, reads⟩ := by
  have thrifty := calculator.execute_thrifty command (following ++ rest)
  rw [Thrifty, executed] at thrifty
  rcases thrifty with ⟨exhausted, -⟩ | ⟨taken, lines, count, same⟩
  · exact absurd exhausted reached
  · obtain rfl : following = taken := List.append_cancel_right lines
    exact ⟨count, same⟩

end Calculator

end Abacus
