import Abacus.Proofs.CommandGrammar
import Abacus.Proofs.Course
import Abacus.Proofs.Failures
import Abacus.Proofs.Grammar
import Abacus.Proofs.Reachability

/-!
# Failures stay where they belong

A line that is no command fails for its syntax or its modulus (`Command.kind_of_ofText`). A command fails
only in ways of its own: a definition because its numbers cannot be read or are not as many as the matrix is
wide, an evaluation because its expression cannot be read or has no value. One line fails a task only in
such ways (`Task.Legal.feed_failsOnly`), and so does a whole run (`Task.Legal.run_expected`). Therefore
every command ends in one of a few ways, and no session ends because of an error (`failures_confined`).
-/

namespace Abacus

/-! ## Lines that are no commands -/

namespace Command

/-- The ways in which a line can be no command. -/
def readingKinds : List Error.Kind :=
  [.invalidSyntax, .unknownCharacter, .compositeModulus]

/-- A line that is no command fails in one of the ways in which a line can be none. -/
theorem kind_of_ofText {line : String} {error : Error} (failed : ofText line = .error error) :
    error.kind ∈ readingKinds := by
  rcases cause_of_ofText failed with (kind | kind) | ⟨m, rfl⟩
  · simp [kind, readingKinds]
  · simp [kind, readingKinds]
  · simp [Error.kind, readingKinds]

end Command

/-! ## Failures that are to be expected -/

/-- The failure is of one of the kinds, or of the next `count` lines one is missing or an interruption. -/
inductive Failure.Expected (kinds : List Error.Kind) (count : Nat) (lines : List Line) : Failure → Prop
  | error {error : Error} (kind : error.kind ∈ kinds) (unmixed : error ≠ .mixedFields) :
      Expected kinds count lines (.error error)
  | endOfInput (short : lines.length < count) : Expected kinds count lines .endOfInput
  | interrupted (within : .interrupt ∈ lines.take count) : Expected kinds count lines .interrupted

theorem Failure.Expected.cons {kinds : List Error.Kind} {count : Nat} {rest : List Line}
    {failure : Failure} (expected : failure.Expected kinds count rest) (line : Line) :
    failure.Expected kinds (count + 1) (line :: rest) := by
  cases expected with
  | error kind unmixed => exact .error kind unmixed
  | endOfInput short => exact .endOfInput (Nat.succ_lt_succ short)
  | interrupted within =>
    refine .interrupted ?_
    rw [List.take_succ_cons]
    exact List.mem_cons_of_mem line within

/-! ## Tasks -/

namespace Task

/-- The ways in which a task can fail. -/
def failureKinds : Task → List Error.Kind
  | number field _ => field.readingKinds
  | rows field _ _ _ _ => .incompatibleDimensions :: field.readingKinds
  | expression _ => .unknownCharacter :: Expr.evaluationKinds

/-- How many lines a task still takes, unless it fails. -/
def lineCount : Task → Nat
  | number _ _ => 1
  | rows _ _ height _ done => height - done.length
  | expression _ => 1

variable {store : Store Value} {line : String}

theorem Legal.lineCount_pos {task : Task} (legal : task.Legal) : 0 < task.lineCount := by
  cases legal with
  | number F legal => exact Nat.one_pos
  | rows F legal wide short even inField => exact Nat.sub_pos_of_lt short
  | expression F ground => exact Nat.one_pos

theorem readRow_failsOnly (F : GroundField) (index width : Nat) (line : String) :
    FailsOnly (readRow F.name index width line) (.incompatibleDimensions :: F.name.readingKinds) := by
  simp only [readRow]
  split
  · have cells : FailsOnly _ F.name.readingKinds :=
      .mapM (Scalar.read_failsOnly F) (Text.splitCells line.toList)
    exact cells.widen (List.subset_cons_self _ _)
  · exact .error (by simp [Error.kind])

/-- One line fails a legal task only in the ways of the task. The rows that it has read make a matrix, for
they are of one positive width. -/
theorem Legal.feed_failsOnly (typed : store.WellTyped) {task : Task} (legal : task.Legal) (line : String) :
    FailsOnly (task.feed store line) task.failureKinds := by
  cases legal with
  | number F legal => exact (Scalar.read_failsOnly F line.toList).bind fun x _ => .ok _
  | @rows F height width name done legal wide short even inField =>
    refine (readRow_failsOnly F (done.length + 1) width line).bind fun row read => ?_
    split
    · exact .ok _
    · have all : ∀ other ∈ row :: done, other.length = width :=
        List.forall_mem_cons.mpr ⟨(readRow_eq_ok_iff.mp read).2, even⟩
      have some : (row :: done).reverse ≠ [] := by simp
      obtain ⟨a, made⟩ := Matrix.exists_ofRows? some wide fun other member =>
        all other (List.mem_reverse.mp member)
      rw [made]
      exact .ok _
  | @expression F type ground =>
    have reads : FailsOnly (Expr.ofText line) (.unknownCharacter :: Expr.evaluationKinds) := by
      intro error failed
      rcases Expr.isSyntactic_of_ofText failed with kind | kind
      · exact ⟨by simp [kind, Expr.evaluationKinds], fun mixed => by simp [mixed, Error.kind] at kind⟩
      · exact ⟨by simp [kind], fun mixed => by simp [mixed, Error.kind] at kind⟩
    refine reads.bind fun e read => ?_
    have numerals := (Expr.nested_of_ofText read).numerals
    have evaluates := (Expr.evaluate_failsOnly typed numerals ground Expr.maxLevels).widen
      (List.subset_cons_self .unknownCharacter _)
    exact evaluates.bind fun value _ => .ok _

/-- A task that goes on waiting can fail in the same ways, and takes one line less. -/
theorem feed_waiting {task next : Task} (fed : task.feed store line = .ok (.waiting next)) :
    next.failureKinds = task.failureKinds ∧ task.lineCount = next.lineCount + 1 := by
  cases feeds_of_feed fed with
  | row read more =>
    refine ⟨rfl, ?_⟩
    rw [lineCount, lineCount, List.length_cons]
    omega

/-- A legal task fails only as is to be expected of it, whatever lines it is run on. -/
theorem Legal.run_expected {calculator : Calculator} (typed : calculator.store.WellTyped) {task : Task}
    (legal : task.Legal) {lines : List Line} {failure : Failure}
    (failed : (calculator.run task lines).outcome = .error failure) :
    failure.Expected task.failureKinds task.lineCount lines := by
  -- A task that goes on waiting stays legal and has one line less to take; the store waits with it.
  induction lines generalizing task with
  | nil =>
    cases failed
    exact .endOfInput legal.lineCount_pos
  | cons line rest ih =>
    cases line with
    | interrupt =>
      cases failed
      refine .interrupted ?_
      rw [List.take_cons legal.lineCount_pos]
      exact List.mem_cons_self
    | text line =>
      cases fed : task.feed calculator.store line with
      | error error =>
        rw [Calculator.run_of_error fed] at failed
        cases failed
        obtain ⟨kind, unmixed⟩ := legal.feed_failsOnly typed line error fed
        exact .error kind unmixed
      | ok progress =>
        cases progress with
        | finished effect =>
          rw [Calculator.run_of_finished fed] at failed
          cases failed
        | waiting next =>
          rw [Calculator.run_of_waiting fed] at failed
          obtain ⟨kinds, count⟩ := feed_waiting fed
          cases legal.feed fed with
          | waiting legalNext =>
            rw [count, ← kinds]
            exact (ih legalNext failed).cons _

end Task

/-! ## Commands -/

namespace Command

/-- The ways in which a command can fail. -/
def failureKinds : Command → List Error.Kind
  | exit => []
  | defineScalar field _ => field.readingKinds
  | defineMatrix field _ _ _ => .incompatibleDimensions :: field.readingKinds
  | evaluate _ => .unknownCharacter :: Expr.evaluationKinds

/-- How many lines a command takes, unless it fails. -/
def lineCount : Command → Nat
  | exit => 0
  | defineScalar _ _ => 1
  | defineMatrix _ height _ _ => height
  | evaluate _ => 1

/-- How a command can end, given the lines that follow it. -/
inductive Ends (lines : List Line) : Command → Except Failure (Option String) → Prop
  | exited : Ends lines .exit (.ok none)
  | defined {command : Command} {name : String} {type : ValueType}
      (target : command.target? = some (name, type)) : Ends lines command (.ok none)
  | shown (type : ValueType) (value : Value) :
      Ends lines (.evaluate type) (.ok (some (Display.value value)))
  | failed {command : Command} {failure : Failure}
      (expected : failure.Expected command.failureKinds command.lineCount lines) :
      Ends lines command (.error failure)

variable {text : String} {command : Command} {calculator : Calculator} {lines : List Line}

theorem start_waiting {task : Task} (started : command.start = .waiting task) :
    task.failureKinds = command.failureKinds ∧ task.lineCount = command.lineCount := by
  cases command with
  | exit => cases started
  | defineScalar field name =>
    cases started
    exact ⟨rfl, rfl⟩
  | defineMatrix field height width name =>
    cases started
    exact ⟨rfl, rfl⟩
  | evaluate type =>
    cases started
    exact ⟨rfl, rfl⟩

/-- A command that has been read fails only as is to be expected of it. -/
theorem execute_expected (read : ofText text = .ok command) (typed : calculator.store.WellTyped)
    {failure : Failure} (failed : (calculator.execute text lines).outcome = .error failure) :
    failure.Expected command.failureKinds command.lineCount lines := by
  have started := (legal_of_ofText read).start
  cases start : command.start with
  | finished effect =>
    rw [Calculator.execute_of_finished read start] at failed
    cases failed
  | waiting task =>
    rw [Calculator.execute_of_waiting read start] at failed
    rw [start] at started
    cases started with
    | waiting legal =>
      obtain ⟨kinds, count⟩ := start_waiting start
      rw [← kinds, ← count]
      exact legal.run_expected typed failed

theorem execute_ends (read : ofText text = .ok command) (typed : calculator.store.WellTyped)
    (lines : List Line) : command.Ends lines (calculator.execute text lines).outcome := by
  have transition := calculator.execute_transition ⟨text, lines⟩
  dsimp only at transition
  generalize executed : calculator.execute text lines = execution at transition
  cases transition with
  | defined defines =>
    obtain ⟨_, again, target⟩ := defines.isDefinition
    obtain rfl := Except.ok.inj (read.symm.trans again)
    exact .defined target
  | left exits =>
    obtain rfl := Except.ok.inj (read.symm.trans exits)
    exact .exited
  | @shown type value evaluates =>
    obtain rfl := Except.ok.inj (read.symm.trans evaluates)
    exact .shown type value
  | failed failure =>
    exact .failed (execute_expected read typed (by rw [executed]))

end Command

/-! ## Sessions -/

/-- The error is none that a calculator reports: numbers were put together from what does not fit into
them, or numbers of two sorts met. -/
def Error.Escapes (error : Error) : Prop :=
  error.kind = .invalidValue ∨ error = .mixedFields

theorem Command.not_escapes_of_ofText {text : String} {error : Error}
    (failed : ofText text = .error error) : ¬ error.Escapes := by
  have kind := kind_of_ofText failed
  rintro (invalid | rfl)
  · rw [invalid] at kind
    revert kind
    decide
  · revert kind
    decide

theorem Command.not_escapes_of_expected {command : Command} {error : Error} {lines : List Line}
    (expected : (Failure.error error).Expected command.failureKinds command.lineCount lines) :
    ¬ error.Escapes := by
  -- The other error that escapes has a kind which is expected of evaluations, so it is excluded by name.
  have known : .invalidValue ∉ command.failureKinds := by
    cases command with
    | exit => simp [failureKinds]
    | defineScalar field name => cases field <;> simp [failureKinds, NumberField.readingKinds]
    | defineMatrix field height width name =>
      cases field <;> simp [failureKinds, NumberField.readingKinds]
    | evaluate type => simp [failureKinds, Expr.evaluationKinds]
  cases expected with
  | error kind unmixed =>
    rintro (invalid | mixed)
    · exact known (invalid ▸ kind)
    · exact unmixed mixed

namespace Session
variable {before last after : Calculator} {lines rest : List Line} {turn : Turn} {turns : List Turn}

theorem Finishes.reachable (finished : Finishes before rest turn after)
    (reachable : before.Reachable) : after.Reachable := by
  cases finished with
  | blank empty => exact reachable
  | help asked => exact reachable
  | @executed line following verdict after outcome reads plain execution judged =>
    have executed := reachable.execute (commandOf line) (following ++ rest)
    rwa [execution] at executed

/-- No error that a command of a session fails with escapes. -/
theorem Finishes.not_escapes (finished : Finishes before rest turn after)
    (reachable : before.Reachable) {error : Error} (failed : turn.verdict = .failed error) :
    ¬ error.Escapes := by
  cases finished with
  | blank empty => cases failed
  | help asked => cases failed
  | @executed line following verdict after outcome reads plain execution judged =>
    obtain rfl : verdict = .failed error := failed
    cases judged
    cases read : Command.ofText (commandOf line) with
    | error other =>
      rw [Calculator.execute_of_error read] at execution
      cases congrArg Execution.outcome execution
      exact Command.not_escapes_of_ofText read
    | ok command =>
      have outcome := congrArg Execution.outcome execution
      have expected := Command.execute_expected read reachable.legal.typed outcome
      exact Command.not_escapes_of_expected expected

theorem Course.not_escapes (course : Course before lines turns last rest)
    (reachable : before.Reachable) :
    ∀ turn ∈ turns, ∀ error, turn.verdict = .failed error → ¬ error.Escapes := by
  induction course with
  | nil calculator lines => exact List.forall_mem_nil _
  | cons opened finished later ih =>
    refine List.forall_mem_cons.mpr ⟨fun error => finished.not_escapes reachable, ?_⟩
    exact ih (finished.reachable reachable)

/-- A session that stops says farewell, below an empty line if a command was cut off. -/
theorem Stops.exists_closing (settings : Settings) (stops : Stops last rest) :
    ∃ closing unread, converse settings ⟨last, none⟩ rest = ⟨closing, unread⟩ ∧
      (texts closing = [farewell] ∨ texts closing = ["", farewell]) := by
  cases stops with
  | left exited =>
    refine ⟨[.written farewell], rest, ?_, .inl rfl⟩
    rw [converse.eq_def, if_pos exited]
  | cut opened cut =>
    obtain ⟨count, ends, -⟩ := converse_of_cut settings opened cut
    refine ⟨_, _, ends, .inr ?_⟩
    simp only [List.cons_append, texts_prompt_cons, texts_append, texts_asking]
    rfl

end Session

/-- Failures stay where they belong. In a calculator that commands have led to, a command that can be read
does what it is to do, or it fails in one of the ways of its own, or lines are missing or interrupted; a
line that is no command fails for its syntax or its modulus. So a session finishes one command after the
other and then says farewell, and every error that it meets on the way is one that it reports. -/
theorem failures_confined :
    (∀ (calculator : Calculator) (text : String) (command : Command) (lines : List Line),
      calculator.Reachable → Command.ofText text = .ok command →
        command.Ends lines (calculator.execute text lines).outcome) ∧
    (∀ (calculator : Calculator) (text : String) (error : Error) (lines : List Line),
      Command.ofText text = .error error →
        (calculator.execute text lines).outcome = .error (.error error) ∧
          error.kind ∈ Command.readingKinds) ∧
    ∀ (settings : Settings) (lines : List Line), (Session.run settings lines).1 = 0 ∧
      ∃ turns last rest closing, Session.Course .new lines turns last rest ∧
        Session.Stops last rest ∧
        (Session.run settings lines).2.written = Session.opening settings ++
          turns.flatMap (fun turn => turn.verdict.texts) ++ closing ∧
        (closing = ["Goodbye!"] ∨ closing = ["", "Goodbye!"]) ∧
        ∀ turn ∈ turns, ∀ error, turn.verdict = .failed error → ¬ error.Escapes := by
  refine ⟨?_, ?_, ?_⟩
  · intro calculator text command lines reachable read
    exact Command.execute_ends read reachable.legal.typed lines
  · intro calculator text error lines failed
    refine ⟨?_, Command.kind_of_ofText failed⟩
    rw [Calculator.execute_of_error failed]
  · intro settings lines
    obtain ⟨turns, last, rest, course, stops⟩ := Session.exists_course .new lines
    obtain ⟨closing, unread, ends, texts⟩ := stops.exists_closing settings
    obtain ⟨-, written, -⟩ := Session.run_of_course course ends
    exact ⟨rfl, turns, last, rest, _, course, stops, written, texts, course.not_escapes .new⟩

/-- Three modulo seven cannot be used modulo five, and nothing can be divided by zero; both are failures of
the command. -/
theorem failures_confined_seven :
    Command.Ends [.text "x"] (.evaluate (.scalar (.residues 5)))
      (.error (.error (.incompatibleModuli 7 5))) ∧
    Command.Ends [.text "1/0"] (.defineScalar .rationals "y") (.error (.error .divisionByZero)) := by
  have reachable : Calculator.tenModuloSeven.Reachable := .execute .new "DEF Z 7 x" [.text "10"]
  constructor
  · have outcome : (Calculator.tenModuloSeven.execute "EVAL Z 5" [.text "x"]).outcome =
        .error (.error (.incompatibleModuli 7 5)) := by decide +kernel
    rw [← outcome]
    exact failures_confined.1 _ _ _ _ reachable (by decide +kernel)
  · have outcome : (Calculator.tenModuloSeven.execute "DEF Q y" [.text "1/0"]).outcome =
        .error (.error .divisionByZero) := by decide +kernel
    rw [← outcome]
    exact failures_confined.1 _ _ _ _ reachable (by decide +kernel)

end Abacus
