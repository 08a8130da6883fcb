import Abacus.Proofs.LastDefinition
import Abacus.Session

/-!
# Sessions, command by command

A session finishes one command after the other, each with the lines that it takes, until the calculator is
left or a command is cut off because the input ends or an interruption arrives (`Session.finishes_or_cut`).
The lines decide which command that is and how it goes (`Session.Finishes.unique`, `Session.Finishes.not_cut`).
-/

namespace Abacus

namespace Transcript

theorem after_after (transcript : Transcript) (first second : List Event) :
    (transcript.after second).after first = transcript.after (first ++ second) := by
  simp only [after, List.append_assoc]

end Transcript

namespace Session

/-- What an outcome makes a session do next: it goes on with another command, or the session ends. -/
def conclude (settings : Settings) (execution : Execution) : Transcript :=
  let next := converse settings ⟨execution.calculator, none⟩ execution.unread
  match execution.outcome with
  | .ok shown => next.after (shown.toList.map .written)
  | .error (.error error) => next.after [.written (report error)]
  | .error .endOfInput | .error .interrupted =>
    ⟨[.written "", .written farewell], execution.unread⟩

/-- The events of asking for lines that belong to a command. -/
def asking (settings : Settings) (count : Nat) : List Event :=
  List.replicate count (.prompt settings.inputPrompt)

variable {settings : Settings} {calculator : Calculator}

/-- A session runs the task that waits, and concludes. -/
theorem converse_waiting (opened : calculator.exited = false) (task : Task) (lines : List Line) :
    converse settings ⟨calculator, some task⟩ lines =
      (conclude settings (calculator.run task lines)).after
        (asking settings (calculator.run task lines).reads) := by
  have going : ¬ calculator.exited = true := by simp [opened]
  induction lines generalizing task with
  | nil =>
    rw [converse.eq_def, if_neg going]
    rfl
  | cons line rest ih =>
    rw [converse.eq_def, if_neg going]
    cases line with
    | interrupt => rfl
    | text line =>
      cases fed : task.feed calculator.store line with
      | error error =>
        rw [Calculator.run_of_error fed]
        simp only [step, fed, advance]
        rfl
      | ok progress =>
        cases progress with
        | finished effect =>
          rw [Calculator.run_of_finished fed]
          simp only [step, fed, advance]
          exact (Transcript.after_after _ [.prompt settings.inputPrompt]
            (effect.text?.toList.map .written)).symm
        | waiting next =>
          rw [Calculator.run_of_waiting fed]
          simp only [step, fed, advance, ih next, Transcript.after_after]
          rfl

/-- The command on a line, without the blanks around it. -/
def commandOf (line : String) : String :=
  String.ofList (Text.strip line.toList)

/-- The command is executed by the calculator; the session itself sees to the others. -/
def IsExecuted (command : String) : Prop :=
  command ≠ "" ∧ command ≠ "HELP"

/-- A session executes the command on a line, and concludes. -/
theorem converse_executed (opened : calculator.exited = false) {line : String}
    (executed : IsExecuted (commandOf line)) (rest : List Line) :
    converse settings ⟨calculator, none⟩ (.text line :: rest) =
      (conclude settings (calculator.execute (commandOf line) rest)).after
        (.prompt settings.prompt ::
          asking settings (calculator.execute (commandOf line) rest).reads) := by
  have going : ¬ calculator.exited = true := by simp [opened]
  have plain : ¬ commandOf line = "" ∧ ¬ commandOf line = "HELP" := executed
  rw [commandOf] at plain ⊢
  rw [converse.eq_def, if_neg going]
  simp only [step, if_neg plain.1, if_neg plain.2]
  cases read : Command.ofText (String.ofList (Text.strip line.toList)) with
  | error error =>
    rw [Calculator.execute_of_error read]
    exact (Transcript.after_after _ [.prompt settings.prompt] [.written (report error)]).symm
  | ok command =>
    cases started : command.start with
    | finished effect =>
      rw [Calculator.execute_of_finished read started]
      simp only [Functor.map, Except.map, started, advance]
      exact (Transcript.after_after _ [.prompt settings.prompt]
        (effect.text?.toList.map .written)).symm
    | waiting task =>
      rw [Calculator.execute_of_waiting read started]
      simp only [Functor.map, Except.map, started, advance]
      rw [converse_waiting opened]
      exact Transcript.after_after _ [.prompt settings.prompt] _

/-! ## One command -/

/-- How a command went that a session has finished. -/
inductive Verdict where
  | blank
  | help
  | failed (error : Error)
  | shown (text : String)
  | defined
  | left

/-- What a session writes about a finished command. -/
def Verdict.texts : Verdict → List String
  | blank | defined | left => []
  | help => [usage]
  | failed error => [report error]
  | shown text => [text]

/-- After such a verdict nothing of the command is left but the text about it. -/
def Verdict.IsPassing : Verdict → Prop
  | blank | help | failed _ | shown _ => True
  | defined | left => False

/-- The verdict that an outcome of an executed command comes to. -/
inductive Judged (command : String) : Except Failure (Option String) → Verdict → Prop
  | failed (error : Error) : Judged command (.error (.error error)) (.failed error)
  | shown {type : ValueType} (text : String)
      (evaluates : Command.ofText command = .ok (.evaluate type)) :
      Judged command (.ok (some text)) (.shown text)
  | defined {parsed : Command} {name : String} {type : ValueType}
      (read : Command.ofText command = .ok parsed) (target : parsed.target? = some (name, type)) :
      Judged command (.ok none) .defined
  | left (exits : Command.ofText command = .ok .exit) : Judged command (.ok none) .left

/-- A finished command: its line, the lines that it took after it, and how it went. -/
structure Turn where
  line : String
  following : List Line
  verdict : Verdict

namespace Turn

/-- All lines of the command. -/
def taken (turn : Turn) : List Line :=
  .text turn.line :: turn.following

/-- What a session does to its reader in the course of the command. -/
def events (settings : Settings) (turn : Turn) : List Event :=
  .prompt settings.prompt :: asking settings turn.following.length ++
    turn.verdict.texts.map .written

end Turn

/-- With the lines of a command and some more to come, the command is finished before the `rest`. -/
inductive Finishes (before : Calculator) (rest : List Line) : Turn → Calculator → Prop
  | blank {line : String} (empty : commandOf line = "") :
      Finishes before rest ⟨line, [], .blank⟩ before
  | help {line : String} (asked : commandOf line = "HELP") :
      Finishes before rest ⟨line, [], .help⟩ before
  | executed {line : String} {following : List Line} {verdict : Verdict} {after : Calculator}
      {outcome : Except Failure (Option String)} {reads : Nat} (plain : IsExecuted (commandOf line))
      (execution : before.execute (commandOf line) (following ++ rest) =
        ⟨after, outcome, rest, reads⟩)
      (judged : Judged (commandOf line) outcome verdict) :
      Finishes before rest ⟨line, following, verdict⟩ after

/-- A command is cut off: the lines end, or an interruption comes, after which some lines are `unread`. -/
inductive Cut (before : Calculator) : List Line → List Line → Prop
  | atEnd : Cut before [] []
  | atInterrupt (unread : List Line) : Cut before (.interrupt :: unread) unread
  | inside {line : String} {rest unread : List Line} {failure : Failure} {reads : Nat}
      (plain : IsExecuted (commandOf line))
      (execution : before.execute (commandOf line) rest = ⟨before, .error failure, unread, reads⟩)
      (noError : ∀ error, failure ≠ .error error) : Cut before (.text line :: rest) unread

section OneCommand
variable {before after : Calculator} {lines rest unread : List Line} {turn : Turn}

theorem conclude_of_judged {command : String} {outcome : Except Failure (Option String)}
    {verdict : Verdict} (judged : Judged command outcome verdict) (reads : Nat) :
    conclude settings ⟨after, outcome, rest, reads⟩ =
      (converse settings ⟨after, none⟩ rest).after (verdict.texts.map .written) := by
  cases judged <;> rfl

theorem Judged.reached {command : String} {outcome : Except Failure (Option String)} {verdict : Verdict}
    (judged : Judged command outcome verdict) : outcome ≠ .error .endOfInput := by
  rintro rfl
  cases judged

/-- An executed command comes to a verdict, or it is cut off and leaves the calculator as it was. -/
theorem judged_or_cut {call : Call} {execution : Execution}
    (transition : call.Transition before execution) :
    (∃ verdict, Judged call.command execution.outcome verdict) ∨
      execution.calculator = before ∧
        ∃ failure, execution.outcome = .error failure ∧ ∀ error, failure ≠ .error error := by
  cases transition with
  | defined defines =>
    obtain ⟨command, read, isDefined⟩ := defines.isDefinition
    exact .inl ⟨.defined, .defined read isDefined⟩
  | left command => exact .inl ⟨.left, .left command⟩
  | shown value command => exact .inl ⟨.shown _, .shown _ command⟩
  | failed failure =>
    cases failure with
    | error error => exact .inl ⟨.failed error, .failed error⟩
    | endOfInput => exact .inr ⟨rfl, .endOfInput, rfl, nofun⟩
    | interrupted => exact .inr ⟨rfl, .interrupted, rfl, nofun⟩

/-- What is a definition is no command to leave the calculator. -/
theorem not_exit_of_target {command name : String} {parsed : Command} {type : ValueType}
    (read : Command.ofText command = .ok parsed) (target : parsed.target? = some (name, type)) :
    Command.ofText command ≠ .ok .exit := by
  intro exits
  obtain rfl := Except.ok.inj (read.symm.trans exits)
  cases target

theorem Judged.unique {command : String} {outcome : Except Failure (Option String)} {verdict other : Verdict}
    (judged : Judged command outcome verdict) (again : Judged command outcome other) : verdict = other := by
  cases judged with
  | failed error =>
    cases again
    rfl
  | shown text evaluates =>
    cases again
    rfl
  | defined read target =>
    cases again with
    | defined => rfl
    | left exits => exact absurd exits (not_exit_of_target read target)
  | left exits =>
    cases again with
    | defined read target => exact absurd exits (not_exit_of_target read target)
    | left => rfl

/-- The lines decide which command is finished, how it went, and what comes after it. -/
theorem Finishes.unique {otherRest : List Line} {other : Turn} {otherAfter : Calculator}
    (finished : Finishes before rest turn after) (again : Finishes before otherRest other otherAfter)
    (same : turn.taken ++ rest = other.taken ++ otherRest) :
    turn = other ∧ rest = otherRest ∧ after = otherAfter := by
  cases finished with
  | blank empty =>
    cases again with
    | blank =>
      cases same
      exact ⟨rfl, rfl, rfl⟩
    | help asked =>
      cases same
      exact absurd (empty.symm.trans asked) (by decide)
    | executed plain =>
      cases same
      exact absurd empty plain.1
  | help asked =>
    cases again with
    | blank empty =>
      cases same
      exact absurd (empty.symm.trans asked) (by decide)
    | help =>
      cases same
      exact ⟨rfl, rfl, rfl⟩
    | executed plain =>
      cases same
      exact absurd asked plain.2
  | @executed line following verdict after outcome reads plain execution judged =>
    cases again with
    | blank empty =>
      cases same
      exact absurd empty plain.1
    | help asked =>
      cases same
      exact absurd asked plain.2
    | @executed otherLine otherFollowing otherVerdict otherAfter otherOutcome otherReads _ otherExecution
        otherJudged =>
      -- Both are the same execution, so what it left unread is the same, and what it took.
      obtain ⟨sameLine, sameLines⟩ := List.cons.inj same
      obtain rfl := Line.text.inj sameLine
      change following ++ rest = otherFollowing ++ otherRest at sameLines
      rw [sameLines, otherExecution] at execution
      obtain ⟨rfl, rfl, rfl, rfl⟩ := Execution.mk.inj execution
      obtain rfl := List.append_cancel_right sameLines
      rw [judged.unique otherJudged]
      exact ⟨rfl, rfl, rfl⟩

/-- A command that is finished is not cut off. -/
theorem Finishes.not_cut (finished : Finishes before rest turn after) :
    ¬ Cut before (turn.taken ++ rest) unread := by
  intro cut
  cases finished with
  | blank empty =>
    cases cut with
    | inside plain => exact plain.1 empty
  | help asked =>
    cases cut with
    | inside plain => exact plain.2 asked
  | executed plain execution judged =>
    cases cut with
    | inside _ cutExecution noError =>
      obtain ⟨-, rfl, -, -⟩ := Execution.mk.inj (execution.symm.trans cutExecution)
      cases judged with
      | failed error => exact noError error rfl

theorem finishes_or_cut (before : Calculator) (lines : List Line) :
    (∃ turn rest after, lines = turn.taken ++ rest ∧ Finishes before rest turn after) ∨
      ∃ unread, Cut before lines unread := by
  match lines with
  | [] => exact .inr ⟨[], .atEnd⟩
  | .interrupt :: rest => exact .inr ⟨rest, .atInterrupt rest⟩
  | .text line :: rest =>
    by_cases empty : commandOf line = ""
    · exact .inl ⟨⟨line, [], .blank⟩, rest, before, rfl, .blank empty⟩
    by_cases asked : commandOf line = "HELP"
    · exact .inl ⟨⟨line, [], .help⟩, rest, before, rfl, .help asked⟩
    have transition := before.execute_transition ⟨commandOf line, rest⟩
    have thrifty := before.execute_thrifty (commandOf line) rest
    rw [Calculator.Thrifty] at thrifty
    dsimp only at transition
    generalize executed : before.execute (commandOf line) rest = execution at transition thrifty
    obtain ⟨after, outcome, unread, reads⟩ := execution
    rcases judged_or_cut transition with ⟨verdict, judged⟩ | ⟨rfl, failure, rfl, noError⟩
    · rcases thrifty with ⟨exhausted, -⟩ | ⟨following, split, -, others⟩
      · exact absurd exhausted judged.reached
      · refine .inl ⟨⟨line, following, verdict⟩, unread, after, congrArg _ split, ?_⟩
        exact .executed ⟨empty, asked⟩ (others unread) judged
    · exact .inr ⟨unread, .inside ⟨empty, asked⟩ executed noError⟩

/-- A finished command writes its texts, and the session goes on with the calculator that it left. -/
theorem converse_of_finishes (opened : before.exited = false)
    (finished : Finishes before rest turn after) :
    converse settings ⟨before, none⟩ (turn.taken ++ rest) =
      (converse settings ⟨after, none⟩ rest).after (turn.events settings) := by
  have going : ¬ before.exited = true := by simp [opened]
  cases finished with
  | @blank line empty =>
    rw [commandOf] at empty
    rw [converse.eq_def, if_neg going]
    simp only [Turn.taken, List.cons_append, step, if_pos empty]
    rfl
  | @help line asked =>
    rw [commandOf] at asked
    rw [converse.eq_def, if_neg going]
    simp only [Turn.taken, List.cons_append, step, asked]
    rfl
  | @executed line following verdict after outcome reads plain execution judged =>
    obtain ⟨count, -⟩ := Calculator.execute_taken execution judged.reached
    rw [Turn.taken, List.cons_append, converse_executed opened plain, execution,
      conclude_of_judged judged, Transcript.after_after, count]
    rfl

theorem Finishes.other (finished : Finishes before rest turn after) (other : List Line) :
    Finishes before other turn after := by
  cases finished with
  | blank empty => exact .blank empty
  | help asked => exact .help asked
  | executed plain execution judged =>
    obtain ⟨-, others⟩ := Calculator.execute_taken execution judged.reached
    exact .executed plain (others other) judged

theorem Finishes.eq_of_isPassing (finished : Finishes before rest turn after)
    (passing : turn.verdict.IsPassing) : after = before := by
  cases finished with
  | blank empty => rfl
  | help asked => rfl
  | @executed line following verdict after outcome reads plain execution judged =>
    have transition := before.execute_transition ⟨commandOf line, following ++ rest⟩
    dsimp only at transition
    rw [execution] at transition
    cases judged with
    | failed error =>
      cases transition
      rfl
    | shown text evaluates =>
      cases transition
      rfl
    | defined read target => cases passing
    | left exits => cases passing

/-- Only the command to leave the calculator leaves it. -/
theorem Finishes.exited_iff (finished : Finishes before rest turn after) :
    after.exited = true ↔ before.exited = true ∨ turn.verdict = .left := by
  cases finished with
  | blank empty => simp
  | help asked => simp
  | @executed line following verdict after outcome reads plain execution judged =>
    have exited := @Call.exited_iff ⟨commandOf line, following ++ rest⟩ before
    dsimp only [Call.Succeeds] at exited
    rw [execution] at exited
    rw [exited]
    refine or_congr_right ⟨?_, ?_⟩
    · rintro ⟨exits, shown, success⟩
      cases judged with
      | failed error => cases success
      | shown text evaluates => cases evaluates.symm.trans exits
      | defined read target => exact absurd exits (not_exit_of_target read target)
      | left => rfl
    · rintro rfl
      cases judged with
      | left exits => exact ⟨exits, none, rfl⟩

/-- A command that is cut off ends the session on a line of its own. There is a prompt for every line that
was taken, and one more if the lines were not enough. -/
theorem converse_of_cut (settings : Settings) (opened : before.exited = false)
    (cut : Cut before lines unread) :
    ∃ count, converse settings ⟨before, none⟩ lines =
        ⟨.prompt settings.prompt :: asking settings count ++ [.written "", .written farewell],
          unread⟩ ∧
      (count = lines.length ∧ unread = [] ∨ count + 1 + unread.length = lines.length) := by
  have going : ¬ before.exited = true := by simp [opened]
  cases cut with
  | atEnd =>
    refine ⟨0, ?_, .inl ⟨rfl, rfl⟩⟩
    rw [converse.eq_def, if_neg going]
    rfl
  | atInterrupt unread =>
    refine ⟨0, ?_, .inr ?_⟩
    · rw [converse.eq_def, if_neg going]
      rfl
    · rw [List.length_cons]
      omega
  | @inside line rest unread failure reads plain execution noError =>
    refine ⟨reads, ?_, ?_⟩
    · rw [converse_executed opened plain, execution]
      cases failure with
      | error error => exact absurd rfl (noError error)
      | endOfInput => rfl
      | interrupted => rfl
    · have thrifty := before.execute_thrifty (commandOf line) rest
      rw [Calculator.Thrifty, execution] at thrifty
      rcases thrifty with ⟨-, nothing, count⟩ | ⟨taken, split, count, -⟩
      · exact .inl ⟨count, nothing⟩
      · refine .inr ?_
        dsimp only at split count
        rw [List.length_cons, split, List.length_append, count]
        omega

end OneCommand

end Session

end Abacus
