import Abacus.Calculator
import Abacus.Settings

/-!
# Sessions

A session reads commands and their lines, one line after the other, until the calculator is left,
the input ends or an interruption arrives. A failed command is reported and the session goes on.
A session takes one line at a time and says what to write, so it can be run on a list of lines as
well as on a console.
-/

namespace Abacus

/-- What a session does to its reader: it asks for a line, or it writes one. -/
inductive Event where
  | prompt (text : String)
  | written (text : String)
deriving DecidableEq

/-- The calculator, and the command that waits for its next line. -/
structure Session where
  calculator : Calculator
  task : Option Task

/-- Everything a session did, and the lines it left unread. -/
structure Transcript where
  events : List Event
  unread : List Line

/-- The events as a console shows them: only written lines end. -/
def Event.consoleText : Event → String
  | prompt text => text
  | written text => text ++ "\n"

namespace Transcript

def written (transcript : Transcript) : List String :=
  transcript.events.filterMap fun
    | .written text => some text
    | .prompt _ => none

def prompts (transcript : Transcript) : List String :=
  transcript.events.filterMap fun
    | .prompt text => some text
    | .written _ => none

/-- What a console shows in the end. -/
def consoleText (transcript : Transcript) : String :=
  String.join (transcript.events.map Event.consoleText)

/-- The transcript with more events before its own. -/
def after (events : List Event) (transcript : Transcript) : Transcript :=
  { transcript with events := events ++ transcript.events }

end Transcript

namespace Session

/-- The commands, operators and functions at a glance. -/
def usage : String :=
  "\n".intercalate
    ["Commands:",
      "  DEF Q <name>                  then enter a rational, e.g. -3/4",
      "  DEF Z <p> <name>              then enter an integer (reduced mod p)",
      "  DEF Matrix[Q] <h> <w> <name>  then enter h rows of w entries",
      "  DEF Matrix[Z <p>] <h> <w> <name>",
      "  EVAL <type>                   then enter a prefix expression, e.g. + a * b c",
      "  HELP                          show this text",
      "  EXIT                          leave the calculator",
      "",
      "Operators: + - * /   Functions: neg inv det rank rref pow scale"]

/-- The width of the banner between its sides. -/
def bannerWidth : Nat := 68

/-- `text` in the middle of `width` characters; an odd space goes to the right. -/
def centered (width : Nat) (text : String) : String :=
  let free := width - text.length
  String.ofList (Display.spaces (free / 2) ++ text.toList ++ Display.spaces (free - free / 2))

/-- The lines of the banner and what follows it. -/
def banner (settings : Settings) : List String :=
  let line := String.ofList (List.replicate bannerWidth '═')
  let title := settings.title ++ " - exact arithmetic over Q and Z p"
  ["╔" ++ line ++ "╗", "║" ++ centered bannerWidth title ++ "║", "╚" ++ line ++ "╝", usage, ""]

/-- The word at the end of every session. -/
def farewell : String := "Goodbye!"

/-- A session that has read nothing. -/
def new : Session :=
  ⟨.new, none⟩

/-- The lines written before anything is read. -/
def opening (settings : Settings) : List String :=
  if settings.showBanner then banner settings else []

def prompt (session : Session) (settings : Settings) : String :=
  if session.task.isSome then settings.inputPrompt else settings.prompt

/-- How a failure is reported. -/
def report (error : Error) : String :=
  "ERROR: " ++ error.message

/-- The session after a command has started or been fed, and the lines it writes. -/
def advance (session : Session) : Except Error Progress → Session × List String
  | .error error => ({ session with task := none }, [report error])
  | .ok (.waiting task) => ({ session with task := some task }, [])
  | .ok (.finished effect) =>
    ({ calculator := session.calculator.apply effect, task := none }, effect.text?.toList)

/-- The session after one more line, and the lines it writes. Commands are taken without the
blanks around them; lines that belong to a command are taken as they are. -/
def step (session : Session) (line : String) : Session × List String :=
  match session.task with
  | some task => session.advance (task.feed session.calculator.store line)
  | none =>
    let command := String.ofList (Text.strip line.toList)
    if command = "" then (session, [])
    else if command = "HELP" then (session, [usage])
    else session.advance (Command.start <$> Command.ofText command)

/-- Goes on with a session until it ends. -/
def converse (settings : Settings) (session : Session) (lines : List Line) : Transcript :=
  if session.calculator.exited then ⟨[.written farewell], lines⟩
  else
    match lines with
    | .text line :: rest =>
      let (next, texts) := session.step line
      (converse settings next rest).after
        (.prompt (session.prompt settings) :: texts.map .written)
    | .interrupt :: rest => ⟨ending session settings, rest⟩
    | [] => ⟨ending session settings, []⟩
where
  /-- A prompt that no line answers ends the session on a line of its own. -/
  ending (session : Session) (settings : Settings) : List Event :=
    [.prompt (session.prompt settings), .written "", .written farewell]

def transcript (settings : Settings) (lines : List Line) : Transcript :=
  (converse settings new lines).after ((opening settings).map .written)

/-- The exit code of every session, however it ended. -/
def exitCode : Nat := 0

/-- A whole session: its exit code and everything that it did. -/
def run (settings : Settings) (lines : List Line) : Nat × Transcript :=
  (exitCode, transcript settings lines)

end Session

end Abacus
