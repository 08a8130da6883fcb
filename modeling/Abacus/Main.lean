import Abacus.Options
import Abacus.Session
import Abacus.Text.Lines

/-!
# The calculator on a console

Starts the session that the command line asks for, and hands it the lines of the console one at a
time.
-/

namespace Abacus.Console

/-- Writes a text without ending the line, at once. -/
def put (text : String) : IO Unit := do
  let console ← IO.getStdout
  console.putStr text
  console.flush

/-- Goes on with a session; `ahead` are lines that have been read but not yet used. -/
partial def converse (settings : Settings) (session : Session) (ahead : List String) :
    IO Unit := do
  if session.calculator.exited then IO.println Session.farewell
  else
    put (session.prompt settings)
    let lines ← if ahead.isEmpty then Text.lines <$> (← IO.getStdin).getLine else pure ahead
    match lines with
    | [] =>
      IO.println ""
      IO.println Session.farewell
    | line :: rest =>
      let (next, texts) := session.step line
      texts.forM fun text => IO.println text
      converse settings next rest

/-- Runs the session that the command line asks for, and returns the exit code. -/
def run (arguments : List String) : IO UInt32 := do
  match Options.settings arguments with
  | .error refusal => return refusal.exitCode.toUInt32
  | .ok settings =>
    (Session.opening settings).forM fun text => IO.println text
    converse settings .new []
    return Session.exitCode.toUInt32

end Abacus.Console

def main (arguments : List String) : IO UInt32 :=
  Abacus.Console.run arguments
