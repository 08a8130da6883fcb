import Abacus.Settings
import Abacus.Text.DecimalDigit

/-!
# Options on the command line

`--log-level LEVEL`, `--prompt TEXT`, `--no-banner` and `--help` or `-h`. A value is the next word
or is joined by an equals sign, long options may be shortened as long as they stay unambiguous, and
the last of several values counts. A word that begins with a minus sign is an option, unless it is
a single minus sign, a negative number, or holds a space and abbreviates no option; after a word
`--` nothing is an option. Options are obeyed from left to right, and a help option wins over
what comes after it. No other words are allowed.
-/

namespace Abacus

inductive Flag where
  | help
  | logLevel
  | noBanner
  | prompt
deriving DecidableEq

namespace Flag

def all : List Flag := [help, logLevel, noBanner, prompt]

def text : Flag → String
  | help => "--help"
  | logLevel => "--log-level"
  | noBanner => "--no-banner"
  | prompt => "--prompt"

end Flag

/-- Why no session starts. -/
inductive Refusal where
  | helpWanted
  | misused
deriving DecidableEq

/-- The exit code that goes with a refusal. -/
def Refusal.exitCode : Refusal → Nat
  | helpWanted => 0
  | misused => 2

/-- What a word on the command line is. -/
inductive Word where
  | argument (text : String)
  | option (flag : Flag) (joined : Option String)
  | unknownOption
  | ambiguous
deriving DecidableEq

namespace Word

/-- Whether `digits` are one or more decimal digits. -/
def isNumeral (digits : List Char) : Bool :=
  !digits.isEmpty && digits.all Text.isDecimalDigit

/-- Whether `chars` are digits, or a point and digits with or without digits before it; one line
feed may follow. -/
def isUnsignedNumber (chars : List Char) : Bool :=
  let number := if chars.getLast? = some '\n' then chars.dropLast else chars
  let whole := number.takeWhile (· != '.')
  match number.dropWhile (· != '.') with
  | [] => isNumeral whole
  | _ :: fraction => whole.all Text.isDecimalDigit && isNumeral fraction

/-- A word that begins with a minus sign and names no option. -/
def ofOther (text : String) : Word :=
  match text.toList with
  | '-' :: chars =>
    if isUnsignedNumber chars || chars.contains ' ' then argument text else unknownOption
  | _ => argument text

/-- The option that `-h` with `tail` behind it is. The letter may be repeated, also after an equals
sign; anything else is a value, which help does not take. -/
def ofShortHelp (tail : List Char) : Word :=
  let letters := match tail with
    | '=' :: value => value
    | _ => tail
  if !letters.isEmpty && letters.all (· == 'h') then option .help none
  else option .help (some (String.ofList letters))

/-- What a word is, before any word `--`. -/
def ofText (text : String) : Word :=
  let name := String.ofList (text.toList.takeWhile (· != '='))
  let joined := match text.toList.dropWhile (· != '=') with
    | [] => none
    | _ :: value => some (String.ofList value)
  match text.toList with
  | ['-'] => argument text
  | '-' :: '-' :: _ =>
    match Flag.all.find? (·.text == name) with
    | some flag => option flag joined
    | none =>
      match Flag.all.filter fun flag => name.toList.isPrefixOf flag.text.toList with
      | [flag] => option flag joined
      | [] => ofOther text
      | _ :: _ :: _ => ambiguous
  | ['-', 'h'] => option .help none
  | '-' :: 'h' :: tail => ofShortHelp tail
  | _ => ofOther text

/-- The words of a command line; from a word `--` on, all are arguments. -/
def ofTexts : List String → List Word
  | [] => []
  | text :: rest =>
    if text = "--" then unknownOption :: rest.map argument else ofText text :: ofTexts rest

end Word

namespace Options

/-- The draft with the log level that `name` names. -/
def withLogLevel (draft : SettingsDraft) (name : String) : Except Refusal SettingsDraft :=
  match LogLevel.ofText? name with
  | some level => .ok { draft with logLevel := level.text }
  | none => .error .misused

/-- Obeys the words from left to right. `surplus` tells whether a word was neither an option nor a
value, which is refused at the end. -/
def obey (draft : SettingsDraft) (surplus : Bool) : List Word → Except Refusal SettingsDraft
  | [] => if surplus then .error .misused else .ok draft
  | .option .help none :: _ => .error .helpWanted
  | .option .noBanner none :: rest => obey { draft with showBanner := false } surplus rest
  | .option .logLevel (some value) :: rest
  | .option .logLevel none :: .argument value :: rest => do
    obey (← withLogLevel draft value) surplus rest
  | .option .prompt (some value) :: rest
  | .option .prompt none :: .argument value :: rest =>
    obey { draft with prompt := value } surplus rest
  | .argument _ :: rest | .unknownOption :: rest => obey draft true rest
  | .option _ _ :: _ | .ambiguous :: _ => .error .misused

/-- The settings that a command line asks for. An ambiguous option is refused before any word is
obeyed. -/
def draft (arguments : List String) : Except Refusal SettingsDraft :=
  let words := Word.ofTexts arguments
  if words.contains .ambiguous then .error .misused else obey {} false words

/-- The settings of the session that a command line starts. -/
def settings (arguments : List String) : Except Refusal Settings := do
  match (← draft arguments).settings with
  | .ok settings => return settings
  | .error _ => throw .misused

end Options

end Abacus
