import Abacus.Error
import Abacus.Text.Uppercase

/-!
# Settings of a session

The title in the banner, the prompts, whether the banner is shown, and the level of the log.
Results do not depend on any of them.
-/

namespace Abacus

/-- The levels of the log. -/
inductive LogLevel where
  | debug
  | info
  | warning
  | error
  | critical
deriving DecidableEq

namespace LogLevel

/-- The levels in ascending order. -/
def all : List LogLevel := [debug, info, warning, error, critical]

/-- The name of a level. -/
def text : LogLevel → String
  | debug => "DEBUG"
  | info => "INFO"
  | warning => "WARNING"
  | error => "ERROR"
  | critical => "CRITICAL"

/-- The weight of a level. -/
def severity : LogLevel → Nat
  | debug => 10
  | info => 20
  | warning => 30
  | error => 40
  | critical => 50

/-- The level with the given name, in upper or lower case. -/
def ofText? (text : String) : Option LogLevel :=
  all.find? (·.text == Text.uppercase text)

end LogLevel

/-- Settings as they are asked for. -/
structure SettingsDraft where
  title : String := "FIELDCALC"
  prompt : String := "> "
  inputPrompt : String := ""
  showBanner : Bool := true
  logLevel : String := "WARNING"

/-- Settings that a session can run with. -/
structure Settings where
  title : String
  /-- The prompt for a command. -/
  prompt : String
  /-- The prompt for a line that belongs to a command. -/
  inputPrompt : String
  showBanner : Bool
  logLevel : LogLevel
  title_ne : title ≠ ""

/-- The settings asked for; the level of the log is judged before the title. -/
def SettingsDraft.settings (draft : SettingsDraft) : Except Error Settings :=
  match LogLevel.ofText? draft.logLevel with
  | none => .error (.unknownLogLevel (Text.uppercase draft.logLevel))
  | some logLevel =>
    if untitled : draft.title = "" then .error .emptyTitle
    else
      .ok
        { title := draft.title
          prompt := draft.prompt
          inputPrompt := draft.inputPrompt
          showBanner := draft.showBanner
          logLevel
          title_ne := untitled }

/-- The settings in words. -/
def Settings.summary (settings : Settings) : String :=
  "\n".intercalate
    ["CalculatorConfig '" ++ settings.title ++ "':",
      "  Prompt: " ++ Text.quote settings.prompt,
      "  Input prompt: " ++ Text.quote settings.inputPrompt,
      "  Banner: " ++ (if settings.showBanner then "on" else "off"),
      "  Log level: " ++ settings.logLevel.text]

end Abacus
