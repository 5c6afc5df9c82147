import BorrowFlow.Message.Diagnostic
import BorrowFlow.Message.Error

/-!
# Messages on the terminal

What is printed for errors and diagnostics: errors first, then one block for each port that has
diagnostics. Every printed line switches its styles off at its end, whether it uses any or not.
-/

namespace BorrowFlow

inductive Style where
  | dark
  | red
  | yellow
  | magenta
  deriving DecidableEq

/-- The escape sequence that switches the style on. -/
def Style.code : Style → String
  | dark => "\x1b[2m"
  | red => "\x1b[31m"
  | yellow => "\x1b[33m"
  | magenta => "\x1b[35m"

/-- A part of a printed line: a text, and the styles that are switched on before it. -/
structure Fragment where
  styles : List Style := []
  text : String
  deriving DecidableEq

def Fragment.printed (fragment : Fragment) : String :=
  String.join (fragment.styles.map Style.code) ++ fragment.text

def plain (text : String) : Fragment := { text }

def styled (styles : List Style) (text : String) : Fragment := { styles, text }

def say (fragments : List Fragment) : String :=
  String.join (fragments.map Fragment.printed) ++ "\x1b[0m\n"

/-- Everything that is shown to the user after inference. -/
structure Messages where
  errors : List ErrorReport := []
  diagnostics : Diagnostics := {}

namespace Messages

def ofError (error : ErrorReport) : Messages := { errors := [error] }

def ofDiagnostics (diagnostics : Diagnostics) : Messages := { diagnostics }

def hasErrors (messages : Messages) : Bool := !messages.errors.isEmpty

def isEmpty (messages : Messages) : Bool := messages.errors.isEmpty && messages.diagnostics.isEmpty

end Messages

/-- The banner of an error, with its location between the two halves. -/
def ErrorReport.banner (before after : String) (error : ErrorReport) : String :=
  say [plain before, styled [.dark, .magenta] error.location.text, plain after]

/-- The message of an error and its notes. -/
def ErrorReport.details (error : ErrorReport) : String :=
  say [styled [.red] error.message] ++
    String.join (error.notes.entries.map fun (heading, note) =>
      say [styled [.dark, .magenta] (heading ++ ": "), plain note])

def ErrorReport.printed (error : ErrorReport) : String :=
  match error.kind with
  | .file =>
    say [styled [.yellow] "🏚 Can't find/read file or directory"] ++ say [plain error.message]
  | .config =>
    error.banner "\n (-_-)  🔥🔥🔥🔥 " " 🔥🔥🔥🔥  <(^~^)/ " ++
      say [styled [.yellow] "CONFIG FILE ISSUE- "] ++
      say [styled [.dark, .yellow]
        "Malformed inference config, something doesn't make sense inside it"] ++
      error.details
  | .compiler =>
    error.banner "\nヽ༼☉ ‿ ⚆༽ﾉ  🔥🔥🔥🔥 " " 🔥🔥🔥🔥  ╰(° _ o╰) " ++
      say [styled [.yellow] "COMPILER BUG - "] ++
      say [styled [.dark, .yellow] "inference developer skill issue (not your fault)"] ++
      error.details
  | .lifetimeTermination =>
    error.banner "\nヽ༼☉ ‿ ⚆༽ﾉ  🔥🔥🔥 " " 🔥🔥🔥  ╰(°□°╰) " ++
      say [styled [.yellow] "LIFETIME TERMINATION BUG - "] ++
      say [styled [.dark, .yellow] "borrow insertion disagrees with itself (not your fault)"] ++
      error.details

def Diagnostic.printed (diagnostic : Diagnostic) : String :=
  let heading := match diagnostic with
    | .typeMismatch .. => styled [.red] "  Type Error: "
    | .notMutable => styled [.red] "  Mutability: "
    | .failedConstraint _ => styled [.red] "  Constraint: "
    | .featureDisabled _ => styled [.yellow] "  Disabled: "
  say [heading, plain diagnostic.message]

/-- A heading for every port, followed by its diagnostics. -/
def Diagnostics.printed (diagnostics : Diagnostics) : String :=
  String.join (diagnostics.byPort.entries.map fun (port, found) =>
    say [plain "\n(ಠ_ಠ) ", styled [.dark, .magenta] (portName port)] ++
      String.join (found.map Diagnostic.printed))

def Messages.printed (messages : Messages) : String :=
  String.join (messages.errors.map ErrorReport.printed) ++ messages.diagnostics.printed

end BorrowFlow
