import BufferPromotion.Command.Arguments
import BufferPromotion.Compile.Basic

/-! # Running the command

The command reads its input, checks the options, compiles, and writes the output. Each step
happens only if the ones before it went well, so nothing is ever written unless there is an
output to write. A command that is asked about itself only answers. How streams are read and
written is left to a shell; the command itself only decides what to do.
-/

set_option autoImplicit false

namespace BufferPromotion

/-! ## Faults and results -/

/-- Why the system refused to read or write. -/
inductive SystemFault where
  | notFound
  | notDirectory
  | isDirectory
  | nameTooLong
  /-- What was read is no text. -/
  | notText
  /-- Any other reason, in the system's words. -/
  | other (reason : String)
  deriving DecidableEq, Repr

namespace SystemFault

/-- The system's words. -/
def message : SystemFault → String
  | notFound => "No such file or directory (os error 2)"
  | notDirectory => "Not a directory (os error 20)"
  | isDirectory => "Is a directory (os error 21)"
  | nameTooLong => "File name too long (os error 36)"
  | notText => "stream did not contain valid UTF-8"
  | other reason => reason

end SystemFault

/-- Why the command failed although its arguments were fine. -/
inductive CommandError where
  /-- There is no input file of this name. -/
  | inputMissing (path : String)
  /-- The input file could not be opened. -/
  | inputUnopened (path : String) (fault : SystemFault)
  /-- The input could not be read. -/
  | inputUnreadable (input : Stream) (fault : SystemFault)
  /-- The options do not fit together. -/
  | options (error : OptionsError)
  /-- The listing has errors. -/
  | compilation
  /-- The output file could not be opened. -/
  | outputUnopened (path : String) (fault : SystemFault)
  /-- The output could not be written. -/
  | outputUnwritten (fault : SystemFault)
  deriving DecidableEq, Repr

namespace CommandError

/-- What went wrong, and the cause if the system knows one. -/
def describe : CommandError → String × Option SystemFault
  | inputMissing path => ("Input file `" ++ path ++ "` doesn't exist", none)
  | inputUnopened path fault => ("Failed to open input file `" ++ path ++ "`", some fault)
  | inputUnreadable (.file path) fault =>
      ("Failed to read from input file `" ++ path ++ "`", some fault)
  | inputUnreadable .standard fault => ("Failed to read from stdin", some fault)
  | options error => (error.message, none)
  | compilation => ("couldn't promote buffers due to the previous errors", none)
  | outputUnopened path fault => ("Failed to open output file `" ++ path ++ "`", some fault)
  | outputUnwritten fault => ("Failed to write to output", some fault)

/-- The wording shown to the user. -/
def message (error : CommandError) : String :=
  match error.describe with
  | (text, none) => "Error: " ++ text
  | (text, some fault) => "Error: " ++ text ++ "\n\nCaused by:\n    " ++ fault.message

end CommandError

/-- How the command ends. -/
inductive Exit where
  | success
  /-- The command did not get to its end. -/
  | failure (error : CommandError)
  /-- The arguments were rejected. -/
  | misuse (error : UsageError)
  deriving DecidableEq, Repr

namespace Exit

/-- The exit status. -/
def status : Exit → UInt32
  | success => 0
  | failure _ => 1
  | misuse _ => 2

/-- The message shown to the user. -/
def message : Exit → Option String
  | success => none
  | failure error => some error.message
  | misuse error => some error.message

end Exit

/-! ## What the command decides -/

/-- What a listing gives under some arguments: the diagnostics to show, and the output or the
reason why there is none. -/
structure Production where
  diagnostics : List (Severity × Diagnostic)
  result : Except CommandError String

/-- Checks the options and compiles a listing. -/
def Arguments.produce (arguments : Arguments) (source : String) : Production :=
  match arguments.options.check with
  | .error error => ⟨[], .error (.options error)⟩
  | .ok _ =>
      let outcome := compile source arguments.options
      ⟨outcome.diagnostics, outcome.value.elim (.error .compilation) .ok⟩

/-! ## Reading and writing -/

/-- How streams are read and written. -/
structure Shell (m : Type → Type) where
  /-- Reads all of a stream. -/
  read : Stream → m (Except CommandError String)
  /-- Opens a stream and writes a text to it, in place of what was there. -/
  write : Stream → String → m (Except CommandError Unit)
  /-- Shows diagnostics to the user. -/
  report : List (Severity × Diagnostic) → m Unit

variable {m : Type → Type} [Monad m]

/-- Writes an output. -/
def Shell.deliver (shell : Shell m) (output : Stream) (text : String) : m Exit := do
  match ← shell.write output text with
  | .ok _ => pure .success
  | .error error => pure (.failure error)

/-- Runs the command with arguments that were accepted. -/
def Arguments.run (arguments : Arguments) (shell : Shell m) : m Exit := do
  match ← shell.read arguments.inputStream with
  | .error error => pure (.failure error)
  | .ok source =>
      let production := arguments.produce source
      shell.report production.diagnostics
      match production.result with
      | .error error => pure (.failure error)
      | .ok output => shell.deliver arguments.outputStream output

/-- Answers a question about the command. That the answer may not be written is no failure. -/
def Information.tell (information : Information) (shell : Shell m) : m Exit := do
  let _ ← shell.write .standard information.text
  pure .success

/-- Runs the command. -/
def runCommand (arguments : List String) (shell : Shell m) : m Exit :=
  match readArguments arguments with
  | .error (.misuse error) => pure (.misuse error)
  | .error (.question information) => information.tell shell
  | .ok arguments => arguments.run shell

end BufferPromotion
