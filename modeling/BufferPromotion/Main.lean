import BufferPromotion.Command.Run

/-! # The command

Runs the command on the files and streams of the system.
-/

set_option autoImplicit false

namespace BufferPromotion

/-- The number of an error of the system. Some calls give it with its sign reversed. -/
def errorNumber (code : UInt32) : UInt32 := if code < 0x80000000 then code else 0 - code

/-- The fault with a number and a reason. -/
def numberedFault (code : UInt32) (reason : String) : SystemFault :=
  match (errorNumber code).toNat with
  | 2 => .notFound
  | 20 => .notDirectory
  | 21 => .isDirectory
  | 36 => .nameTooLong
  | number => .other s!"{reason} (os error {number})"

/-- The fault behind an error of the system. -/
def systemFault (error : IO.Error) : SystemFault :=
  match error with
  | .noFileOrDirectory _ code reason | .inappropriateType _ code reason
  | .invalidArgument _ code reason | .permissionDenied _ code reason
  | .resourceExhausted _ code reason | .alreadyExists _ code reason => numberedFault code reason
  | .resourceBusy code reason | .resourceVanished code reason | .otherError code reason
  | .hardwareFault code reason | .unsupportedOperation code reason => numberedFault code reason
  | error => .other error.toString

/-- The error about an input file that cannot be opened. A file that cannot be found at all is
missing. -/
def inputError (path : String) (fault : SystemFault) : CommandError :=
  match fault with
  | .notFound | .notDirectory | .nameTooLong => .inputMissing path
  | fault => .inputUnopened path fault

/-- Reads all that is left of an open stream. -/
def readSystemText (stream : Stream) (read : IO ByteArray) : IO (Except CommandError String) := do
  try
    match String.fromUTF8? (← read) with
    | some text => return .ok text
    | none => return .error (.inputUnreadable stream .notText)
  catch error => return .error (.inputUnreadable stream (systemFault error))

/-- Reads all of a stream of the system. -/
def readSystem (stream : Stream) : IO (Except CommandError String) :=
  match stream with
  | .standard => do
      let input ← IO.getStdin
      readSystemText stream input.readBinToEnd
  | .file path => do
      try
        let handle ← IO.FS.Handle.mk path .read
        readSystemText stream handle.readBinToEnd
      catch error => return .error (inputError path (systemFault error))

/-- Writes a text to an open stream. -/
def writeSystemText (write : IO Unit) : IO (Except CommandError Unit) := do
  try write; return .ok ()
  catch error => return .error (.outputUnwritten (systemFault error))

/-- Writes a stream of the system. -/
def writeSystem (stream : Stream) (text : String) : IO (Except CommandError Unit) :=
  match stream with
  | .standard => do
      let output ← IO.getStdout
      writeSystemText (do output.putStr text; output.flush)
  | .file path => do
      try
        let handle ← IO.FS.Handle.mk path .write
        writeSystemText (do handle.putStr text; handle.flush)
      catch error => return .error (.outputUnopened path (systemFault error))

/-- The line that shows a diagnostic. -/
def diagnosticLine (entry : Severity × Diagnostic) : String :=
  let word := match entry.1 with
    | .warning => "warning"
    | .error => "error"
  s!"{word}[{entry.2.code.text}] at {entry.2.span.text}: {entry.2.message}"

/-- The shell over the system. -/
def systemShell : Shell IO where
  read := readSystem
  write := writeSystem
  report diagnostics := diagnostics.forM fun entry => IO.eprintln (diagnosticLine entry)

end BufferPromotion

/-- Runs the command with the arguments of the process. -/
def main (arguments : List String) : IO UInt32 := do
  let exit ← BufferPromotion.runCommand arguments BufferPromotion.systemShell
  match exit.message with
  | none => pure ()
  | some message => IO.eprintln message
  return exit.status
