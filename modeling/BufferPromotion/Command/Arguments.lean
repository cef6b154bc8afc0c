import BufferPromotion.Command.Help
import BufferPromotion.Command.UsageError
import BufferPromotion.Text.Blank

/-! # Command-line arguments

The command takes options and at most one input path. An option is written as `--name VALUE`,
`--name=VALUE`, `-n VALUE` or `-nVALUE`; flags take no value, and several short flags can
share one `-`. After `--` every argument is a path. A single `-` is a path as well, and
stands for the standard streams.

Arguments are read from the left. A value that is an argument of its own is only looked at
once the next option or path begins, or at the end. So an argument that does not exist is
reported before a wrong value right in front of it. The flags that ask for help or for the
version end the reading: what stands in front of them is checked, what follows is not.
-/

set_option autoImplicit false

namespace BufferPromotion

/-! ## Values of options -/

/-- A place to read from or write to. -/
inductive Stream where
  /-- The standard input or output. -/
  | standard
  | file (path : String)
  deriving DecidableEq, Repr

namespace Stream

/-- The place that an argument names. -/
def ofArgument (argument : String) : Stream := if argument = "-" then standard else file argument

end Stream

/-- Reads one dimension; blanks around it do not matter. -/
def readDimension (text : List Char) : Except DimensionsError UInt32 :=
  match readNumeral (trimBlanks text) with
  | .ok number => .ok number
  | .error error => .error (.invalid (String.ofList text) error)

/-- Reads two dimensions with a comma between them. -/
def readDimensions (text : String) : Except DimensionsError Size := do
  let chars := text.toList
  match chars.dropWhile (· != ',') with
  | [] => throw (.noComma text)
  | _ :: rest =>
      let x ← readDimension (chars.takeWhile (· != ','))
      let y ← readDimension rest
      pure ⟨x, y⟩

/-! ## Arguments -/

/-- The arguments of the command; what is absent was not given. -/
structure Arguments where
  input : Option Stream
  emit : Option OutputKind
  target : Option Target
  block : Option Size
  filter : Option Size
  output : Option Stream
  zeroFill : Bool
  verbose : Bool
  deriving DecidableEq, Repr

namespace Arguments

/-- No arguments. -/
def none : Arguments := ⟨.none, .none, .none, .none, .none, .none, false, false⟩

/-- Whether an option was given. -/
def isGiven (arguments : Arguments) : ValueOption → Bool
  | .emit => arguments.emit.isSome
  | .target => arguments.target.isSome
  | .block => arguments.block.isSome
  | .filter => arguments.filter.isSome
  | .output => arguments.output.isSome

/-- Reads one of a list of choices. -/
def readChoice {α : Type} (option : ValueOption) (choices : List (String × α)) (value : String) :
    Except UsageError α :=
  match choices.lookup value with
  | some choice => .ok choice
  | .none =>
      if value.isEmpty then .error (.missingValue option) else .error (.invalidChoice option value)

/-- Reads a size. -/
def readSize (option : ValueOption) (value : String) : Except UsageError Size :=
  (readDimensions value).mapError (.invalidDimensions option value)

/-- Sets an option to the value that a text gives. -/
def setValue (arguments : Arguments) (option : ValueOption) (value : String) :
    Except UsageError Arguments :=
  match option with
  | .emit => do
      let emit ← readChoice option formatChoices value
      pure { arguments with emit := some emit }
  | .target => do
      let target ← readChoice option targetChoices value
      pure { arguments with target := some target }
  | .block => do
      let block ← readSize option value
      pure { arguments with block := some block }
  | .filter => do
      let filter ← readSize option value
      pure { arguments with filter := some filter }
  | .output => .ok { arguments with output := some (Stream.ofArgument value) }

/-- Sets an option that may lack its value or may have been given before. -/
def setOption (arguments : Arguments) (option : ValueOption) (value : Option String) :
    Except UsageError Arguments :=
  match value with
  | .none => .error (.missingValue option)
  | some value =>
      if arguments.isGiven option then .error (.repeated option.usage)
      else arguments.setValue option value

end Arguments

/-! ## Reading arguments -/

/-- Why arguments are not read to their end. -/
inductive EarlyEnd where
  /-- They are rejected. -/
  | misuse (error : UsageError)
  /-- They ask about the command. -/
  | question (information : Information)
  deriving DecidableEq, Repr

/-- Sets a flag. A flag that asks about the command leaves nothing to set. -/
def Arguments.setFlag (arguments : Arguments) (flag : Flag) : Except EarlyEnd Arguments :=
  match flag with
  | .zeroFill =>
      if arguments.zeroFill then .error (.misuse (.repeated flag.usage))
      else .ok { arguments with zeroFill := true }
  | .verbose =>
      if arguments.verbose then .error (.misuse (.repeated flag.usage))
      else .ok { arguments with verbose := true }
  | .help => .error (.question .help)
  | .version => .error (.question .version)

/-- An option whose value is an argument of its own, and the value once it was met. -/
structure PendingOption where
  option : ValueOption
  value : Option String
  deriving DecidableEq, Repr

/-- The arguments read so far. -/
structure ArgumentReader where
  arguments : Arguments
  pending : Option PendingOption
  /-- Whether `--` was met, after which there are only paths. -/
  onlyPaths : Bool
  deriving DecidableEq, Repr

namespace ArgumentReader

/-- Nothing read. -/
def start : ArgumentReader := ⟨.none, none, false⟩

/-- Sets the option that is pending. -/
def settle (reader : ArgumentReader) : Except EarlyEnd ArgumentReader :=
  match reader.pending with
  | none => .ok reader
  | some pending => do
      let arguments ←
        (reader.arguments.setOption pending.option pending.value).mapError .misuse
      pure { reader with arguments := arguments, pending := none }

/-- Takes an argument as the input path. -/
def readPath (reader : ArgumentReader) (argument : String) : Except EarlyEnd ArgumentReader := do
  if reader.arguments.input.isSome then throw (.misuse (.unexpectedArgument argument))
  let reader ← reader.settle
  let arguments := { reader.arguments with input := some (Stream.ofArgument argument) }
  pure { reader with arguments := arguments }

/-- Takes an argument that is no option: the value that an option waits for, or a path. -/
def readPlain (reader : ArgumentReader) (argument : String) : Except EarlyEnd ArgumentReader :=
  match reader.pending with
  | some ⟨option, none⟩ => .ok { reader with pending := some ⟨option, some argument⟩ }
  | _ => reader.readPath argument

/-- Takes an option. A value attached to it is set at once. -/
def readOption (reader : ArgumentReader) (option : ValueOption) (attached : Option String) :
    Except EarlyEnd ArgumentReader := do
  let reader ← reader.settle
  match attached with
  | none => pure { reader with pending := some ⟨option, none⟩ }
  | some value =>
      let arguments ← (reader.arguments.setOption option (some value)).mapError .misuse
      pure { reader with arguments := arguments }

/-- Takes a flag. -/
def readFlag (reader : ArgumentReader) (flag : Flag) : Except EarlyEnd ArgumentReader := do
  let reader ← reader.settle
  let arguments ← reader.arguments.setFlag flag
  pure { reader with arguments := arguments }

/-- The value after the first `=` of a text. -/
def attachedValue (text : List Char) : Option String :=
  match text.dropWhile (· != '=') with
  | [] => none
  | _ :: value => some (String.ofList value)

/-- Takes a long option or flag, given without its `--`. -/
def readLong (reader : ArgumentReader) (text : List Char) : Except EarlyEnd ArgumentReader :=
  let name := String.ofList (text.takeWhile (· != '='))
  let attached := attachedValue text
  let option := ValueOption.all.find? (·.longName == name)
  let flag := Flag.all.find? (·.longName == name)
  match option, flag with
  | some option, _ => reader.readOption option attached
  | none, some flag =>
      match attached with
      | none => reader.readFlag flag
      | some value => .error (.misuse (.unexpectedValue flag value))
  | none, none => .error (.misuse (.unexpectedArgument ("--" ++ name)))

/-- The value attached to a short option, with or without a `=` before it. -/
def shortValue : List Char → Option String
  | [] => none
  | '=' :: value => some (String.ofList value)
  | value => some (String.ofList value)

/-- Takes short flags and options, given without their `-`. An option takes the rest as its
value. -/
def readShort (reader : ArgumentReader) : List Char → Except EarlyEnd ArgumentReader
  | [] => .ok reader
  | c :: rest =>
      let option := ValueOption.all.find? (·.shortName == some c)
      let flag := Flag.all.find? (·.shortName == some c)
      match option, flag with
      | some option, _ => reader.readOption option (shortValue rest)
      | none, some flag => do
          let reader ← reader.readFlag flag
          reader.readShort rest
      | none, none => .error (.misuse (.unexpectedArgument ("-" ++ String.singleton c)))

/-- Takes one argument. -/
def read (reader : ArgumentReader) (argument : String) : Except EarlyEnd ArgumentReader :=
  if reader.onlyPaths then reader.readPath argument
  else match argument.toList with
    | ['-', '-'] => .ok { reader with onlyPaths := true }
    | '-' :: '-' :: long => reader.readLong long
    | '-' :: c :: short => reader.readShort (c :: short)
    | _ => reader.readPlain argument

end ArgumentReader

/-- Reads the arguments of the command. -/
def readArguments (arguments : List String) : Except EarlyEnd Arguments := do
  let reader ← arguments.foldlM ArgumentReader.read ArgumentReader.start
  let settled ← reader.settle
  pure settled.arguments

namespace Arguments

/-- Where the listing is read from. -/
def inputStream (arguments : Arguments) : Stream := arguments.input.getD .standard

/-- Where the output is written to. -/
def outputStream (arguments : Arguments) : Stream := arguments.output.getD .standard

/-- The options that the arguments ask for; what is absent is as in the standard options. -/
def options (arguments : Arguments) : Options :=
  let standard := Options.standard
  let launch := standard.settings.launch
  ⟨arguments.emit.getD standard.format,
   ⟨arguments.target.getD standard.settings.target,
    ⟨arguments.block.getD launch.block, arguments.filter.getD launch.filter⟩,
    if arguments.zeroFill then .zero else .leave⟩,
   standard.upgraded⟩

end Arguments

end BufferPromotion
