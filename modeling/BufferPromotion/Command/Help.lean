import BufferPromotion.Command.Option

/-! # What the command tells about itself

The help lists the arguments of the command with one line each, in two columns. The second
column begins two blanks after the longest entry of the first.
-/

set_option autoImplicit false

namespace BufferPromotion

/-- Something that the command tells about itself. -/
inductive Information where
  | help
  | version
  deriving DecidableEq, Repr

/-- The name of the command. -/
def commandName : String := "promote"

/-- The version of the command. -/
def commandVersion : String := "0.1.0"

/-- An entry of the help. -/
structure HelpEntry where
  /-- How the argument is written. -/
  form : String
  /-- What the argument is for. -/
  summary : String
  deriving DecidableEq, Repr

namespace HelpEntry

/-- The line for an entry in a list whose first column has the given width. -/
def line (entry : HelpEntry) (width : Nat) : String :=
  s!"  {entry.form}" ++ String.ofList (List.replicate (width - entry.form.length) ' ')
    ++ s!"  {entry.summary}\n"

/-- The lines for some entries. -/
def lines (entries : List HelpEntry) : String :=
  let width := (entries.map (·.form.length)).foldl max 0
  String.join (entries.map (·.line width))

/-- The form of an option with its short name in front. -/
def optionForm (shortName : Option Char) (usage : String) : String :=
  match shortName with
  | none => s!"    {usage}"
  | some c => s!"-{c}, {usage}"

/-- The words that can be chosen from. -/
def choices {α : Type} (words : List (String × α)) : String :=
  "[possible values: " ++ ", ".intercalate (words.map (·.1)) ++ "]"

/-- The entry of an option with a value. -/
def ofValueOption (option : ValueOption) : HelpEntry where
  form := optionForm option.shortName option.usage
  summary :=
    match option with
    | .target => s!"The execution backend. Defaults to accelerator {choices targetChoices}"
    | .emit => s!"The output format. Defaults to summary {choices formatChoices}"
    | .block => "Block size for kernels without a `block` directive"
    | .filter => "Filter size for kernels without a `filter` directive"
    | .output => "The output file, use `-` for std out [default: -]"

/-- The entry of a flag. -/
def ofFlag (flag : Flag) : HelpEntry where
  form := optionForm flag.shortName flag.usage
  summary :=
    match flag with
    | .zeroFill => "Write zero to tile cells outside the image instead of leaving them unwritten"
    | .verbose => "Log the analysis of every kernel"
    | .help => "Print help"
    | .version => "Print version"

/-- The entry of the input path. -/
def input : HelpEntry := ⟨"[INPUT_PATH]", "The input listing, use `-` for std in [default: -]"⟩

/-- The entries of all options. -/
def options : List HelpEntry :=
  [ofValueOption .target, ofValueOption .emit, ofValueOption .block, ofValueOption .filter,
   ofFlag .zeroFill, ofFlag .verbose, ofValueOption .output, ofFlag .help, ofFlag .version]

end HelpEntry

namespace Information

/-- The text that is printed. -/
def text : Information → String
  | help =>
      s!"Usage: {commandName} [OPTIONS] [INPUT_PATH]\n\n"
        ++ "Arguments:\n" ++ HelpEntry.lines [HelpEntry.input]
        ++ "\nOptions:\n" ++ HelpEntry.lines HelpEntry.options
  | version => s!"{commandName} {commandVersion}\n"

end Information

end BufferPromotion
