import BufferPromotion.Compile.Options

/-! # The options of the command

Some options take a value and some do not. All have a long name and some a short one. The
values of the options for the format and the target are chosen from a list of words.
-/

set_option autoImplicit false

namespace BufferPromotion

/-! ## Options with a value -/

/-- An option that takes a value. -/
inductive ValueOption where
  | target
  | emit
  | block
  | filter
  | output
  deriving DecidableEq, Repr

namespace ValueOption

/-- All options that take a value. -/
def all : List ValueOption := [target, emit, block, filter, output]

/-- The long name of an option. -/
def longName : ValueOption → String
  | target => "target"
  | emit => "emit"
  | block => "block"
  | filter => "filter"
  | output => "output"

/-- The short name of an option. -/
def shortName : ValueOption → Option Char
  | target => some 't'
  | emit => some 'e'
  | output => some 'o'
  | block | filter => none

/-- The word for an option's value. -/
def placeholder : ValueOption → String
  | target => "TARGET"
  | emit => "FORMAT"
  | block => "BX,BY"
  | filter => "FW,FH"
  | output => "OUTPUT_PATH"

/-- How an option is shown. -/
def usage (option : ValueOption) : String := s!"--{option.longName} <{option.placeholder}>"

end ValueOption

/-! ## Options without a value -/

/-- An option without a value. -/
inductive Flag where
  | zeroFill
  | verbose
  | help
  | version
  deriving DecidableEq, Repr

namespace Flag

/-- All flags. -/
def all : List Flag := [zeroFill, verbose, help, version]

/-- The long name of a flag. -/
def longName : Flag → String
  | zeroFill => "zero-fill-halo"
  | verbose => "verbose"
  | help => "help"
  | version => "version"

/-- The short name of a flag. -/
def shortName : Flag → Option Char
  | zeroFill => none
  | verbose => some 'v'
  | help => some 'h'
  | version => some 'V'

/-- How a flag is shown. -/
def usage (flag : Flag) : String := s!"--{flag.longName}"

end Flag

/-! ## Words for values -/

/-- The formats by their names on the command line. -/
def formatChoices : List (String × OutputKind) :=
  [("summary", .summary), ("listing", .listing), ("kernel", .kernel), ("alias-dot", .aliasGraph),
   ("rust-dbg", .dump)]

/-- The targets by their names on the command line. -/
def targetChoices : List (String × Target) := [("accelerator", .accelerator), ("host", .host)]

end BufferPromotion
