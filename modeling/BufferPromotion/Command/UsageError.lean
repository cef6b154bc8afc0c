import BufferPromotion.Command.Option
import BufferPromotion.Text.Control
import BufferPromotion.Text.Numeral

/-! # Errors in the arguments

What can be wrong with the arguments of the command, and how it is told. A message quotes
what the user wrote, in colour, and closes with a hint that stands below it. The message of
an error is what its first line shows without colours. The quoted text may bring control
sequences of its own; the end of its colour also ends what it left open.
-/

set_option autoImplicit false

namespace BufferPromotion

/-- Why a text does not give two dimensions. -/
inductive DimensionsError where
  | noComma (text : String)
  | invalid (dimension : String) (error : NumeralError)
  deriving DecidableEq, Repr

namespace DimensionsError

/-- The wording shown to the user. -/
def message : DimensionsError → String
  | noComma text => "expected two comma separated numbers, found `" ++ text ++ "`"
  | invalid dimension error => "invalid dimension `" ++ dimension ++ "`: " ++ error.message

end DimensionsError

/-- Why the arguments are rejected. -/
inductive UsageError where
  /-- There is no such option, or it is a second path. -/
  | unexpectedArgument (argument : String)
  /-- An option is given without its value. -/
  | missingValue (option : ValueOption)
  /-- An option or flag is given more than once. -/
  | repeated (usage : String)
  /-- The value of an option is none of its choices. -/
  | invalidChoice (option : ValueOption) (value : String)
  /-- The value of an option is not a size. -/
  | invalidDimensions (option : ValueOption) (value : String) (error : DimensionsError)
  /-- A flag is given with a value. -/
  | unexpectedValue (flag : Flag) (value : String)
  deriving DecidableEq, Repr

/-- The first line of a text. A line feed ends it; a carriage return right before the line feed
is not part of the line, while any other is. -/
def firstLine : List Char → List Char
  | [] => []
  | '\n' :: _ => []
  | '\r' :: '\n' :: _ => []
  | c :: rest => c :: firstLine rest

/-- A text between quotes, and in colour. -/
def quotedInColour (text : String) : String := s!"'\x1b[33m{text}\x1b[0m'"

namespace UsageError

/-- The wording of an error. -/
def wording : UsageError → String
  | unexpectedArgument argument => s!"unexpected argument {quotedInColour argument} found"
  | missingValue option =>
      s!"a value is required for {quotedInColour option.usage} but none was supplied"
  | repeated usage =>
      s!"the argument {quotedInColour usage} cannot be used multiple times"
  | invalidChoice option value =>
      s!"invalid value {quotedInColour value} for {quotedInColour option.usage}"
  | invalidDimensions option value error =>
      s!"invalid value {quotedInColour value} for {quotedInColour option.usage}: {error.message}"
  | unexpectedValue flag value =>
      s!"unexpected value {quotedInColour value} for {quotedInColour flag.usage} found; "
        ++ "no more were expected"

/-- The hint below an error. -/
def hint : String := s!"\n\nFor more information, try {quotedInColour Flag.help.usage}.\n"

/-- The line shown to the user. -/
def message (error : UsageError) : String :=
  String.ofList (firstLine (shownText ("error: " ++ error.wording ++ hint).toList))

end UsageError

end BufferPromotion
