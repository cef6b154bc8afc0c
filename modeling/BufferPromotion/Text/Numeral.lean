/-! # Decimal numerals of 32 bits

Sizes and strides are written in decimal and have to fit into 32 bits. A numeral is read
from the left, so of two faults the one that shows first is reported: a character that is
no digit, or a digit that makes the number too large.
-/

set_option autoImplicit false

namespace BufferPromotion

/-- Why a text is not a decimal numeral of 32 bits. -/
inductive NumeralError where
  | empty
  | invalidDigit
  | tooLarge
  deriving DecidableEq, Repr

namespace NumeralError

/-- The wording shown to the user. -/
def message : NumeralError → String
  | empty => "cannot parse integer from empty string"
  | invalidDigit => "invalid digit found in string"
  | tooLarge => "number too large to fit in target type"

end NumeralError

/-- Reads the digits that follow a number already read. -/
def readDigits (number : Nat) : List Char → Except NumeralError Nat
  | [] => .ok number
  | c :: rest =>
      if c.isDigit then
        let next := number * 10 + (c.toNat - '0'.toNat)
        if next < UInt32.size then readDigits next rest else .error .tooLarge
      else .error .invalidDigit

/-- Reads a decimal numeral. One leading `+` is allowed if a digit follows it. -/
def readNumeral (text : List Char) : Except NumeralError UInt32 :=
  match text with
  | [] => .error .empty
  | ['+'] => .error .invalidDigit
  | '+' :: digits => UInt32.ofNat <$> readDigits 0 digits
  | digits => UInt32.ofNat <$> readDigits 0 digits

end BufferPromotion
