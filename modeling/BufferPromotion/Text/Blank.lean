/-! # Blank characters

A character is blank when it has the Unicode property `White_Space`. The property holds of
twenty-five characters, listed here as ranges of code points. Listings may separate their
tokens with any of them, and numbers on the command line may be surrounded by them.
-/

set_option autoImplicit false

namespace BufferPromotion

/-- The ranges of code points, both ends included, with the property `White_Space`. -/
def blankRanges : List (Nat × Nat) :=
  [(0x09, 0x0D), (0x20, 0x20), (0x85, 0x85), (0xA0, 0xA0), (0x1680, 0x1680),
   (0x2000, 0x200A), (0x2028, 0x2029), (0x202F, 0x202F), (0x205F, 0x205F), (0x3000, 0x3000)]

/-- Whether a character is blank. -/
def isBlank (c : Char) : Bool :=
  blankRanges.any fun range => range.1 ≤ c.toNat && c.toNat ≤ range.2

/-- A text without the blanks at its two ends. -/
def trimBlanks (text : List Char) : List Char :=
  ((text.dropWhile isBlank).reverse.dropWhile isBlank).reverse

end BufferPromotion
