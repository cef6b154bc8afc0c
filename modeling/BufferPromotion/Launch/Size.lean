/-! # Sizes

Blocks, filters and tiles have a width and a height of 32 bits each.
-/

set_option autoImplicit false

namespace BufferPromotion

/-- A width and a height. -/
structure Size where
  x : UInt32
  y : UInt32
  deriving DecidableEq, Repr, Inhabited

namespace Size

/-- Whether one of the two dimensions is zero. -/
def hasZero (size : Size) : Bool := size.x == 0 || size.y == 0

/-- A size as width and height around an `x`. -/
def text (size : Size) : String := s!"{size.x}x{size.y}"

end Size

/-- The sum of two numbers if it fits into 32 bits. -/
def checkedAdd (a b : UInt32) : Option UInt32 :=
  if a.toNat + b.toNat < UInt32.size then some (a + b) else none

/-- The product of two numbers if it fits into 32 bits. -/
def checkedMul (a b : UInt32) : Option UInt32 :=
  if a.toNat * b.toNat < UInt32.size then some (a * b) else none

end BufferPromotion
