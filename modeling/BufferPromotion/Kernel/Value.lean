import Std.Data.ExtTreeMap
import Std.Data.ExtTreeSet

/-! # Values of a kernel

Parameters and operations are the values of a kernel. A value is identified by the number of
values created before it, so ids are never reused and their order is the order of creation.
Tables over values are finite maps and sets ordered by id; two of them are equal as soon as
they agree at every id.
-/

set_option autoImplicit false

namespace BufferPromotion

/-- The id of a value: how many values of its kernel were created before it. -/
abbrev ValueId := Nat

/-- A table over values, listed in the order of their ids. -/
abbrev ValueMap (α : Type) := Std.ExtTreeMap ValueId α compare

/-- A set of values, listed in the order of their ids. -/
abbrev ValueSet := Std.ExtTreeSet ValueId compare

/-- How an unnamed value is shown. -/
def valueIdText (id : ValueId) : String := s!"%{id}"

end BufferPromotion
