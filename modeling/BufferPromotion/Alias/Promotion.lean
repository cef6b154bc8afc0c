import BufferPromotion.Alias.References

/-! # Promoted and blacklisted pointers

A tracked pointer is promoted if it is read from and never written to, anywhere in the
kernel. A pointer that is written to is blacklisted. The two sets are disjoint: blacklisting
a pointer takes it out of the promoted ones, and a blacklisted pointer cannot be promoted.
All stores are looked at before the first load, so the order of the operations does not
matter.
-/

set_option autoImplicit false

namespace BufferPromotion

/-- The pointers that may be read through a tile, and those that never may. -/
structure Promotion where
  promoted : ValueSet
  blacklisted : ValueSet
  deriving DecidableEq

namespace Promotion

/-- Nothing is promoted and nothing is blacklisted. -/
def empty : Promotion := ⟨∅, ∅⟩

/-- Whether a pointer is promoted. -/
def hasPromoted (promotion : Promotion) (id : ValueId) : Bool := promotion.promoted.contains id

/-- Whether a pointer is blacklisted. -/
def hasBlacklisted (promotion : Promotion) (id : ValueId) : Bool :=
  promotion.blacklisted.contains id

/-- Promotes a pointer, unless it is blacklisted. -/
def allow (promotion : Promotion) (id : ValueId) : Promotion :=
  if promotion.hasBlacklisted id then promotion
  else { promotion with promoted := promotion.promoted.insert id }

/-- Blacklists a pointer. -/
def bar (promotion : Promotion) (id : ValueId) : Promotion :=
  ⟨promotion.promoted.erase id, promotion.blacklisted.insert id⟩

/-- Blacklists the pointer that an operation writes through, if it is a store. -/
def noteStore (promotion : Promotion) (op : Operation) : Promotion :=
  match op.kind, op.accessed with
  | .store, some pointer => promotion.bar pointer
  | _, _ => promotion

/-- Promotes the pointer that an operation reads through, if it is a load and the pointer is
tracked. -/
def noteLoad (aliases : AliasSet) (promotion : Promotion) (op : Operation) : Promotion :=
  match op.kind, op.accessed with
  | .load, some pointer =>
      if aliases.hasPointer pointer then promotion.allow pointer else promotion
  | _, _ => promotion

/-- The promotion that some operations lead to: all stores count first, then all loads. -/
def ofOperations (aliases : AliasSet) (ops : List Operation) : Promotion :=
  ops.foldl (noteLoad aliases) (ops.foldl noteStore empty)

end Promotion

end BufferPromotion
