import BufferPromotion.Alias.Promotion

/-! # Analysis of a kernel

The analysis of a kernel is the set of values that alias its parameters and the decision
which of the pointers among them are promoted. It depends on nothing but the kernel. The
promoted pointers are grouped by the buffer they point into, since a block keeps one tile
for each promoted buffer.
-/

set_option autoImplicit false

namespace BufferPromotion

/-- The promoted pointers into one buffer. -/
structure PointerGroup where
  /-- The parameter that the buffer belongs to. -/
  root : ValueId
  /-- The pointer parameter or extracted pointer that starts the buffer. -/
  buffer : ValueId
  /-- The promoted pointers in the order of their ids; there is at least one. -/
  pointers : List ValueId
  deriving DecidableEq, Repr

namespace PointerGroup

/-- Whether a place comes before a buffer: first by the parameter, then by the buffer. -/
def isAfter (group : PointerGroup) (source : PointerSource) : Bool :=
  source.root < group.root || (source.root == group.root && source.buffer < group.buffer)

/-- Adds a pointer to the group of its buffer. Groups stay ordered by parameter and buffer;
if the buffer has no group yet, a new one takes its place in this order. -/
def insert (source : PointerSource) (pointer : ValueId) :
    List PointerGroup → List PointerGroup
  | [] => [⟨source.root, source.buffer, [pointer]⟩]
  | group :: rest =>
      if group.root = source.root ∧ group.buffer = source.buffer then
        { group with pointers := group.pointers ++ [pointer] } :: rest
      else if group.isAfter source then
        ⟨source.root, source.buffer, [pointer]⟩ :: group :: rest
      else group :: insert source pointer rest

end PointerGroup

/-- What is known about a kernel after its analysis. -/
structure Analysis where
  aliases : AliasSet
  promotion : Promotion
  deriving DecidableEq

namespace Analysis

/-- The group of a promoted pointer gets the pointer, if the pointer is tracked. -/
def group (aliases : AliasSet) (groups : List PointerGroup) (pointer : ValueId) :
    List PointerGroup :=
  match aliases.pointers[pointer]? with
  | some source => PointerGroup.insert source pointer groups
  | none => groups

/-- The promoted pointers by buffer, ordered by parameter and then by buffer. -/
def pointerGroups (analysis : Analysis) : List PointerGroup :=
  analysis.promotion.promoted.toList.foldl (group analysis.aliases) []

/-- The analysis of a kernel. -/
def ofKernel (kernel : Kernel) : Analysis :=
  let aliases := AliasSet.ofKernel kernel
  ⟨aliases, Promotion.ofOperations aliases kernel.operations⟩

end Analysis

end BufferPromotion
