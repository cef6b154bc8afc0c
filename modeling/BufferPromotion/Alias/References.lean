import BufferPromotion.Kernel.Basic

/-! # Values that alias a buffer parameter

A value aliases a parameter if it is the parameter itself or is projected out of it. Struct
values and parameters are *references*; pointer values are *pointers*, and point into a
buffer that starts at a pointer parameter or at a pointer extracted from a struct. Aliasing
only goes through extractions, reinterpretations and address computations, always from the
first operand. It does not go through loads, through other operations, from filters, or from
parameters of unknown type.

The set is seeded with parameters and then follows the operations. It only grows: a value
once tracked keeps its root and its buffer.
-/

set_option autoImplicit false

namespace BufferPromotion

/-- Where a tracked pointer comes from. -/
structure PointerSource where
  /-- The parameter it was derived from. -/
  root : ValueId
  /-- The pointer parameter or extracted pointer that starts its buffer. -/
  buffer : ValueId
  deriving DecidableEq, Repr

/-- The values that alias the buffer parameters of a kernel. -/
structure AliasSet where
  /-- The tracked parameters and struct values, with the parameter they come from. -/
  references : ValueMap ValueId
  /-- The tracked pointers, with the place they come from. -/
  pointers : ValueMap PointerSource
  deriving DecidableEq

namespace AliasSet

/-- The set that tracks nothing. -/
def empty : AliasSet := ⟨∅, ∅⟩

/-- Whether a value is tracked as a reference. -/
def hasReference (set : AliasSet) (id : ValueId) : Bool := set.references.contains id

/-- Whether a value is tracked as a pointer. -/
def hasPointer (set : AliasSet) (id : ValueId) : Bool := set.pointers.contains id

/-- Whether a value is tracked. -/
def tracks (set : AliasSet) (id : ValueId) : Bool := set.hasReference id || set.hasPointer id

/-- The parameter that a tracked value comes from. -/
def paramOf (set : AliasSet) (id : ValueId) : Option ValueId :=
  match set.pointers[id]? with
  | some source => some source.root
  | none => set.references[id]?

/-- The value that starts the buffer of a tracked pointer. Two buffers of one parameter have
the same root and differ here. -/
def bufferStart (set : AliasSet) (id : ValueId) : Option ValueId :=
  set.pointers[id]?.map (·.buffer)

/-- Tracks a value as a reference, unless it is one already. -/
def trackReference (set : AliasSet) (id root : ValueId) : AliasSet :=
  { set with references := set.references.insertIfNew id root }

/-- Tracks a value as a pointer, unless it is one already. -/
def trackPointer (set : AliasSet) (id : ValueId) (source : PointerSource) : AliasSet :=
  { set with pointers := set.pointers.insertIfNew id source }

/-- Tracks a parameter, unless it is a filter or its type is unknown. A pointer parameter
starts a buffer. -/
def seedParam (set : AliasSet) (param : Parameter) : AliasSet :=
  if param.isFilter then set
  else match param.type with
    | none => set
    | some .pointer =>
        (set.trackReference param.id param.id).trackPointer param.id ⟨param.id, param.id⟩
    | some _ => set.trackReference param.id param.id

/-- Tracks parameters one after the other. -/
def seed (set : AliasSet) (params : List Parameter) : AliasSet :=
  params.foldl seedParam set

/-- Tracks the result of an extraction from a reference: a struct is a reference, a pointer
starts a buffer, and anything else is left alone. -/
def followExtract (set : AliasSet) (op : Operation) (base : ValueId) : AliasSet :=
  match set.hasReference base, set.paramOf base with
  | true, some root =>
      if op.givesStruct then set.trackReference op.id root
      else if op.givesPointer then set.trackPointer op.id ⟨root, op.id⟩
      else set
  | _, _ => set

/-- Tracks a pointer derived from a pointer: it stays in the same buffer. -/
def followDerivation (set : AliasSet) (op : Operation) (base : ValueId) : AliasSet :=
  match set.pointers[base]? with
  | some source => set.trackPointer op.id source
  | none => set

/-- Tracks the result of an operation if it aliases a value tracked so far. -/
def follow (set : AliasSet) (op : Operation) : AliasSet :=
  match op.base with
  | none => set
  | some base =>
      match op.kind with
      | .extract _ => set.followExtract op base
      | .reinterpret | .address => set.followDerivation op base
      | _ => set

/-- The values that alias the parameters of a kernel: the set is seeded with its parameters
and follows its operations in program order. -/
def ofKernel (kernel : Kernel) : AliasSet :=
  kernel.operations.foldl follow (empty.seed kernel.params)

end AliasSet

end BufferPromotion
