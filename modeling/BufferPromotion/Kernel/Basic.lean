import BufferPromotion.Kernel.Operation

/-! # Kernels

A kernel has parameters and a schedule of operations. Its nodes are numbered in the order of
their creation; the schedule says which of them run, and in which order. Names are only for
display: they never identify a value.
-/

set_option autoImplicit false

namespace BufferPromotion

/-- A parameter of a kernel. -/
structure Parameter where
  id : ValueId
  name : String
  /-- The type, `none` if it is unknown. -/
  type : Option ValueType
  /-- Whether the parameter is an immutable filter, which is never promoted. -/
  isFilter : Bool
  deriving DecidableEq, Repr, Inhabited

/-- A kernel: its parameters and its operations in program order. -/
structure Kernel where
  name : String
  params : List Parameter
  /-- All parameters and operations; the id of a node is its position. -/
  nodes : Array Node
  /-- The ids of the operations in program order. -/
  schedule : List ValueId
  /-- The names given to values for display. -/
  names : ValueMap String
  deriving DecidableEq

namespace Kernel

/-- The number of parameters and operations. -/
def size (kernel : Kernel) : Nat := kernel.nodes.size

/-- Whether a kernel has neither parameters nor operations. -/
def isEmpty (kernel : Kernel) : Bool := kernel.nodes.isEmpty

/-- The node with an id, together with the id. -/
def operation? (kernel : Kernel) (id : ValueId) : Option Operation :=
  kernel.nodes[id]?.map fun node => ⟨node, id⟩

/-- The scheduled operations in program order. -/
def operations (kernel : Kernel) : List Operation := kernel.schedule.filterMap kernel.operation?

/-- The parameter with an id. -/
def param? (kernel : Kernel) (id : ValueId) : Option Parameter :=
  kernel.params.find? (·.id == id)

/-- The name given to a value for display, if there is one. -/
def givenName? (kernel : Kernel) (id : ValueId) : Option String := kernel.names[id]?

/-- How a value is shown: by its name, or by its id if it has none. -/
def shownName (kernel : Kernel) (id : ValueId) : String :=
  match kernel.givenName? id with
  | some name => s!"%{name}"
  | none => valueIdText id

end Kernel

end BufferPromotion
