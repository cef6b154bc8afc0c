import BufferPromotion.Kernel.Basic

/-! # Chains of projections

A value that is projected out of another one leads back, base by base, to where it comes
from. The chain of a value lists the nodes on this way. In a valid kernel every base is
defined before it is used, so the chain ends; the number of nodes bounds its length in any
kernel. Three questions are answered from the chain: which parameter a value comes from,
which buffer a pointer points into, and by which fields a value is reached.
-/

set_option autoImplicit false

namespace BufferPromotion

namespace Kernel

/-- The nodes on the way back from a value, at most `fuel` of them. -/
def chainWithin (kernel : Kernel) : Nat → ValueId → List Operation
  | 0, _ => []
  | fuel + 1, id =>
      match kernel.operation? id with
      | none => []
      | some op =>
          match op.base with
          | none => [op]
          | some base => op :: kernel.chainWithin fuel base

/-- The nodes on the way back from a value, the value's own node first. A way that visits
every node of the kernel and still goes on runs in a circle, so it needs no more steps. -/
def chain (kernel : Kernel) (id : ValueId) : List Operation := kernel.chainWithin kernel.size id

/-- The parameter that a value is projected out of. -/
def rootParam (kernel : Kernel) (id : ValueId) : Option Parameter := do
  let op ← (kernel.chain id).find? (·.kind == .param)
  kernel.param? op.id

/-- The value that starts the buffer a pointer points into: a pointer parameter, or a
pointer extracted from a struct. -/
def bufferStart (kernel : Kernel) (id : ValueId) : Option ValueId := do
  let op ← (kernel.chain id).find? (!·.kind.isDerivation)
  match op.kind with
  | .param | .extract _ => if op.givesPointer then some op.id else none
  | _ => none

/-- The name of the parameter at the end of a chain, followed by the fields on the way back
to the front; `none` if the chain has any other node. -/
def pathOf (kernel : Kernel) : List Operation → Option (List String)
  | [] => none
  | op :: rest =>
      match op.kind with
      | .param => (kernel.param? op.id).map fun param => [param.name]
      | .extract field => (kernel.pathOf rest).map (· ++ [field])
      | _ => none

/-- The name of a parameter and the fields extracted from it to reach a value: `img`, `data`
for the field `data` of the parameter `img`. -/
def memberPath (kernel : Kernel) (id : ValueId) : Option (List String) :=
  kernel.pathOf (kernel.chain id)

/-- The bases that a pointer is derived from by reinterpretations and address computations,
the nearest first. The last of them need not exist. -/
def derivationBases (kernel : Kernel) (id : ValueId) : List ValueId :=
  ((kernel.chain id).takeWhile (·.kind.isDerivation)).filterMap (·.base)

/-- The name of a value in generated code: that of a parameter, or `v` and the id. -/
def varName (kernel : Kernel) (id : ValueId) : String :=
  match kernel.param? id with
  | some param => param.name
  | none => s!"v{id}"

/-- The name of a buffer inside generated names: its field path joined by `_`. -/
def bufferStem (kernel : Kernel) (buffer : ValueId) : String :=
  match kernel.memberPath buffer with
  | some path => String.intercalate "_" path
  | none => kernel.varName buffer

end Kernel

end BufferPromotion
