import BufferPromotion.Kernel.Type
import BufferPromotion.Kernel.Value

/-! # Operations

A node of a kernel is a parameter or an operation: what it does, the type of its result, and
the values it works on. Three kinds of operations project a value out of another one, their
*base*: the extraction of a field, a reinterpretation, and the computation of an address.
The last two stay inside the buffer their base points into; they *derive* a pointer from it.
-/

set_option autoImplicit false

namespace BufferPromotion

/-- What a node does. -/
inductive NodeKind where
  /-- A parameter of the kernel; it has no operands. -/
  | param
  /-- The field of a struct: `[base]`. -/
  | extract (field : String)
  /-- The same bits as a value of another type: `[source]`. -/
  | reinterpret
  /-- The address at one or two indices: `[base, x]` or `[base, x, y]`. -/
  | address
  /-- A read: `[pointer]`. -/
  | load
  /-- A write, which produces no value: `[pointer, value]`. -/
  | store
  /-- An operation that promotion knows nothing about. -/
  | other (name : String)
  deriving DecidableEq, Repr, Inhabited

namespace NodeKind

/-- The word for a kind in a listing. -/
def keyword : NodeKind → String
  | param => "param"
  | extract _ => "extract"
  | reinterpret => "bitcast"
  | address => "lea"
  | load => "load"
  | store => "store"
  | other name => name

/-- The least number of operands. -/
def minOperands : NodeKind → Nat
  | param | other _ => 0
  | extract _ | reinterpret | load => 1
  | address | store => 2

/-- The greatest number of operands, `none` if there is no limit. -/
def maxOperands : NodeKind → Option Nat
  | param => some 0
  | extract _ | reinterpret | load => some 1
  | store => some 2
  | address => some 3
  | other _ => none

/-- Whether a number of operands is allowed for the kind. -/
def accepts (kind : NodeKind) (count : Nat) : Bool :=
  kind.minOperands ≤ count && kind.maxOperands.all (count ≤ ·)

/-- Whether the result is a pointer into the buffer that the first operand points into. -/
def isDerivation : NodeKind → Bool
  | reinterpret | address => true
  | _ => false

/-- Whether the result is projected out of the first operand. -/
def isProjection : NodeKind → Bool
  | extract _ | reinterpret | address => true
  | _ => false

end NodeKind

/-- A parameter or an operation, without its id. -/
structure Node where
  kind : NodeKind
  /-- The type of the result. There is none if there is no result, or if the type of a
  parameter is unknown. -/
  type : Option ValueType
  operands : List ValueId
  deriving DecidableEq, Repr, Inhabited

namespace Node

/-- Whether the result is a pointer. -/
def givesPointer (node : Node) : Bool := node.type.any ValueType.isPointer

/-- Whether the result is a struct. -/
def givesStruct (node : Node) : Bool := node.type.any ValueType.isStruct

/-- The value that a projection starts from. -/
def base (node : Node) : Option ValueId :=
  if node.kind.isProjection then node.operands.head? else none

/-- The pointer that a load or store goes through. -/
def accessed (node : Node) : Option ValueId :=
  match node.kind with
  | .load | .store => node.operands.head?
  | _ => none

/-- The value that a store writes. -/
def storedOperand (node : Node) : Option ValueId :=
  match node.kind with
  | .store => node.operands[1]?
  | _ => none

/-- The indices of an address computation, at most two. -/
def indices (node : Node) : List ValueId :=
  match node.kind with
  | .address => (node.operands.drop 1).take 2
  | _ => []

end Node

/-- A node together with its id in a kernel. -/
structure Operation extends Node where
  id : ValueId
  deriving DecidableEq, Repr, Inhabited

end BufferPromotion
