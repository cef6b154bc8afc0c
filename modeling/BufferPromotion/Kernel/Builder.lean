import BufferPromotion.Kernel.Basic

/-! # Building kernels

A kernel is built one value at a time, in program order. A new value gets the number of the
values so far as its id. Nothing that was built before changes.
-/

set_option autoImplicit false

namespace BufferPromotion

namespace Kernel

/-- The kernel with a name and no values. -/
def empty (name : String) : Kernel := ⟨name, [], #[], [], ∅⟩

/-- The id that the next value gets. -/
def nextId (kernel : Kernel) : ValueId := kernel.size

/-- Gives a value a name for display. -/
def withName (kernel : Kernel) (id : ValueId) (name : String) : Kernel :=
  { kernel with names := kernel.names.insert id name }

/-- Adds a parameter. -/
def addParameter (kernel : Kernel) (name : String) (type : Option ValueType) (isFilter : Bool) :
    Kernel :=
  { kernel with
    nodes := kernel.nodes.push ⟨.param, type, []⟩
    params := kernel.params ++ [⟨kernel.nextId, name, type, isFilter⟩]
    names := kernel.names.insert kernel.nextId name }

/-- Adds an operation at the end of the schedule. -/
def append (kernel : Kernel) (node : Node) : Kernel :=
  { kernel with
    nodes := kernel.nodes.push node
    schedule := kernel.schedule ++ [kernel.nextId] }

end Kernel

namespace Node

/-- The extraction of a field. -/
def extractOf (base : ValueId) (field : String) (type : ValueType) : Node :=
  ⟨.extract field, some type, [base]⟩

/-- The reinterpretation of a value as a pointer. -/
def reinterpretOf (source : ValueId) : Node := ⟨.reinterpret, some .pointer, [source]⟩

/-- The address at the given indices. -/
def addressOf (base : ValueId) (indices : List ValueId) : Node :=
  ⟨.address, some .pointer, base :: indices⟩

/-- A read through a pointer. -/
def loadOf (pointer : ValueId) : Node := ⟨.load, some .scalar, [pointer]⟩

/-- A write of a value through a pointer. -/
def storeOf (pointer value : ValueId) : Node := ⟨.store, none, [pointer, value]⟩

/-- Any other operation. -/
def otherOf (name : String) (operands : List ValueId) (type : Option ValueType) : Node :=
  ⟨.other name, type, operands⟩

end Node

end BufferPromotion
