import BufferPromotion.Kernel.Basic

/-! # Printing kernels as listings

A kernel is printed as the line that opens it, one line for each parameter, and one line for
each operation of the schedule. The launch configuration and the buffers are not part of a
kernel, so they are not printed.
-/

set_option autoImplicit false

namespace BufferPromotion

namespace Kernel

/-- The line of a parameter. -/
def paramLine (kernel : Kernel) (param : Parameter) : String :=
  let mark := if param.isFilter then "filter " else ""
  "param " ++ kernel.shownName param.id ++ " : " ++ mark ++ param.type.elim "?" ValueType.text

/-- The name that a line gives to the result of an operation, if there is a result. -/
def resultText (kernel : Kernel) (op : Operation) : String :=
  if op.type.isSome then kernel.shownName op.id ++ " = " else ""

/-- The operands of an operation, with commas between them. -/
def operandsText (kernel : Kernel) (op : Operation) : String :=
  if op.operands.isEmpty then ""
  else " " ++ String.intercalate ", " (op.operands.map kernel.shownName)

/-- The field of an extraction. -/
def fieldText (op : Operation) : String :=
  match op.kind with
  | .extract field => ", " ++ field
  | _ => ""

/-- The type of a result. -/
def typeText (op : Operation) : String := op.type.elim "" fun type => " : " ++ type.text

/-- The line of an operation. -/
def operationLine (kernel : Kernel) (op : Operation) : String :=
  kernel.resultText op ++ op.kind.keyword ++ kernel.operandsText op ++ fieldText op ++ typeText op

/-- The lines of a kernel. -/
def listingLines (kernel : Kernel) : List String :=
  ["kernel " ++ kernel.name] ++ kernel.params.map kernel.paramLine ++
    kernel.operations.map kernel.operationLine

/-- A kernel as a listing. -/
def listing (kernel : Kernel) : String :=
  String.join (kernel.listingLines.map fun line => line ++ "\n")

end Kernel

end BufferPromotion
