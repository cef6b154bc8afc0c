import BufferPromotion.Site.Address

/-! # Code of a kernel

A kernel is written as a C-like function: its first line, the code that fills the tiles, and
one line for every operation of the schedule. Sites read tiles or global memory as their context
decides.
-/

set_option autoImplicit false

namespace BufferPromotion

/-- The code of one kernel. -/
structure KernelCode where
  source : String
  tiles : List Tile
  /-- The sites in a promoted buffer that keep their address in global memory, in program order. -/
  unmapped : List ValueId
  deriving DecidableEq, Repr

/-- What the code of a kernel is written from. -/
structure Emission where
  kernel : Kernel
  analysis : Analysis
  geometry : TileGeometry
  buffers : BufferTable
  settings : LaunchSettings

namespace Emission

/-- The tiles of a kernel, one for every promoted buffer. There are none if the target does
not promote. -/
def tiles (emission : Emission) : List Tile :=
  if emission.settings.usesTiles then
    emission.analysis.pointerGroups.map fun group =>
      Tile.ofKey (emission.kernel.bufferStem group.buffer)
        (emission.buffers.image emission.kernel group.buffer)
  else []

/-- The context in which sites find their addresses. -/
def context (emission : Emission) : SiteContext :=
  .ofAnalysis emission.kernel emission.analysis emission.geometry emission.buffers
    emission.settings.usesTiles

/-- The type of a parameter in generated code. -/
def paramCodeType (emission : Emission) (param : Parameter) : String :=
  match param.type with
  | some (.struct name) => name
  | some .pointer => (emission.buffers.image emission.kernel param.id).elem.codeName ++ "*"
  | some .scalar => "int"
  | none => "void*"

/-- The first line of the function, up to its brace. Only an accelerator's kernel is marked
as one. -/
def headerLine (emission : Emission) : String :=
  let params :=
    emission.kernel.params.map fun param => emission.paramCodeType param ++ " " ++ param.name
  let qualifier := if emission.settings.usesTiles then "__global__ " else ""
  qualifier ++ "void " ++ emission.kernel.name ++ "(" ++ String.intercalate ", " params ++ ")"

/-- The variable of an operand, or an empty text where the operand is missing. -/
def operand (emission : Emission) (op : Operation) (position : Nat) : Expr :=
  .var ((op.operands[position]?).elim "" emission.kernel.varName)

/-- The variable of the value that a store writes, or an empty text where it is missing. -/
def stored (emission : Emission) (op : Operation) : Expr :=
  .var (op.storedOperand.elim "" emission.kernel.varName)

/-- The type of the elements in the buffer that a value points into, `f32` if it is not
known to point into one. -/
def elementType (emission : Emission) (id : ValueId) : ElementType :=
  (emission.kernel.bufferStart id).elim .f32 fun buffer =>
    (emission.buffers.image emission.kernel buffer).elem

/-- Whether the base of an extraction is a struct, so that its fields are reached directly. -/
def extractsFromStruct (emission : Emission) (op : Operation) : Bool :=
  (op.base.bind emission.kernel.operation?).any (·.givesStruct)

/-- The statement of an operation. -/
def statement (emission : Emission) (context : SiteContext) (op : Operation) : Stmt :=
  let define : Expr → Stmt := .declare "auto" (emission.kernel.varName op.id)
  match op.kind with
  | .param => .skip
  | .extract field =>
      define (.member (emission.operand op 0) (!emission.extractsFromStruct op) field)
  | .reinterpret =>
      define (.castPointer (emission.elementType op.id).codeName (emission.operand op 0))
  | .address => (context.address? op).elim .skip fun address => define address.expr
  | .load => define (.deref (emission.operand op 0))
  | .store => .assign (.deref (emission.operand op 0)) (emission.stored op)
  | .other name =>
      let call : Expr := .call name (op.operands.map emission.kernel.varName)
      if op.type.isSome then define call else .effect call

/-- Writes the statements of the schedule. -/
def writeOperations (emission : Emission) (writer : LineWriter) : LineWriter :=
  let context := emission.context
  emission.kernel.operations.foldl
    (fun writer op => (emission.statement context op).write writer) writer

/-- The code of a kernel, or the tile that is too large to be declared. -/
def run (emission : Emission) : Except Tile KernelCode :=
  let opened := LineWriter.empty.openBrace emission.headerLine
  let entry := TileCode.entry emission.geometry emission.settings.border opened emission.tiles
  match entry.refused with
  | some tile => .error tile
  | none =>
      let context := emission.context
      .ok {
        source := (emission.writeOperations entry.writer).closeBrace.text
        tiles := emission.tiles
        unmapped := (emission.kernel.operations.filter context.lacksCoordinate).map (·.id) }

end Emission

end BufferPromotion
