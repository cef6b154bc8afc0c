import BufferPromotion.Buffer.Image
import BufferPromotion.Diagnostic.Basic
import BufferPromotion.Kernel.Builder
import BufferPromotion.Kernel.Validity

/-! # Kernels of a listing

A listed kernel is a kernel together with what its listing says about it: the launch
configuration, the images in its buffers, and the places of all of these. While the
listing is read, a draft also remembers which name stands for which value.
-/

set_option autoImplicit false

namespace BufferPromotion

/-- A size that a listing declares, and the line that declares it. -/
structure DeclaredSize where
  size : Size
  span : Span
  deriving DecidableEq, Repr

/-- A kernel as it is listed. -/
structure ListedKernel where
  kernel : Kernel
  /-- The line that opens the kernel. -/
  span : Span
  block : Option DeclaredSize
  filter : Option DeclaredSize
  buffers : BufferTable
  /-- The line that declares each buffer. -/
  bufferLines : ValueMap Span
  /-- The line that defines each value. -/
  spans : ValueMap Span
  deriving DecidableEq

namespace ListedKernel

/-- The kernel that a line opens. -/
def opened (name : String) (line : Span) : ListedKernel :=
  ⟨Kernel.empty name, line, none, none, BufferTable.empty, ∅, ∅⟩

/-- The line that defines a value, or the line that opens the kernel if there is none. -/
def lineOf (listed : ListedKernel) (id : ValueId) : Span := (listed.spans[id]?).getD listed.span

/-- The line that declares a buffer, or the line that opens the kernel if there is none. -/
def bufferLineOf (listed : ListedKernel) (id : ValueId) : Span :=
  (listed.bufferLines[id]?).getD listed.span

end ListedKernel

/-- What a name in a listing stands for. -/
structure Definition where
  id : ValueId
  /-- The line that defines the value. -/
  span : Span
  deriving DecidableEq, Repr

/-- A kernel whose listing is still being read. -/
structure Draft extends ListedKernel where
  /-- The defined names, the latest first. -/
  scope : List (String × Definition)
  deriving DecidableEq

namespace Draft

/-- The draft of the kernel that a line opens. -/
def opened (name : String) (line : Span) : Draft := ⟨ListedKernel.opened name line, []⟩

/-- What a name stands for. -/
def lookup (draft : Draft) (name : String) : Option Definition := draft.scope.lookup name

/-- Gives the value that a line defines its name. -/
def define (draft : Draft) (name : String) (id : ValueId) (line : Span) : Draft :=
  { draft with
    kernel := draft.kernel.withName id name
    scope := (name, ⟨id, line⟩) :: draft.scope
    spans := draft.spans.insert id line }

/-- Adds a parameter. -/
def addParameter (draft : Draft) (name : String) (type : Option ValueType) (isFilter : Bool)
    (line : Span) : Draft :=
  let id := draft.kernel.nextId
  { draft with kernel := draft.kernel.addParameter name type isFilter }.define name id line

/-- Adds an operation with a result. -/
def addDefinition (draft : Draft) (name : String) (node : Node) (line : Span) : Draft :=
  let id := draft.kernel.nextId
  { draft with kernel := draft.kernel.append node }.define name id line

/-- Adds an operation without a result. -/
def addEffect (draft : Draft) (node : Node) (line : Span) : Draft :=
  { draft with
    kernel := draft.kernel.append node
    spans := draft.spans.insert draft.kernel.nextId line }

/-- Declares a buffer. -/
def declareBuffer (draft : Draft) (id : ValueId) (image : ImageBuffer) (line : Span) :
    Draft :=
  { draft with
    buffers := draft.buffers.insert id image
    bufferLines := draft.bufferLines.insert id line }

/-- The finished kernel, or why it is not valid. -/
def finish (draft : Draft) : Except KernelFault ListedKernel :=
  draft.kernel.check.map fun _ => draft.toListedKernel

end Draft

end BufferPromotion
