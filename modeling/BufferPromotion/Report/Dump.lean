import BufferPromotion.Listing.Kernel

/-! # Dumps of listed kernels

A dump shows everything that is known about the kernels of a listing, part by part. Each
part of a structure stands on lines of its own, indented by four blanks and closed by a
comma; a structure without parts stands on one line. Nodes are shown in the slots of their
table, which starts with four slots and doubles whenever it is full; every free slot names
the next one.
-/

set_option autoImplicit false

namespace BufferPromotion

/-- The lines of a part of a dump. -/
abbrev Dump := List String

namespace Dump

/-! ## Layout -/

/-- A part on one line. -/
def atom (text : String) : Dump := [text]

/-- Puts a text in front of the first line. -/
def label (text : String) : Dump → Dump
  | [] => [text]
  | line :: rest => (text ++ line) :: rest

/-- Puts a text after the last line. -/
def follow (dump : Dump) (text : String) : Dump :=
  match dump with
  | [] => [text]
  | [line] => [line ++ text]
  | line :: rest => line :: follow rest text

/-- Indents lines by one level. -/
def indent (dump : Dump) : Dump := dump.map ("    " ++ ·)

/-- Parts between an opening and a closing text. -/
def group (opening closing : String) (parts : List Dump) : Dump :=
  if parts.isEmpty then [opening ++ closing]
  else [opening] ++ (parts.flatMap fun part => indent (part.follow ",")) ++ [closing]

/-- A structure with named parts. -/
def record (name : String) (fields : List (String × Dump)) : Dump :=
  group (name ++ " \x7b") "\x7d" (fields.map fun (field, part) => part.label (field ++ ": "))

/-- A constructor applied to parts. -/
def apply (name : String) (parts : List Dump) : Dump := group (name ++ "(") ")" parts

/-- A sequence of parts. -/
def list (parts : List Dump) : Dump := group "[" "]" parts

/-- A part that may be missing. -/
def optional : Option Dump → Dump
  | none => atom "None"
  | some part => apply "Some" [part]

/-- An entry of a table: the value follows the key on the key's last line. -/
def entry (key value : Dump) : Dump :=
  match value with
  | [] => key.follow ": "
  | line :: rest => key.follow (": " ++ line) ++ rest

/-- A table. -/
def table (entries : List (Dump × Dump)) : Dump :=
  group "\x7b" "\x7d" (entries.map fun (key, value) => entry key value)

/-- A word in quotes. -/
def quoted (word : String) : Dump := atom ("\"" ++ word ++ "\"")

/-- A number. -/
def number (value : Nat) : Dump := atom (toString value)

/-- A truth value. -/
def boolean (value : Bool) : Dump := atom (if value then "true" else "false")

/-! ## Values and nodes -/

/-- An id. -/
def ofId (id : ValueId) : Dump :=
  apply "OpId" [record "Index" [("index", number id), ("generation", number 0)]]

/-- A type that may be missing. -/
def ofType (type : Option ValueType) : Dump :=
  optional (type.map fun
    | .scalar => atom "Scalar"
    | .pointer => atom "Pointer"
    | .struct name => apply "Struct" [quoted name])

/-- A kind of operation. -/
def ofKind : NodeKind → Dump
  | .param => atom "Param"
  | .extract field => record "StructExtract" [("field", quoted field)]
  | .reinterpret => atom "Reinterpret"
  | .address => atom "AddressCompute"
  | .load => atom "Load"
  | .store => atom "Store"
  | .other name => record "Other" [("name", quoted name)]

/-- A parameter. -/
def ofParam (param : Parameter) : Dump :=
  record "ParameterDescriptor"
    [("id", ofId param.id), ("name", quoted param.name), ("ty", ofType param.type),
     ("is_filter", boolean param.isFilter)]

/-- A node. -/
def ofNode (id : ValueId) (node : Node) : Dump :=
  record "OperationNode"
    [("id", ofId id), ("kind", ofKind node.kind), ("ty", ofType node.type),
     ("operands", list (node.operands.map ofId))]

/-! ## The table of nodes -/

/-- The number of slots of a table with some nodes: the least power of two that holds them,
and at least four. -/
def slotCount (nodes : Nat) : Nat := if nodes ≤ 4 then 4 else Nat.pow 2 (Nat.log2 (nodes - 1) + 1)

/-- A slot with a node. -/
def occupiedSlot (id : ValueId) (node : Node) : Dump :=
  record "Occupied" [("generation", number 0), ("value", ofNode id node)]

/-- A free slot, which names the next one unless it is the last of all. -/
def freeSlot (slots position : Nat) : Dump :=
  let next := if position + 1 < slots then some (number (position + 1)) else none
  record "Free" [("next_free", optional next)]

/-- The table of nodes. -/
def ofNodes (nodes : Array Node) : Dump :=
  let slots := slotCount nodes.size
  let used := nodes.toList.zipIdx.map fun (node, id) => occupiedSlot id node
  let free := (List.range' nodes.size (slots - nodes.size)).map (freeSlot slots)
  let head := if nodes.size < slots then some (number nodes.size) else none
  record "Arena"
    [("items", list (used ++ free)), ("generation", number 0),
     ("free_list_head", optional head), ("len", number nodes.size)]

/-! ## Kernels -/

/-- A kernel. -/
def ofKernel (kernel : Kernel) : Dump :=
  record "KernelFunction"
    [("name", quoted kernel.name), ("params", list (kernel.params.map ofParam)),
     ("nodes", ofNodes kernel.nodes), ("schedule", list (kernel.schedule.map ofId)),
     ("names", table (kernel.names.toList.map fun (id, name) => (ofId id, quoted name)))]

/-- A span. -/
def ofSpan (span : Span) : Dump := atom span.text

/-- A declared size that may be missing. -/
def ofSize (declared : Option DeclaredSize) : Dump :=
  optional (declared.map fun declared =>
    apply "" [apply "" [number declared.size.x.toNat, number declared.size.y.toNat],
      ofSpan declared.span])

/-- An element type. -/
def ofElementType : ElementType → Dump
  | .u8 => atom "U8"
  | .i32 => atom "I32"
  | .f32 => atom "F32"
  | .f64 => atom "F64"

/-- The descriptor of a buffer. -/
def ofBuffer (buffer : ImageBuffer) : Dump :=
  record "BufferDescriptor"
    [("elem", ofElementType buffer.elem), ("data", quoted buffer.data),
     ("width", quoted buffer.width), ("height", quoted buffer.height),
     ("stride", number buffer.stride.toNat)]

/-- A table of spans. -/
def ofSpans (spans : ValueMap Span) : Dump :=
  table (spans.toList.map fun (id, span) => (ofId id, ofSpan span))

/-- The declared buffers. -/
def ofBuffers (buffers : BufferTable) : Dump :=
  record "Buffers"
    [("declared", table (buffers.toList.map fun (id, buffer) => (ofId id, ofBuffer buffer)))]

/-- A listed kernel. -/
def ofListed (listed : ListedKernel) : Dump :=
  record "ParsedKernel"
    [("kernel", ofKernel listed.kernel), ("span", ofSpan listed.span),
     ("block", ofSize listed.block), ("filter", ofSize listed.filter),
     ("buffers", ofBuffers listed.buffers), ("buffer_spans", ofSpans listed.bufferLines),
     ("spans", ofSpans listed.spans)]

/-- The dump of all kernels of a listing. -/
def text (kernels : List ListedKernel) : String :=
  String.join ((list (kernels.map ofListed)).map fun line => line ++ "\n")

end Dump

end BufferPromotion
