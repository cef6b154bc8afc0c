import BufferPromotion.Kernel.Chain

/-! # Image buffers

A buffer holds the pixels of an image. Generated code reaches them through expressions for
the data, the width and the height; it also needs the type of an element and the number of
elements per pixel. A listing can declare all this for a buffer. Without a declaration the
fields `width` and `height` next to the data are used, or variables of these names.
-/

set_option autoImplicit false

namespace BufferPromotion

/-- How the pixels of a buffer are reached. Data, width and height are expressions. -/
structure ImageBuffer where
  elem : ElementType
  data : String
  width : String
  height : String
  /-- The number of elements per pixel. -/
  stride : UInt32
  deriving DecidableEq, Repr

namespace ImageBuffer

/-- One `float` per pixel, with the given expressions. -/
def plain (data width height : String) : ImageBuffer := ⟨.f32, data, width, height, 1⟩

/-- The image of a parameter without a declaration. A struct carries its pixels and
dimensions in fields; anything else is the pixels itself. -/
def ofParam (param : Parameter) : ImageBuffer :=
  match param.type with
  | some (.struct _) =>
      plain (param.name ++ ".data") (param.name ++ ".width") (param.name ++ ".height")
  | _ => plain param.name "width" "height"

/-- The image of a buffer without a declaration. A pointer extracted from a struct reads
its pixels from the extracted field, and its dimensions from the fields next to it. -/
def ofValue (kernel : Kernel) (buffer : ValueId) : ImageBuffer :=
  match kernel.param? buffer with
  | some param => ofParam param
  | none =>
      match kernel.memberPath buffer with
      | some path =>
          if 1 < path.length then
            let owner := String.intercalate "." path.dropLast
            plain (String.intercalate "." path) (owner ++ ".width") (owner ++ ".height")
          else plain (kernel.varName buffer) "width" "height"
      | none => plain (kernel.varName buffer) "width" "height"

end ImageBuffer

/-- The images declared for the buffers of one kernel. -/
structure BufferTable where
  entries : ValueMap ImageBuffer
  deriving DecidableEq

namespace BufferTable

/-- No declarations. -/
def empty : BufferTable := ⟨∅⟩

/-- Declares a buffer; a declaration that was there before is replaced. -/
def insert (buffers : BufferTable) (id : ValueId) (image : ImageBuffer) : BufferTable :=
  ⟨buffers.entries.insert id image⟩

/-- The declaration of a value, if there is one. -/
def get? (buffers : BufferTable) (id : ValueId) : Option ImageBuffer := buffers.entries[id]?

/-- The declarations in the order of their values. -/
def toList (buffers : BufferTable) : List (ValueId × ImageBuffer) := buffers.entries.toList

/-- Whether nothing is declared. -/
def isEmpty (buffers : BufferTable) : Bool := buffers.entries.isEmpty

/-- The image in a buffer. Its own declaration wins. Otherwise a declaration of the
parameter it comes from gives everything but the place of the pixels. -/
def image (buffers : BufferTable) (kernel : Kernel) (buffer : ValueId) : ImageBuffer :=
  match buffers.get? buffer with
  | some declared => declared
  | none =>
      let plain := ImageBuffer.ofValue kernel buffer
      match (kernel.rootParam buffer).bind fun param => buffers.get? param.id with
      | some declared => { declared with data := plain.data }
      | none => plain

end BufferTable

end BufferPromotion
