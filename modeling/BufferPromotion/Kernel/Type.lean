/-! # Types of values

The promotion of buffers distinguishes three types of values: pointers, structs, which are
known by name, and scalars, which are everything else. The elements of an image buffer have
one of four types, with one spelling in listings and another in generated code.
-/

set_option autoImplicit false

namespace BufferPromotion

/-- The type of a value, as far as promotion depends on it. -/
inductive ValueType where
  | scalar
  | pointer
  | struct (name : String)
  deriving DecidableEq, Repr, Inhabited

namespace ValueType

/-- Whether the type is a pointer. -/
def isPointer : ValueType → Bool
  | pointer => true
  | _ => false

/-- Whether the type is a struct. -/
def isStruct : ValueType → Bool
  | struct _ => true
  | _ => false

/-- The spelling of a type in a listing. -/
def text : ValueType → String
  | scalar => "scalar"
  | pointer => "ptr"
  | struct name => s!"struct {name}"

end ValueType

/-- The type of the elements of an image buffer. -/
inductive ElementType where
  | u8
  | i32
  | f32
  | f64
  deriving DecidableEq, Repr, Inhabited

namespace ElementType

/-- The name of an element type in a listing. -/
def name : ElementType → String
  | u8 => "u8"
  | i32 => "i32"
  | f32 => "f32"
  | f64 => "f64"

/-- The element type with a given name. -/
def ofName? (name : String) : Option ElementType :=
  [u8, i32, f32, f64].find? (·.name == name)

/-- The spelling of an element type in generated code. -/
def codeName : ElementType → String
  | u8 => "unsigned char"
  | i32 => "int"
  | f32 => "float"
  | f64 => "double"

end ElementType

end BufferPromotion
