import BufferPromotion.Command.Run

/-! # Paths

A path is a text of parts with `/` between them, and leads from the root or from the working
directory through one directory after another. Its last part is kept apart: all the others
must lead into directories, while the last one may also be the name of a file, or of a file
that is yet to be written. A `/` behind the last part asks for a directory.

Sizes are counted in bytes: a path has fewer than 4096 and a name at most 255 of them.
-/

set_option autoImplicit false

namespace BufferPromotion

/-- A part of a path. -/
inductive PathPart where
  /-- The directory itself, written `.`. -/
  | same
  /-- The directory above, written `..`. -/
  | up
  | name (name : String)
  deriving DecidableEq, Repr

namespace PathPart

/-- The part that a text stands for. -/
def ofText (text : String) : PathPart :=
  if text = "." then same else if text = ".." then up else name text

/-- The most bytes that a name can have. -/
def maxNameSize : Nat := 255

end PathPart

/-- A path. -/
structure Path where
  /-- Whether it leads from the root. -/
  fromRoot : Bool
  /-- All parts but the last. -/
  through : List PathPart
  /-- The last part; the path to the root has none. -/
  last : Option PathPart
  /-- Whether there is a `/` behind the last part. -/
  closed : Bool
  deriving DecidableEq, Repr

namespace Path

/-- The size in bytes that every path stays below. -/
def sizeLimit : Nat := 4096

/-- The path that a text stands for. Several `/` in a row are as good as one. -/
def ofText (text : String) : Except SystemFault Path :=
  let chars := text.toList
  if chars.isEmpty then .error .notFound
  else if sizeLimit ≤ text.utf8ByteSize then .error .nameTooLong
  else
    let parts := ((chars.splitOn '/').filter (!·.isEmpty)).map fun part =>
      PathPart.ofText (String.ofList part)
    .ok ⟨chars.head? == some '/', parts.dropLast, parts.getLast?, chars.getLast? == some '/'⟩

end Path

end BufferPromotion
