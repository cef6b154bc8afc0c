/-! # Lines of a source text

A source is cut into lines after every `\n`. A line remembers the byte offset at which it
starts, so that the spans of its tokens are offsets into the whole source. Line breaks, and
carriage returns right before them or at the end of the source, are not part of the line.
-/

set_option autoImplicit false

namespace BufferPromotion

/-- The number of bytes of a text in UTF-8. -/
def byteLength (text : List Char) : Nat := text.foldr (fun c bytes => c.utf8Size + bytes) 0

/-- One line of a source: its characters and the byte offset of the first one. -/
structure SourceLine where
  offset : Nat
  text : List Char
  deriving DecidableEq, Repr

/-- Cuts a text after every line break; the pieces keep their line break. -/
def splitLines : List Char → List (List Char)
  | [] => []
  | c :: rest =>
      if c == '\n' then [c] :: splitLines rest
      else match splitLines rest with
        | [] => [[c]]
        | line :: more => (c :: line) :: more

/-- Whether a character belongs to a line ending. -/
def isLineEnding (c : Char) : Bool := c == '\n' || c == '\r'

/-- A piece of the source without the line ending it closes with. -/
def dropLineEnding (line : List Char) : List Char :=
  (line.reverse.dropWhile isLineEnding).reverse

/-- The pieces of a source as lines, the first of them starting at the given offset. -/
def linesFrom (offset : Nat) : List (List Char) → List SourceLine
  | [] => []
  | piece :: more => ⟨offset, dropLineEnding piece⟩ :: linesFrom (offset + byteLength piece) more

/-- The lines of a source. -/
def sourceLines (source : String) : List SourceLine := linesFrom 0 (splitLines source.toList)

end BufferPromotion
