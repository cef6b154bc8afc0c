/-! # Spans of a source text

A span is a range of bytes in the UTF-8 form of a listing. Diagnostics point at spans, and
every value of a listing remembers the span of the line that defines it.
-/

set_option autoImplicit false

namespace BufferPromotion

/-- A range of bytes, given by its first byte and its length. -/
structure Span where
  start : Nat
  length : Nat
  deriving DecidableEq, Repr, Inhabited

namespace Span

/-- The span between two byte offsets, empty at the first if the second lies before it. -/
def ofBounds (start stop : Nat) : Span := ⟨start, stop - start⟩

/-- The offset after the last byte. -/
def stop (span : Span) : Nat := span.start + span.length

/-- Whether a span has no bytes. -/
def isEmpty (span : Span) : Bool := span.length == 0

/-- The smallest span that covers two spans. -/
def cover (a b : Span) : Span := ofBounds (min a.start b.start) (max a.stop b.stop)

/-- The empty span at the end of a span. -/
def atEnd (span : Span) : Span := ⟨span.stop, 0⟩

/-- A span as its two bounds, the second excluded. -/
def text (span : Span) : String := s!"{span.start}..{span.stop}"

end Span

end BufferPromotion
