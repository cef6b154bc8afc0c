import BufferPromotion.Listing.Reader
import BufferPromotion.Proofs.Listing.Relocation.Directive
import BufferPromotion.Proofs.Source.Line

/-! # Lines that have been moved

A line that starts later has the same tokens, each as much later. Tokens of a line touch, and are
covered by the place of the line, if they do so before the line is moved.
-/

set_option autoImplicit false

namespace BufferPromotion

namespace Span

variable {bytes : Nat}

/-- A span that starts later. -/
def shift (bytes : Nat) (span : Span) : Span := { span with start := bytes + span.start }

theorem stop_shift (span : Span) : (span.shift bytes).stop = bytes + span.stop :=
  Nat.add_assoc bytes span.start span.length

theorem atEnd_shift (span : Span) : span.atEnd.shift bytes = (span.shift bytes).atEnd :=
  congrArg (Span.mk · 0) (stop_shift span).symm

theorem cover_shift (a b : Span) : (a.shift bytes).cover (b.shift bytes) = (a.cover b).shift bytes := by
  have hstart : min (bytes + a.start) (bytes + b.start) = bytes + min a.start b.start :=
    Nat.add_min_add_left ..
  have hstop : max (bytes + a.stop) (bytes + b.stop) = bytes + max a.stop b.stop :=
    Nat.add_max_add_left ..
  unfold cover
  rw [stop_shift, stop_shift, hstop]
  show ofBounds (min (bytes + a.start) (bytes + b.start)) _ = _
  rw [hstart]
  exact congrArg (Span.mk _) (Nat.add_sub_add_left ..)

end Span

variable {bytes : Nat}

theorem attach_relocate (token : Token) (tokens : List Token) :
    (token.relocate (Span.shift bytes)).attach (tokens.map (Token.relocate (Span.shift bytes))) =
      (token.attach tokens).map (Token.relocate (Span.shift bytes)) := by
  cases tokens with
  | nil => rfl
  | cons next rest =>
      have htouch : (token.span.shift bytes).stop = (next.span.shift bytes).start ↔
          token.span.stop = next.span.start := by
        rw [Span.stop_shift]
        exact Nat.add_left_cancel_iff
      simp only [List.map_cons, Token.attach, Token.relocate, htouch]
      by_cases h : token.span.stop = next.span.start
      · rw [if_pos h, if_pos h]
        cases token.lexeme.continued? next.lexeme with
        | none => rfl
        | some lexeme => simp [Span.cover_shift, Token.relocate]
      · rw [if_neg h, if_neg h]
        rfl

theorem tokensFrom_shift (past : Span → Span) (offset : Nat) (text : List Char) :
    tokensFrom (bytes + offset) text =
      relocated (Span.shift bytes) past (List.map (Token.relocate (Span.shift bytes)))
        (tokensFrom offset text) := by
  induction text generalizing offset with
  | nil => rfl
  | cons c rest ih =>
      have hrest := ih (offset + c.utf8Size)
      unfold tokensFrom
      rw [Nat.add_assoc, hrest]
      by_cases hblank : isBlank c = true
      · rw [if_pos hblank, if_pos hblank]
      · rw [if_neg hblank, if_neg hblank]
        cases Lexeme.ofChar? c with
        | none => rfl
        | some lexeme => exact relocated_map (attach_relocate ⟨lexeme, ⟨offset, c.utf8Size⟩⟩)

theorem tokensOfLine_shift (past : Span → Span) (line : SourceLine) :
    tokensOfLine (line.shift bytes) =
      relocated (Span.shift bytes) past (List.map (Token.relocate (Span.shift bytes)))
        (tokensOfLine line) :=
  tokensFrom_shift past line.offset _

theorem lineSpan_shift (first : Token) (tokens : List Token) :
    Reading.lineSpan (first.relocate (Span.shift bytes))
        (tokens.map (Token.relocate (Span.shift bytes))) =
      (Reading.lineSpan first tokens).shift bytes := by
  have hlast : (tokens.map (Token.relocate (Span.shift bytes))).getLastD
      (first.relocate (Span.shift bytes)) =
        (tokens.getLastD first).relocate (Span.shift bytes) := by
    simp [List.getLastD_eq_getLast?, Option.getD_map]
  unfold Reading.lineSpan
  rw [hlast]
  exact Span.cover_shift _ _

end BufferPromotion
