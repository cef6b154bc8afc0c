import BufferPromotion.Proofs.Listing.Renaming.Phrase
import Mathlib.Data.List.Forall2

/-! # The tokens of a renamed line

A new name is a word, so it is read as one token with the percent sign before it, and it stops at
the character at which the old name stopped. All other characters are read as before. A token is
attached to the next one if they touch, and that depends on the next character only, which is never
one of a name (`tokensFrom_line`). So the lines of a renamed source have the renamed tokens
(`forall₂_tokensOfLine`).
-/

set_option autoImplicit false

namespace BufferPromotion

/-! ## Fronts of a text -/

section Front

variable {offset : Nat} {text front rest : List Char} {first : Token} {tokens : List Token}

/-- The first token touches what is before the text if and only if no blank is between them. -/
theorem start_eq_iff (h : tokensFrom offset text = .ok (first :: tokens)) :
    first.span.start = offset ↔ ∀ c ∈ text.head?, isBlank c = false := by
  constructor
  · intro hstart c hc
    obtain ⟨text, rfl⟩ := List.head?_eq_some_iff.mp (Option.mem_def.mp hc)
    rcases tokensFrom_cons h with ⟨-, h⟩ | ⟨-, -, hblank, -⟩
    · -- after a blank the first token starts later
      have hlate := le_start_of_mem_tokensFrom h first List.mem_cons_self
      have hpos := c.utf8Size_pos
      omega
    · exact hblank
  · exact fun hhead => start_of_tokensFrom hhead h

/-- An error is met after any characters that belong to tokens. -/
theorem tokensFrom_append_error {diagnostic : Diagnostic}
    (hfront : ∀ c ∈ front, (Lexeme.ofChar? c).isSome = true)
    (h : tokensFrom (offset + byteLength front) rest = .error diagnostic) :
    tokensFrom offset (front ++ rest) = .error diagnostic := by
  induction front generalizing offset with
  | nil => exact h
  | cons c front ih =>
      rw [List.forall_mem_cons] at hfront
      have hlength : offset + byteLength (c :: front) =
          offset + c.utf8Size + byteLength front := (Nat.add_assoc ..).symm
      rw [hlength] at h
      have hrest := ih hfront.2 h
      obtain ⟨lexeme, hlexeme⟩ := Option.isSome_iff_exists.mp hfront.1
      rw [List.cons_append, tokensFrom, hlexeme, hrest]
      split <;> rfl

/-- A percent sign and the word after it are one token, whatever follows. -/
theorem tokensFrom_value {name : String}
    (hname : ∀ c ∈ name.toList, Lexeme.belongsToWord c = true) (hrest : Interrupts rest) :
    ∃ span after, tokensFrom offset ('%' :: name.toList ++ rest) =
      (tokensFrom after rest).map (List.cons ⟨.value name, span⟩) := by
  have htoList : (Lexeme.value name).text.toList = '%' :: name.toList := by
    show ("%" ++ name).toList = _
    rw [String.toList_append]
    rfl
  cases hread : tokensFrom (offset + byteLength ('%' :: name.toList)) rest with
  | ok tokens =>
      obtain ⟨span, hspan⟩ := @tokensFrom_lexeme (.value name) hname rest hrest offset tokens
        (by rw [htoList]; exact hread)
      rw [htoList] at hspan
      refine ⟨span, offset + byteLength ('%' :: name.toList), hspan.trans ?_⟩
      rw [hread]
      rfl
  | error diagnostic =>
      have hchars : ∀ c ∈ '%' :: name.toList, (Lexeme.ofChar? c).isSome = true := by
        rw [List.forall_mem_cons]
        refine ⟨rfl, fun c hc => ?_⟩
        rw [Lexeme.ofChar?_of_belongsToWord (hname c hc)]
        rfl
      refine ⟨⟨0, 0⟩, offset + byteLength ('%' :: name.toList),
        (tokensFrom_append_error hchars hread).trans ?_⟩
      rw [hread]
      rfl

end Front

namespace Renaming

variable {r : Renaming}

/-! ## Tokens -/

/-- Only the percent sign starts a value. -/
theorem ne_value_of_ofChar? {c : Char} (hc : c ≠ '%') {lexeme : Lexeme}
    (h : Lexeme.ofChar? c = some lexeme) (name : String) : lexeme ≠ .value name := by
  have hpercent : (c == '%') = false := beq_eq_false_iff_ne.mpr hc
  rintro rfl
  unfold Lexeme.ofChar? at h
  rw [hpercent] at h
  simp only [Bool.false_eq_true, if_false] at h
  repeat' split at h
  all_goals cases h

/-- A sign or a word is attached to renamed tokens as to the tokens before, if it touches the first
one as before. -/
theorem attach_renamed {lexeme : Lexeme} (hlexeme : ∀ name, lexeme ≠ .value name)
    {span span' : Span} {tokens tokens' : List Token}
    (h : List.Forall₂ (Token.Renamed r) tokens tokens')
    (htouch : ∀ first ∈ tokens.head?, ∀ first' ∈ tokens'.head?,
      (span.stop = first.span.start ↔ span'.stop = first'.span.start)) :
    List.Forall₂ (Token.Renamed r) (Token.attach ⟨lexeme, span⟩ tokens)
      (Token.attach ⟨lexeme, span'⟩ tokens') := by
  have hsame : r.lexeme lexeme = lexeme := (lexeme_eq_iff hlexeme).mpr rfl
  cases h with
  | nil => exact .cons hsame.symm .nil
  | @cons first first' rest rest' hfirst hrest =>
      -- what continues a sign or a word is a word, which has no name to replace
      have hjoined : lexeme.continued? first'.lexeme = lexeme.continued? first.lexeme := by
        rw [show first'.lexeme = r.lexeme first.lexeme from hfirst]
        cases lexeme with
        | value name => exact absurd rfl (hlexeme name)
        | word text => cases first.lexeme <;> rfl
        | comma | colon | equals | question => rfl
      have hplain : ∀ joined, lexeme.continued? first.lexeme = some joined →
          r.lexeme joined = joined := by
        intro joined hjoined
        unfold Lexeme.continued? at hjoined
        split at hjoined
        · cases hjoined
          rfl
        · exact absurd rfl (hlexeme _)
        · cases hjoined
      simp only [Token.attach, hjoined, ← htouch first rfl first' rfl]
      by_cases htouches : span.stop = first.span.start
      · rw [if_pos htouches, if_pos htouches]
        cases hcontinued : lexeme.continued? first.lexeme with
        | some joined => exact .cons (hplain joined hcontinued).symm hrest
        | none => exact .cons hsame.symm (.cons hfirst hrest)
      · rw [if_neg htouches, if_neg htouches]
        exact .cons hsame.symm (.cons hfirst hrest)

/-- A renamed text has the renamed tokens, or the same error. -/
theorem tokensFrom_line (text : List Char) (offset offset' : Nat) :
    Agree (List.Forall₂ (Token.Renamed r)) (tokensFrom offset text)
      (tokensFrom offset' (r.line false text)) := by
  induction text using @line_induction generalizing offset offset' with
  | nil => exact .ok .nil
  | comment rest => exact .error rfl
  | value word rest hword hrest ih =>
      have hold : ∀ c ∈ (String.ofList word).toList, Lexeme.belongsToWord c = true := by
        rw [String.toList_ofList]
        exact hword
      obtain ⟨span, after, hread⟩ := @tokensFrom_value offset rest _ hold hrest
      obtain ⟨span', after', hread'⟩ := @tokensFrom_value offset' (r.line false rest) _
        (chars_name hold) (interrupts_line hrest)
      rw [String.toList_ofList] at hread
      rw [line_value hword hrest, hread, hread']
      exact (ih after after').map fun tokens tokens' htokens => .cons rfl htokens
  | char c rest hc hcomment ih =>
      have hrest := ih (offset + c.utf8Size) (offset' + c.utf8Size)
      rw [line_char hc hcomment]
      unfold tokensFrom
      by_cases hblank : isBlank c = true
      · rw [if_pos hblank, if_pos hblank]
        exact hrest
      rw [if_neg hblank, if_neg hblank]
      cases hlexeme : Lexeme.ofChar? c with
      | none => exact .error rfl
      | some lexeme =>
          dsimp only
          generalize hread : tokensFrom (offset + c.utf8Size) rest = result at hrest ⊢
          generalize hread' : tokensFrom (offset' + c.utf8Size) (r.line false rest) = result'
            at hrest ⊢
          cases hrest with
          | error hcode => exact .error hcode
          | ok htokens =>
              refine .ok (attach_renamed (ne_value_of_ofChar? hc hlexeme) htokens ?_)
              intro first hfirst first' hfirst'
              obtain ⟨more, rfl⟩ := List.head?_eq_some_iff.mp hfirst
              obtain ⟨more', rfl⟩ := List.head?_eq_some_iff.mp hfirst'
              -- both first tokens touch the character, or none of them does
              have hstart := start_eq_iff hread
              have hstart' := start_eq_iff hread'
              rw [head?_line, ← hstart] at hstart'
              exact eq_comm.trans (hstart'.symm.trans eq_comm)

/-! ## Lines -/

/-- The line ending of a line is blank, so it may as well be read. -/
theorem tokensFrom_dropLineEnding (offset : Nat) (piece : List Char) :
    tokensFrom offset (dropComment (dropLineEnding piece)) =
      tokensFrom offset (dropComment piece) := by
  obtain ⟨ending, hpiece, hending⟩ := exists_dropLineEnding piece
  have hblank : ∀ c ∈ ending, isBlank c = true := by
    intro c hc
    have hc := hending c hc
    unfold isLineEnding at hc
    rw [Bool.or_eq_true, beq_iff_eq, beq_iff_eq] at hc
    rcases hc with rfl | rfl <;> decide
  have hslash : '/' ∉ ending := fun hmem => absurd (hending '/' hmem) (by decide)
  -- either the comment goes on to the line ending, or there is none
  rcases dropComment_append_or (dropLineEnding piece) hslash with heq | heq
  · rw [← hpiece] at heq
    rw [heq]
  · rw [← hpiece] at heq
    rw [heq, tokensFrom_append_blanks hblank]

theorem forall₂_tokensOfLine (source : String) :
    List.Forall₂ (fun line line' => Agree (List.Forall₂ (Token.Renamed r)) (tokensOfLine line)
      (tokensOfLine line')) (sourceLines source) (sourceLines (r.source source)) := by
  refine List.Forall₂.imp ?_ (forall₂_sourceLines source)
  rintro line line' ⟨piece, hline, hline'⟩
  unfold tokensOfLine
  rw [hline, hline', tokensFrom_dropLineEnding, tokensFrom_dropLineEnding, dropComment_line]
  exact tokensFrom_line _ _ _

end Renaming

end BufferPromotion
