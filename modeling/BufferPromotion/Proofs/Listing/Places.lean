import BufferPromotion.Proofs.Listing.BadLine
import BufferPromotion.Proofs.Source.Place
import Mathlib.Data.List.DropRight

/-! # Places of a listing

The place of a line, from its first to its last token, is that of its text without the comment and
the blanks around it (`lineSpan_eq_extent`). What a line reports is made of its own characters, and
the labels point at lines before it, so that everything a listing reports is at a place in its
source (`isPlaceIn_of_mem_diagnostics`).
-/

set_option autoImplicit false

namespace BufferPromotion

/-! ## Texts without the blanks around them -/

theorem exists_blanks_around (text : List Char) :
    ∃ back, text = text.takeWhile isBlank ++ trimBlanks text ++ back ∧
      ∀ c ∈ back, isBlank c = true := by
  refine ⟨((text.dropWhile isBlank).reverse.takeWhile isBlank).reverse, ?_, fun c hc => ?_⟩
  · have hrest : trimBlanks text ++ ((text.dropWhile isBlank).reverse.takeWhile isBlank).reverse =
        text.dropWhile isBlank := by
      unfold trimBlanks
      rw [← List.reverse_append, List.takeWhile_append_dropWhile, List.reverse_reverse]
    calc text
        = text.takeWhile isBlank ++ text.dropWhile isBlank :=
          List.takeWhile_append_dropWhile.symm
      _ = text.takeWhile isBlank ++ trimBlanks text ++
            ((text.dropWhile isBlank).reverse.takeWhile isBlank).reverse := by
          rw [List.append_assoc, hrest]
  · exact List.mem_takeWhile_imp (List.mem_reverse.mp hc)

theorem not_isBlank_head_trimBlanks {text : List Char} :
    ∀ c ∈ (trimBlanks text).head?, isBlank c = false := by
  intro c hc
  obtain ⟨back, hback⟩ := List.rdropWhile_prefix isBlank (text.dropWhile isBlank)
  have htrim : trimBlanks text ++ back = text.dropWhile isBlank := hback
  have hhead : (text.dropWhile isBlank).head? = some c := by
    rw [← htrim, List.head?_append, Option.mem_def.mp hc]
    rfl
  have hfront := List.head?_dropWhile_not isBlank text
  rw [hhead] at hfront
  exact hfront

theorem not_isBlank_last_trimBlanks {text : List Char} :
    ∀ c ∈ (trimBlanks text).getLast?, isBlank c = false := by
  intro c hc
  obtain ⟨hne, hlast⟩ := List.mem_getLast?_eq_getLast hc
  have hback := List.rdropWhile_last_not isBlank (text.dropWhile isBlank) hne
  rw [hlast]
  exact Bool.eq_false_iff.mpr hback

/-! ## From the first to the last token -/

section Tokens

variable {offset : Nat} {text : List Char} {first : Token} {tokens : List Token}

/-- A text that does not start with a blank starts with its first token. -/
theorem start_of_tokensFrom (hhead : ∀ c ∈ text.head?, isBlank c = false)
    (h : tokensFrom offset text = .ok (first :: tokens)) : first.span.start = offset := by
  cases text with
  | nil => cases h
  | cons c text =>
      have hc : isBlank c = false := hhead c rfl
      rcases tokensFrom_cons h with ⟨hblank, -⟩ | ⟨lexeme, rest, -, -, hrest, htokens⟩
      · rw [hc] at hblank
        cases hblank
      · rcases Token.attach_eq ⟨lexeme, ⟨offset, c.utf8Size⟩⟩ rest with
          heq | ⟨next, more, joined, rfl, -, -, heq⟩
        · rw [heq] at htokens
          rw [(List.cons.inj htokens).1]
        · -- the next token starts after the character
          rw [heq] at htokens
          rw [(List.cons.inj htokens).1]
          have hnext := le_start_of_mem_tokensFrom hrest next List.mem_cons_self
          show min offset next.span.start = offset
          omega

/-- A token in front of others leaves them stopping where they did. -/
theorem exists_last_attach {token last : Token} (h : tokens.getLast? = some last) :
    ∃ final, (token.attach tokens).getLast? = some final ∧ final.span.stop = last.span.stop := by
  rcases token.attach_eq tokens with heq | ⟨next, more, joined, rfl, htouch, -, heq⟩
  · rw [heq, List.getLast?_cons, h]
    exact ⟨last, rfl, rfl⟩
  · rw [heq]
    cases more with
    | nil =>
        -- the only token has grown at its front
        rw [List.getLast?_singleton] at h
        refine ⟨_, List.getLast?_singleton, ?_⟩
        rw [← Option.some.inj h]
        simp only [Span.cover, Span.ofBounds, Span.stop] at htouch ⊢
        omega
    | cons other more =>
        rw [List.getLast?_cons_cons] at h ⊢
        exact ⟨last, h, rfl⟩

/-- A text that does not stop with a blank stops with its last token. -/
theorem stop_of_tokensFrom {c : Char} (hlast : text.getLast? = some c) (hc : isBlank c = false)
    (h : tokensFrom offset text = .ok tokens) :
    ∃ token, tokens.getLast? = some token ∧ token.span.stop = offset + byteLength text := by
  induction text generalizing offset tokens with
  | nil => cases hlast
  | cons d text ih =>
      have hlength : byteLength (d :: text) = d.utf8Size + byteLength text := rfl
      rw [hlength, ← Nat.add_assoc]
      cases text with
      | nil =>
          -- the only character is a token
          have hd : d = c := Option.some.inj hlast
          rcases tokensFrom_cons h with ⟨hblank, -⟩ | ⟨lexeme, rest, -, -, hrest, rfl⟩
          · rw [hd, hc] at hblank
            cases hblank
          · cases hrest
            exact ⟨_, rfl, rfl⟩
      | cons e text =>
          rw [List.getLast?_cons_cons] at hlast
          rcases tokensFrom_cons h with ⟨-, h⟩ | ⟨lexeme, rest, -, -, hrest, rfl⟩
          · exact ih hlast h
          · obtain ⟨token, htoken, hstop⟩ := ih hlast hrest
            obtain ⟨final, hfinal, hsame⟩ :=
              @exists_last_attach rest ⟨lexeme, ⟨offset, d.utf8Size⟩⟩ token htoken
            exact ⟨final, hfinal, hsame.trans hstop⟩

/-- The tokens of a text with no blanks around it reach from its start to its end. -/
theorem lineSpan_of_tokensFrom (hhead : ∀ c ∈ text.head?, isBlank c = false)
    (hlast : ∀ c ∈ text.getLast?, isBlank c = false)
    (h : tokensFrom offset text = .ok (first :: tokens)) :
    first.span.start = offset ∧ (tokens.getLastD first).span.stop = offset + byteLength text ∧
      Reading.lineSpan first tokens = ⟨offset, byteLength text⟩ := by
  have hstart := start_of_tokensFrom hhead h
  have hne : text ≠ [] := by
    rintro rfl
    cases h
  obtain ⟨front, c, htext⟩ := (List.eq_nil_or_concat text).resolve_left hne
  have hc : text.getLast? = some c := by
    rw [htext, List.concat_eq_append, List.getLast?_concat]
  obtain ⟨last, hlastToken, hstop⟩ := stop_of_tokensFrom hc (hlast c hc) h
  have hget : tokens.getLastD first = last := by
    rw [List.getLast?_cons] at hlastToken
    rw [List.getLastD_eq_getLast?]
    exact Option.some.inj hlastToken
  -- all tokens lie in the text
  have hinside : ∀ token ∈ first :: tokens, SourceLine.Holds ⟨offset, text⟩ token.span := by
    refine (places_of_tokensFrom (keepsPlaces_holds ⟨offset, text⟩).cover ?_).1 _ h
    intro before d after hsplit
    have hlength : byteLength text = byteLength before + (d.utf8Size + byteLength after) := by
      rw [hsplit, byteLength_append]
      rfl
    unfold SourceLine.Holds Span.stop
    dsimp only
    omega
  have hfirstInside := hinside first List.mem_cons_self
  have hlastInside := hinside last (List.mem_of_getLast? hlastToken)
  refine ⟨hstart, hget ▸ hstop, ?_⟩
  unfold Reading.lineSpan Span.cover Span.ofBounds
  rw [hget, Span.mk.injEq]
  simp only [SourceLine.Holds] at hfirstInside hlastInside
  omega

end Tokens

/-- What a line says: its text without the comment. -/
def SourceLine.said (line : SourceLine) : List Char := dropComment line.text

/-- The place of what a line says, without the blanks around it. -/
def SourceLine.extent (line : SourceLine) : Span :=
  ⟨line.offset + byteLength (line.said.takeWhile isBlank), byteLength (trimBlanks line.said)⟩

/-- Tokens are read from a line as from its text without the comment and the blanks around it. -/
theorem tokensOfLine_eq (line : SourceLine) :
    tokensOfLine line = tokensFrom line.extent.start (trimBlanks line.said) := by
  obtain ⟨back, hsaid, hback⟩ := exists_blanks_around line.said
  have hfront : ∀ c ∈ line.said.takeWhile isBlank, isBlank c = true :=
    fun c hc => List.mem_takeWhile_imp hc
  calc tokensOfLine line
      = tokensFrom line.offset (line.said.takeWhile isBlank ++ trimBlanks line.said ++ back) := by
        rw [← hsaid]
        rfl
    _ = tokensFrom line.extent.start (trimBlanks line.said) := by
        rw [tokensFrom_append_blanks hback, tokensFrom_blanks_append hfront]
        rfl

/-- The place of a line is that of its text from the first to the last token. -/
theorem lineSpan_eq_extent {line : SourceLine} {first : Token} {tokens : List Token}
    (h : tokensOfLine line = .ok (first :: tokens)) :
    first.span.start = line.extent.start ∧
      (tokens.getLastD first).span.stop = line.extent.stop ∧
      Reading.lineSpan first tokens = line.extent := by
  rw [tokensOfLine_eq] at h
  exact lineSpan_of_tokensFrom not_isBlank_head_trimBlanks not_isBlank_last_trimBlanks h

/-- The place of a line marks its text without the comment and the blanks around it. -/
theorem marks_extent {source : String} {line : SourceLine} (h : line ∈ sourceLines source) :
    line.extent.Marks source.toList (trimBlanks line.said) := by
  obtain ⟨comment, hcomment⟩ := exists_comment line.text
  obtain ⟨back, hsaid, -⟩ := exists_blanks_around line.said
  have htext : line.text =
      line.said.takeWhile isBlank ++ trimBlanks line.said ++ (back ++ comment) := by
    rw [← List.append_assoc, ← hsaid]
    exact hcomment
  exact SourceLine.marks_of_around h htext rfl rfl

/-! ## What a listing reports -/

/-- A diagnostic points at known places only: itself, and with its labels. -/
def Diagnostic.Within (known : Span → Prop) (diagnostic : Diagnostic) : Prop :=
  known diagnostic.span ∧ ∀ label ∈ diagnostic.labels, known label.1

theorem keepsPlaces_covers (line : SourceLine) : Reading.KeepsPlaces line.Covers where
  cover _ _ := SourceLine.Covers.cover
  atEnd _ := SourceLine.Covers.atEnd

theorem covers_said (line : SourceLine) : ∀ before c after,
    dropComment line.text = before ++ c :: after →
      line.Covers ⟨line.offset + byteLength before, c.utf8Size⟩ := by
  intro before c after hsaid
  obtain ⟨comment, hcomment⟩ := exists_comment line.text
  have htext : line.text = before ++ c :: (after ++ comment) := by
    rw [hcomment, hsaid, List.append_assoc]
    rfl
  exact SourceLine.covers_char htext

/-- Lines of a source report places in the source, if only such places are remembered when the first
of them is read. -/
theorem isPlaceIn_reports {source : String} {reading : Reading} {lines : List SourceLine}
    (hlines : lines ⊆ sourceLines source) (hsound : reading.Sound)
    (hremembers : reading.Remembers (Span.IsPlaceIn source)) :
    ∀ entries ∈ reading.reports lines, ∀ entry ∈ entries,
      entry.2.Within (Span.IsPlaceIn source) := by
  induction lines generalizing reading with
  | nil => exact fun entries hentries => absurd hentries List.not_mem_nil
  | cons line lines ih =>
      obtain ⟨hline, hrest⟩ := List.cons_subset.mp hlines
      have hknown : ∀ span, line.Covers span → span.IsPlaceIn source :=
        fun _ => SourceLine.isPlaceIn_of_covers hline
      have hnext : (reading.readLine line).Remembers (Span.IsPlaceIn source) :=
        hremembers.readLine hsound (keepsPlaces_covers line) hknown (covers_said line)
      intro entries hentries
      rcases List.mem_cons.mp hentries with rfl | hentries
      · intro entry hentry
        obtain ⟨hspan, hlabels⟩ := Reading.places_of_mem_entries (keepsPlaces_covers line) hknown
          (covers_said line) hremembers entry hentry
        exact ⟨hknown _ hspan, hlabels⟩
      · exact ih hrest (hsound.readLine line) hnext entries hentries

/-- Everything that is reported while a listing is read is at a place in its source. -/
theorem isPlaceIn_of_mem_diagnostics {source : String} {entry : Severity × Diagnostic}
    (h : entry ∈ (readListing source).diagnostics) : entry.2.Within (Span.IsPlaceIn source) := by
  rw [diagnostics_readListing] at h
  obtain ⟨entries, hentries, hentry⟩ := List.mem_flatten.mp h
  exact isPlaceIn_reports (List.Subset.refl _) Reading.sound_start (Reading.remembers_start _)
    entries hentries entry hentry

end BufferPromotion
