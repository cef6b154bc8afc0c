import BufferPromotion.Proofs.Listing.Places
import BufferPromotion.Proofs.Listing.Relocation.Line

/-! # How tokens cover a line

The tokens of a line are laid out in it one after the other, with nothing but blanks around them,
and each one is as long as it can be. The main statement (`tokensOfLine_covers_line`) says so of
every line at every offset, and says which lines have tokens at all: those whose characters before
the comment are all blank, signs, or characters of words. The first other character is where the
diagnostic of any other line points.

Tokens are attached from the right, character by character, so the layout (`Laid`) is shown for the
rest of a text first. A word character in front then makes the first token longer if that token
starts with a word character too, and is a token of its own if it does not.
-/

set_option autoImplicit false

namespace BufferPromotion

/-! ## Characters and kinds of tokens -/

/-- A character that a line may have outside its comment. -/
def IsListingChar (c : Char) : Prop :=
  isBlank c = true ∨ c ∈ [',', ':', '=', '?', '%'] ∨ Lexeme.belongsToWord c = true

instance : DecidablePred IsListingChar := fun _ => inferInstanceAs (Decidable (_ ∨ _ ∨ _))

/-- The kinds of tokens. -/
inductive LexemeKind where
  | word
  | value
  | comma
  | colon
  | equals
  | question
  deriving DecidableEq, Repr

/-- The kind of the tokens that start with a character. -/
def LexemeKind.startedBy (c : Char) : LexemeKind :=
  if c = ',' then comma
  else if c = ':' then colon
  else if c = '=' then equals
  else if c = '?' then question
  else if c = '%' then value
  else word

/-- None of the signs is a character of words. -/
theorem LexemeKind.startedBy_of_belongsToWord {c : Char} (h : Lexeme.belongsToWord c = true) :
    startedBy c = word := by
  have hne : ∀ sign : Char, Lexeme.belongsToWord sign = false → c ≠ sign := by
    rintro sign hsign rfl
    rw [h] at hsign
    cases hsign
  simp only [startedBy, hne ',' (by decide), hne ':' (by decide), hne '=' (by decide),
    hne '?' (by decide), hne '%' (by decide), if_false]

namespace Lexeme

def kind : Lexeme → LexemeKind
  | word _ => .word
  | value _ => .value
  | comma => .comma
  | colon => .colon
  | equals => .equals
  | question => .question

/-- Whether a word right after a token would belong to it. -/
def IsOpen (lexeme : Lexeme) : Prop := lexeme.kind = .word ∨ lexeme.kind = .value

theorem ofChar?_eq_none_iff {c : Char} (hblank : isBlank c = false) :
    ofChar? c = none ↔ ¬ IsListingChar c := by
  simp only [ofChar?, IsListingChar, hblank, beq_iff_eq, List.mem_cons, List.not_mem_nil]
  split_ifs <;> simp_all

/-- What a single character says has that character as its text. -/
theorem text_of_ofChar? {c : Char} {lexeme : Lexeme} (h : ofChar? c = some lexeme) :
    lexeme.text.toList = [c] := by
  unfold ofChar? at h
  simp only [beq_iff_eq] at h
  split_ifs at h <;> cases h <;> subst_vars <;> simp [text]

/-- Only an open lexeme is made longer by another one. -/
theorem isOpen_of_continued? {lexeme next joined : Lexeme}
    (h : lexeme.continued? next = some joined) :
    lexeme.IsOpen ∧ joined.text = lexeme.text ++ next.text := by
  unfold continued? at h
  split at h
  · cases h
    exact ⟨Or.inl rfl, rfl⟩
  · cases h
    exact ⟨Or.inr rfl, (String.append_assoc ..).symm⟩
  · cases h

theorem exists_continued? {lexeme : Lexeme} (h : lexeme.IsOpen) (text : String) :
    ∃ joined, lexeme.continued? (.word text) = some joined := by
  cases lexeme with
  | word first => exact ⟨_, rfl⟩
  | value name => exact ⟨_, rfl⟩
  | comma | colon | equals | question => rcases h with h | h <;> cases h

/-- The text of a plain lexeme starts with a character that tells its kind, and has no blank. -/
theorem Plain.text_eq_cons {lexeme : Lexeme} (hplain : lexeme.Plain) :
    ∃ c more, lexeme.text.toList = c :: more ∧ LexemeKind.startedBy c = lexeme.kind ∧
      ∀ d ∈ c :: more, isBlank d = false := by
  cases lexeme with
  | word text =>
      obtain ⟨c, more, htext⟩ := List.exists_cons_of_ne_nil hplain.nonempty
      have hchars := hplain.chars
      rw [htext] at hchars
      refine ⟨c, more, htext, ?_, fun d hd => isBlank_of_belongsToWord (hchars d hd)⟩
      exact LexemeKind.startedBy_of_belongsToWord (hchars c List.mem_cons_self)
  | value name =>
      refine ⟨'%', name.toList, by simp [text], rfl, ?_⟩
      intro d hd
      rcases List.mem_cons.mp hd with rfl | hd
      · decide
      · exact isBlank_of_belongsToWord (hplain d hd)
  | comma => exact ⟨',', [], rfl, rfl, List.forall_mem_singleton.mpr rfl⟩
  | colon => exact ⟨':', [], rfl, rfl, List.forall_mem_singleton.mpr rfl⟩
  | equals => exact ⟨'=', [], rfl, rfl, List.forall_mem_singleton.mpr rfl⟩
  | question => exact ⟨'?', [], rfl, rfl, List.forall_mem_singleton.mpr rfl⟩

end Lexeme

/-! ## Tokens that are laid out in a text -/

/-- Tokens are laid out in a text that starts at an offset: there are only blanks around them, and
a word or a value ends before a character that would not continue it. -/
inductive Laid : Nat → List Char → List Token → Prop
  | nil (offset : Nat) : Laid offset [] []
  | blank {offset : Nat} {c : Char} {text : List Char} {tokens : List Token}
      (hblank : isBlank c = true) (h : Laid (offset + c.utf8Size) text tokens) :
      Laid offset (c :: text) tokens
  | token {offset : Nat} {lexeme : Lexeme} {text : List Char} {tokens : List Token}
      (hplain : lexeme.Plain) (hends : lexeme.IsOpen → Interrupts text)
      (h : Laid (offset + byteLength lexeme.text.toList) text tokens) :
      Laid offset (lexeme.text.toList ++ text)
        (⟨lexeme, ⟨offset, byteLength lexeme.text.toList⟩⟩ :: tokens)

/-- A character of words starts a word. -/
theorem Laid.exists_word {offset : Nat} {c : Char} {text : List Char} {tokens : List Token}
    (h : Laid offset (c :: text) tokens) (hc : Lexeme.belongsToWord c = true) :
    ∃ word more rest, c :: text = word.toList ++ more ∧ IsWord word ∧ Interrupts more ∧
      Laid (offset + byteLength word.toList) more rest ∧
      tokens = ⟨.word word, ⟨offset, byteLength word.toList⟩⟩ :: rest := by
  generalize htext : c :: text = whole at h
  cases h with
  | nil => cases htext
  | blank hblank _ =>
      cases htext
      rw [Lexeme.isBlank_of_belongsToWord hc] at hblank
      cases hblank
  | @token _ lexeme more rest hplain hends h =>
      obtain ⟨d, chars, hchars, hkind, -⟩ := hplain.text_eq_cons
      rw [hchars] at htext
      obtain rfl : c = d := (List.cons.inj htext).1
      rw [LexemeKind.startedBy_of_belongsToWord hc] at hkind
      cases lexeme with
      | word word =>
          exact ⟨word, more, rest, rfl, hplain, hends (Or.inl rfl), h, rfl⟩
      | value name | comma | colon | equals | question => cases hkind

/-- Two tokens that touch, the second one going on with the first. -/
theorem Token.attach_of_continued? {lexeme next joined : Lexeme} {offset size length : Nat}
    {rest : List Token} (h : lexeme.continued? next = some joined) :
    Token.attach ⟨lexeme, ⟨offset, size⟩⟩ (⟨next, ⟨offset + size, length⟩⟩ :: rest) =
      ⟨joined, ⟨offset, size + length⟩⟩ :: rest := by
  have htouch : Span.stop ⟨offset, size⟩ = offset + size := rfl
  have hcover : Span.cover ⟨offset, size⟩ ⟨offset + size, length⟩ = ⟨offset, size + length⟩ := by
    simp only [Span.cover, Span.ofBounds, Span.stop, Span.mk.injEq]
    omega
  unfold Token.attach
  dsimp only
  rw [if_pos htouch, h, hcover]

/-- A character in front of laid out tokens is attached to them. -/
theorem Laid.attach {offset : Nat} {c : Char} {text : List Char} {tokens : List Token}
    {lexeme : Lexeme} (hchar : Lexeme.ofChar? c = some lexeme)
    (htokens : tokensFrom (offset + c.utf8Size) text = .ok tokens)
    (h : Laid (offset + c.utf8Size) text tokens) :
    Laid offset (c :: text) (Token.attach ⟨lexeme, ⟨offset, c.utf8Size⟩⟩ tokens) := by
  have hplain := Lexeme.plain_of_ofChar? hchar
  have htext := Lexeme.text_of_ofChar? hchar
  have hlength : byteLength lexeme.text.toList = c.utf8Size := by
    rw [htext]
    exact Nat.add_zero _
  by_cases hends : lexeme.IsOpen → Interrupts text
  · -- the character is a token of its own
    have hattach : Token.attach ⟨lexeme, ⟨offset, c.utf8Size⟩⟩ tokens =
        ⟨lexeme, ⟨offset, c.utf8Size⟩⟩ :: tokens := by
      rcases Token.attach_eq ⟨lexeme, ⟨offset, c.utf8Size⟩⟩ tokens with
        heq | ⟨next, rest, joined, -, -, hjoined, -⟩
      · exact heq
      · have hopen := (Lexeme.isOpen_of_continued? hjoined).1
        exact Token.attach_of_detached (detached_tokensFrom (hends hopen) htokens)
    rw [hattach, ← hlength, ← List.singleton_append, ← htext]
    exact .token hplain hends (hlength ▸ h)
  · -- the token goes on with a word
    obtain ⟨hopen, hgoes⟩ := Classical.not_imp.mp hends
    obtain ⟨d, more, rfl, hd⟩ : ∃ d more, text = d :: more ∧ Lexeme.belongsToWord d = true := by
      cases text with
      | nil => exact absurd nofun hgoes
      | cons d more =>
          refine ⟨d, more, rfl, ?_⟩
          by_contra hd
          exact hgoes fun e he => Option.some.inj he ▸ Bool.eq_false_iff.mpr hd
    obtain ⟨word, rest, later, hrest, hword, hends, hlater, rfl⟩ := h.exists_word hd
    obtain ⟨joined, hjoined⟩ := Lexeme.exists_continued? hopen word
    obtain ⟨-, hjoinedText⟩ := Lexeme.isOpen_of_continued? hjoined
    have hjoinedList : joined.text.toList = c :: word.toList := by
      rw [hjoinedText, String.toList_append, htext]
      rfl
    have hjoinedLength : byteLength joined.text.toList = c.utf8Size + byteLength word.toList := by
      rw [hjoinedList]
      rfl
    rw [Token.attach_of_continued? hjoined, hrest, ← List.cons_append, ← hjoinedList,
      ← hjoinedLength]
    have hjoinedPlain : joined.Plain :=
      Lexeme.plain_of_continued? hplain (show (Lexeme.word word).Plain from hword) hjoined
    refine .token hjoinedPlain (fun _ => hends) ?_
    rw [hjoinedLength, ← Nat.add_assoc]
    exact hlater

/-- Tokens are laid out in the text they are read from. -/
theorem laid_of_tokensFrom {offset : Nat} {text : List Char} {tokens : List Token}
    (h : tokensFrom offset text = .ok tokens) : Laid offset text tokens := by
  induction text generalizing offset tokens with
  | nil =>
      cases h
      exact .nil offset
  | cons c text ih =>
      rcases tokensFrom_cons h with ⟨hblank, h⟩ | ⟨lexeme, rest, -, hchar, hrest, rfl⟩
      · exact .blank hblank (ih h)
      · exact (ih hrest).attach hchar hrest

/-! ## What the layout says -/

/-- Tokens cover a text that starts at an offset. Together with the order of the tokens, the places
that they stand at say that each token is read from the text where it is. -/
structure TokensCover (offset : Nat) (text : List Char) (tokens : List Token) : Prop where
  /-- Only blanks are left out. -/
  texts : tokens.flatMap (·.text.toList) = text.filter (!isBlank ·)
  /-- A token has the place of its text, and a word or a value is as long as it can be. -/
  stands : ∀ token ∈ tokens, ∃ before after, text = before ++ token.text.toList ++ after ∧
    token.span = ⟨offset + byteLength before, byteLength token.text.toList⟩ ∧
    (token.lexeme.IsOpen → Interrupts after)
  nonempty : ∀ token ∈ tokens, token.span.start < token.span.stop
  ordered : tokens.Pairwise fun token next => token.span.stop ≤ next.span.start
  kind : ∀ token ∈ tokens, ∃ c more, token.text.toList = c :: more ∧
    token.lexeme.kind = LexemeKind.startedBy c
  plain : ∀ token ∈ tokens, token.lexeme.Plain

namespace Laid

variable {offset : Nat} {text : List Char} {tokens : List Token}

theorem texts (h : Laid offset text tokens) :
    tokens.flatMap (·.text.toList) = text.filter (!isBlank ·) := by
  induction h with
  | nil => rfl
  | blank hblank _ ih =>
      rw [List.filter_cons_of_neg (by rw [hblank]; exact Bool.false_ne_true)]
      exact ih
  | @token _ lexeme _ _ hplain _ _ ih =>
      obtain ⟨c, more, hchars, -, hblank⟩ := hplain.text_eq_cons
      have hkeep : lexeme.text.toList.filter (!isBlank ·) = lexeme.text.toList := by
        rw [List.filter_eq_self, hchars]
        intro d hd
        rw [hblank d hd]
        rfl
      rw [List.filter_append, hkeep, List.flatMap_cons, ih]
      rfl

theorem plain (h : Laid offset text tokens) : ∀ token ∈ tokens, token.lexeme.Plain := by
  induction h with
  | nil => exact nofun
  | blank _ _ ih => exact ih
  | token hplain _ _ ih => exact List.forall_mem_cons.mpr ⟨hplain, ih⟩

theorem stands (h : Laid offset text tokens) :
    ∀ token ∈ tokens, ∃ before after, text = before ++ token.text.toList ++ after ∧
      token.span = ⟨offset + byteLength before, byteLength token.text.toList⟩ ∧
      (token.lexeme.IsOpen → Interrupts after) := by
  -- what stands in front of a text moves a token of it by as many bytes
  have hbehind : ∀ {offset : Nat} {front text : List Char} {token : Token},
      (∃ before after, text = before ++ token.text.toList ++ after ∧
        token.span = ⟨offset + byteLength front + byteLength before,
          byteLength token.text.toList⟩ ∧ (token.lexeme.IsOpen → Interrupts after)) →
      ∃ before after, front ++ text = before ++ token.text.toList ++ after ∧
        token.span = ⟨offset + byteLength before, byteLength token.text.toList⟩ ∧
        (token.lexeme.IsOpen → Interrupts after) := by
    rintro offset front text token ⟨before, after, htext, hspan, hends⟩
    refine ⟨front ++ before, after, ?_, ?_, hends⟩
    · rw [htext, List.append_assoc, List.append_assoc, List.append_assoc]
    · rw [hspan, byteLength_append, Nat.add_assoc]
  induction h with
  | nil => exact nofun
  | @blank _ c text _ _ _ ih =>
      have hlength : byteLength [c] = c.utf8Size := Nat.add_zero _
      intro token htoken
      exact @hbehind _ [c] text token (hlength ▸ ih token htoken)
  | token _ hends _ ih =>
      intro token htoken
      rcases List.mem_cons.mp htoken with rfl | htoken
      · exact ⟨[], _, rfl, rfl, hends⟩
      · exact hbehind (ih token htoken)

theorem ordered (h : Laid offset text tokens) :
    tokens.Pairwise fun token next => token.span.stop ≤ next.span.start := by
  induction h with
  | nil => exact .nil
  | blank _ _ ih => exact ih
  | token _ _ h ih =>
      refine .cons (fun next hnext => ?_) ih
      obtain ⟨before, after, -, hspan, -⟩ := h.stands next hnext
      rw [hspan]
      exact Nat.le_add_right _ _

theorem tokensCover (h : Laid offset text tokens) : TokensCover offset text tokens where
  texts := h.texts
  stands := h.stands
  nonempty token htoken := by
    obtain ⟨before, after, -, hspan, -⟩ := h.stands token htoken
    obtain ⟨c, more, hchars, -⟩ := (h.plain token htoken).text_eq_cons
    have hpos : 0 < byteLength token.text.toList := by
      refine Nat.pos_of_ne_zero fun hzero => ?_
      rw [show token.text.toList = c :: more from hchars] at hzero
      exact List.cons_ne_nil _ _ (eq_nil_of_byteLength hzero)
    rw [hspan]
    exact Nat.lt_add_of_pos_right hpos
  ordered := h.ordered
  kind token htoken := by
    obtain ⟨c, more, hchars, hkind, -⟩ := (h.plain token htoken).text_eq_cons
    exact ⟨c, more, hchars, hkind.symm⟩
  plain := h.plain

end Laid

/-! ## Which texts have tokens -/

/-- A text has tokens if its characters are those of listings. -/
theorem exists_tokens_of_forall {text : List Char} (h : ∀ c ∈ text, IsListingChar c)
    (offset : Nat) : ∃ tokens, tokensFrom offset text = .ok tokens := by
  induction text generalizing offset with
  | nil => exact ⟨[], rfl⟩
  | cons c text ih =>
      rw [List.forall_mem_cons] at h
      obtain ⟨rest, hrest⟩ := ih h.2 (offset + c.utf8Size)
      rw [tokensFrom, hrest]
      split
      · exact ⟨rest, rfl⟩
      · next hblank =>
        cases hchar : Lexeme.ofChar? c with
        | none =>
            exact absurd h.1 ((Lexeme.ofChar?_eq_none_iff (Bool.eq_false_iff.mpr hblank)).mp hchar)
        | some lexeme => exact ⟨_, rfl⟩

/-- The diagnostic of any other text is about the first character that is none of listings. -/
theorem tokensFrom_of_append {before : List Char} (hbefore : ∀ c ∈ before, IsListingChar c)
    {c : Char} (hc : ¬ IsListingChar c) (after : List Char) (offset : Nat) :
    tokensFrom offset (before ++ c :: after) =
      .error ⟨.unexpectedToken (String.singleton c) [],
        ⟨offset + byteLength before, c.utf8Size⟩, []⟩ := by
  induction before generalizing offset with
  | nil =>
      have hblank : ¬ isBlank c = true := fun h => hc (Or.inl h)
      have hchar := (Lexeme.ofChar?_eq_none_iff (Bool.eq_false_iff.mpr hblank)).mpr hc
      rw [List.nil_append, tokensFrom, if_neg hblank, hchar]
      rfl
  | cons d before ih =>
      rw [List.forall_mem_cons] at hbefore
      have hlength : byteLength (d :: before) = d.utf8Size + byteLength before := rfl
      rw [List.cons_append, tokensFrom, ih hbefore.2, hlength, Nat.add_assoc]
      split
      · rfl
      · next hblank =>
        cases hchar : Lexeme.ofChar? d with
        | none =>
            exact absurd hbefore.1
              ((Lexeme.ofChar?_eq_none_iff (Bool.eq_false_iff.mpr hblank)).mp hchar)
        | some lexeme => rfl

/-- A text with any other character has a first one. -/
theorem exists_first_of_not_forall {text : List Char} (h : ¬ ∀ c ∈ text, IsListingChar c) :
    ∃ before c after, text = before ++ c :: after ∧ (∀ d ∈ before, IsListingChar d) ∧
      ¬ IsListingChar c := by
  induction text with
  | nil => exact absurd nofun h
  | cons c text ih =>
      by_cases hc : IsListingChar c
      · obtain ⟨before, d, after, htext, hbefore, hd⟩ :=
          ih fun hall => h (List.forall_mem_cons.mpr ⟨hc, hall⟩)
        exact ⟨c :: before, d, after, by rw [htext]; rfl,
          List.forall_mem_cons.mpr ⟨hc, hbefore⟩, hd⟩
      · exact ⟨[], c, text, rfl, nofun, hc⟩

/-- A line is said up to its first two slashes. -/
theorem SourceLine.said_spec (line : SourceLine) :
    (∃ comment, line.text = line.said ++ comment ∧
      (comment = [] ∨ ∃ rest, comment = '/' :: '/' :: rest)) ∧
    ∀ before after, line.text = before ++ '/' :: '/' :: after →
      line.said.length ≤ before.length := by
  have hsaid : ∀ text : List Char,
      (∃ comment, text = dropComment text ++ comment ∧
        (comment = [] ∨ ∃ rest, comment = '/' :: '/' :: rest)) ∧
      ∀ before after, text = before ++ '/' :: '/' :: after →
        (dropComment text).length ≤ before.length := by
    intro text
    fun_induction dropComment text with
    | case1 => exact ⟨⟨[], rfl, Or.inl rfl⟩, fun before after h => by simp at h⟩
    | case2 rest => exact ⟨⟨_, rfl, Or.inr ⟨rest, rfl⟩⟩, fun before after _ => Nat.zero_le _⟩
    | case3 c rest hslash ih =>
        obtain ⟨⟨comment, hrest, hcomment⟩, hleast⟩ := ih
        refine ⟨⟨comment, congrArg (List.cons c) hrest, hcomment⟩, ?_⟩
        intro before after h
        cases before with
        | nil =>
            obtain ⟨rfl, rfl⟩ := List.cons.inj h
            exact absurd rfl (hslash after rfl)
        | cons d before => exact Nat.succ_le_succ (hleast before after (List.cons.inj h).2)
  exact hsaid line.text

/-- **The tokens of a line cover it exactly.** A line says its text up to the first two slashes.
It has tokens if and only if every character of that part is blank, one of the five signs, or a
character of words. The tokens then cover that part: their texts are what is left of it without
the blanks, each has the place of its text, one comes after the other, words and values are as long
as they can be, and the first character tells the kind. Otherwise the diagnostic is at the first
character that is none of these. Another offset only shifts the places. -/
theorem tokensOfLine_covers_line (line : SourceLine) :
    ((∃ comment, line.text = line.said ++ comment ∧
        (comment = [] ∨ ∃ rest, comment = '/' :: '/' :: rest)) ∧
      ∀ before after, line.text = before ++ '/' :: '/' :: after →
        line.said.length ≤ before.length) ∧
    ((∃ tokens, tokensOfLine line = .ok tokens) ↔ ∀ c ∈ line.said, IsListingChar c) ∧
    (∀ tokens, tokensOfLine line = .ok tokens → TokensCover line.offset line.said tokens) ∧
    (∀ diagnostic, tokensOfLine line = .error diagnostic →
      ∃ before c after, line.said = before ++ c :: after ∧ (∀ d ∈ before, IsListingChar d) ∧
        ¬ IsListingChar c ∧
        diagnostic = ⟨.unexpectedToken (String.singleton c) [],
          ⟨line.offset + byteLength before, c.utf8Size⟩, []⟩) ∧
    ∀ bytes, tokensOfLine (line.shift bytes) =
      relocated (Span.shift bytes) (Span.shift bytes)
        (List.map (Token.relocate (Span.shift bytes))) (tokensOfLine line) := by
  have hfault : ¬ (∀ c ∈ line.said, IsListingChar c) →
      ∃ before c after, line.said = before ++ c :: after ∧ (∀ d ∈ before, IsListingChar d) ∧
        ¬ IsListingChar c ∧
        tokensOfLine line = .error ⟨.unexpectedToken (String.singleton c) [],
          ⟨line.offset + byteLength before, c.utf8Size⟩, []⟩ := by
    intro hnot
    obtain ⟨before, c, after, hsaid, hbefore, hc⟩ := exists_first_of_not_forall hnot
    refine ⟨before, c, after, hsaid, hbefore, hc, ?_⟩
    show tokensFrom line.offset line.said = _
    rw [hsaid]
    exact tokensFrom_of_append hbefore hc after line.offset
  refine ⟨line.said_spec, ⟨?_, fun h => exists_tokens_of_forall h line.offset⟩,
    fun tokens h => (laid_of_tokensFrom h).tokensCover, ?_,
    fun bytes => tokensOfLine_shift (Span.shift bytes) line⟩
  · rintro ⟨tokens, htokens⟩
    by_contra hnot
    obtain ⟨before, c, after, -, -, -, herror⟩ := hfault hnot
    rw [herror] at htokens
    cases htokens
  · intro diagnostic herror
    have hnot : ¬ ∀ c ∈ line.said, IsListingChar c := by
      intro hall
      obtain ⟨tokens, htokens⟩ := exists_tokens_of_forall hall line.offset
      rw [show tokensOfLine line = .ok tokens from htokens] at herror
      cases herror
    obtain ⟨before, c, after, hsaid, hbefore, hc, heq⟩ := hfault hnot
    rw [heq] at herror
    exact ⟨before, c, after, hsaid, hbefore, hc, (Except.error.inj herror).symm⟩

/-- A blank of three bytes, a value without a name, and a comment that touches a word. -/
example : tokensOfLine ⟨7, "\u3000%,a.b//c".toList⟩ =
    .ok [⟨.value "", ⟨10, 1⟩⟩, ⟨.comma, ⟨11, 1⟩⟩, ⟨.word "a.b", ⟨12, 3⟩⟩] := by
  rfl

end BufferPromotion
