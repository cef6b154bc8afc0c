import BufferPromotion.Listing.Token

/-! # The tokens of spaced lexemes

Every token of a line is *plain*: its word has only characters of words. Conversely, plain
lexemes that are written one after the other, with a blank before each of them except before a
comma, are read back as they were (`exists_tokens_of_spaced`). The blank comes first, so that the
text after a lexeme never starts with a character that would continue it.
-/

set_option autoImplicit false

namespace BufferPromotion

/-- A text that is read as one word. -/
structure IsWord (text : String) : Prop where
  nonempty : text.toList ≠ []
  chars : ∀ c ∈ text.toList, Lexeme.belongsToWord c = true

instance (text : String) : Decidable (IsWord text) :=
  decidable_of_iff (text.toList ≠ [] ∧ text.toList.all Lexeme.belongsToWord = true)
    ⟨fun h => ⟨h.1, List.all_eq_true.mp h.2⟩, fun h => ⟨h.nonempty, List.all_eq_true.mpr h.chars⟩⟩

namespace Lexeme

/-- A word is a word, and so is the name of a value if it is not empty. -/
def Plain : Lexeme → Prop
  | word text => IsWord text
  | value name => ∀ c ∈ name.toList, belongsToWord c = true
  | _ => True

instance : DecidablePred Plain
  | word text => inferInstanceAs (Decidable (IsWord text))
  | value name => decidable_of_iff (name.toList.all belongsToWord = true) List.all_eq_true
  | comma | colon | equals | question => isTrue trivial

/-- The text of a lexeme after another one. -/
def spaced : Lexeme → List Char
  | comma => [',']
  | lexeme => ' ' :: lexeme.text.toList

/-! ## Characters -/

theorem isBlank_of_belongsToWord {c : Char} (h : belongsToWord c = true) : isBlank c = false := by
  -- the characters of words lie between the dot and the letter z, and blanks do not
  have hrange : 46 ≤ c.toNat ∧ c.toNat ≤ 122 := by
    unfold belongsToWord Char.isAlphanum Char.isAlpha Char.isUpper Char.isLower Char.isDigit at h
    simp only [Bool.or_eq_true, Bool.and_eq_true, decide_eq_true_eq, beq_iff_eq,
      UInt32.le_iff_toNat_le, ge_iff_le] at h
    rcases h with (((⟨h1, h2⟩ | ⟨h1, h2⟩) | ⟨h1, h2⟩) | rfl) | rfl
    · exact ⟨Nat.le_trans (by decide) h1, Nat.le_trans h2 (by decide)⟩
    · exact ⟨Nat.le_trans (by decide) h1, Nat.le_trans h2 (by decide)⟩
    · exact ⟨Nat.le_trans (by decide) h1, Nat.le_trans h2 (by decide)⟩
    · decide
    · decide
  obtain ⟨hlow, hhigh⟩ := hrange
  simp [isBlank, blankRanges]
  omega

theorem ofChar?_of_belongsToWord {c : Char} (h : belongsToWord c = true) :
    ofChar? c = some (word (String.ofList [c])) := by
  have hne : ∀ sign : Char, belongsToWord sign = false → (c == sign) = false := by
    intro sign hsign
    rw [beq_eq_false_iff_ne]
    rintro rfl
    rw [h] at hsign
    cases hsign
  simp only [ofChar?, hne ',' (by decide), hne ':' (by decide), hne '=' (by decide),
    hne '?' (by decide), hne '%' (by decide), h, if_true, Bool.false_eq_true, if_false,
    String.singleton_eq_ofList]

/-- What a single character says is plain. -/
theorem plain_of_ofChar? {c : Char} {lexeme : Lexeme} (h : ofChar? c = some lexeme) :
    lexeme.Plain := by
  unfold ofChar? at h
  split at h
  · cases h; trivial
  split at h
  · cases h; trivial
  split at h
  · cases h; trivial
  split at h
  · cases h; trivial
  split at h
  · cases h
    intro c hc
    cases hc
  split at h
  · next hword =>
    cases h
    rw [String.singleton_eq_ofList]
    constructor
    · rw [String.toList_ofList]
      exact List.cons_ne_nil _ _
    · intro d hd
      rw [String.toList_ofList, List.mem_singleton] at hd
      rw [hd, hword]
  · cases h

theorem plain_of_continued? {a b lexeme : Lexeme} (ha : a.Plain) (hb : b.Plain)
    (h : a.continued? b = some lexeme) : lexeme.Plain := by
  unfold continued? at h
  split at h
  · next first second =>
    cases h
    constructor
    · rw [String.toList_append]
      exact fun hnil => ha.nonempty (List.append_eq_nil_iff.mp hnil).1
    · intro c hc
      rw [String.toList_append] at hc
      rcases List.mem_append.mp hc with hc | hc
      · exact ha.chars c hc
      · exact hb.chars c hc
  · next first second =>
    cases h
    intro c hc
    rw [String.toList_append] at hc
    rcases List.mem_append.mp hc with hc | hc
    · exact ha c hc
    · exact hb.chars c hc
  · cases h

end Lexeme

/-! ## Every token is plain -/

/-- What is attached to other tokens is a token of its own or one with the first of them. -/
theorem Token.attach_eq (token : Token) (tokens : List Token) :
    token.attach tokens = token :: tokens ∨
      ∃ next rest lexeme, tokens = next :: rest ∧ token.span.stop = next.span.start ∧
        token.lexeme.continued? next.lexeme = some lexeme ∧
        token.attach tokens = ⟨lexeme, token.span.cover next.span⟩ :: rest := by
  unfold Token.attach
  split
  · exact Or.inl rfl
  · next next rest =>
    split
    · next htouch =>
      cases hlexeme : token.lexeme.continued? next.lexeme with
      | none => exact Or.inl rfl
      | some lexeme => exact Or.inr ⟨next, rest, lexeme, rfl, htouch, hlexeme, rfl⟩
    · exact Or.inl rfl

/-- The tokens of a text, its first character at the front. -/
theorem tokensFrom_cons {offset : Nat} {c : Char} {text : List Char} {tokens : List Token}
    (h : tokensFrom offset (c :: text) = .ok tokens) :
    (isBlank c = true ∧ tokensFrom (offset + c.utf8Size) text = .ok tokens) ∨
      ∃ lexeme rest, isBlank c = false ∧ Lexeme.ofChar? c = some lexeme ∧
        tokensFrom (offset + c.utf8Size) text = .ok rest ∧
        tokens = Token.attach ⟨lexeme, ⟨offset, c.utf8Size⟩⟩ rest := by
  unfold tokensFrom at h
  split at h
  · next hblank => exact Or.inl ⟨hblank, h⟩
  · next hblank =>
    split at h
    · cases h
    · next lexeme hlexeme =>
      cases hrest : tokensFrom (offset + c.utf8Size) text with
      | error e =>
          rw [hrest] at h
          cases h
      | ok rest =>
          rw [hrest] at h
          cases h
          exact Or.inr ⟨lexeme, rest, Bool.eq_false_iff.mpr hblank, hlexeme, rfl, rfl⟩

theorem plain_of_mem_tokensFrom {offset : Nat} {text : List Char} {tokens : List Token}
    (h : tokensFrom offset text = .ok tokens) : ∀ token ∈ tokens, token.lexeme.Plain := by
  induction text generalizing offset tokens with
  | nil =>
      cases h
      exact fun token htoken => absurd htoken List.not_mem_nil
  | cons c text ih =>
      rcases tokensFrom_cons h with ⟨-, h⟩ | ⟨lexeme, rest, -, hlexeme, hrest, rfl⟩
      · exact ih h
      · have hplain := Lexeme.plain_of_ofChar? hlexeme
        intro token htoken
        rcases Token.attach_eq ⟨lexeme, ⟨offset, c.utf8Size⟩⟩ rest with
          heq | ⟨next, more, joined, rfl, -, hjoined, heq⟩
        · rw [heq] at htoken
          rcases List.mem_cons.mp htoken with rfl | htoken
          · exact hplain
          · exact ih hrest token htoken
        · rw [heq] at htoken
          rcases List.mem_cons.mp htoken with rfl | htoken
          · exact Lexeme.plain_of_continued? hplain (ih hrest next List.mem_cons_self) hjoined
          · exact ih hrest token (List.mem_cons_of_mem _ htoken)

/-! ## What is not read -/

theorem exists_comment (text : List Char) : ∃ comment, text = dropComment text ++ comment := by
  fun_induction dropComment text with
  | case1 => exact ⟨[], rfl⟩
  | case2 rest => exact ⟨'/' :: '/' :: rest, rfl⟩
  | case3 c rest hslash ih =>
      obtain ⟨comment, hrest⟩ := ih
      exact ⟨comment, congrArg (List.cons c) hrest⟩

theorem dropComment_subset (text : List Char) : dropComment text ⊆ text := by
  obtain ⟨comment, htext⟩ := exists_comment text
  intro c hc
  rw [htext]
  exact List.mem_append_left _ hc

/-- Blanks in front of a text move its tokens. -/
theorem tokensFrom_blanks_append {blanks : List Char} (h : ∀ c ∈ blanks, isBlank c = true)
    (offset : Nat) (text : List Char) :
    tokensFrom offset (blanks ++ text) = tokensFrom (offset + byteLength blanks) text := by
  induction blanks generalizing offset with
  | nil => rfl
  | cons c blanks ih =>
      rw [List.forall_mem_cons] at h
      have hlength : byteLength (c :: blanks) = c.utf8Size + byteLength blanks := rfl
      rw [List.cons_append, tokensFrom, if_pos h.1, ih h.2, hlength, Nat.add_assoc]

theorem tokensFrom_blank {text : List Char} (h : ∀ c ∈ text, isBlank c = true) (offset : Nat) :
    tokensFrom offset text = .ok [] := by
  rw [← List.append_nil text, tokensFrom_blanks_append h]
  rfl

/-- Blanks at the end of a text say nothing. -/
theorem tokensFrom_append_blanks {blanks : List Char} (h : ∀ c ∈ blanks, isBlank c = true)
    (offset : Nat) (text : List Char) :
    tokensFrom offset (text ++ blanks) = tokensFrom offset text := by
  induction text generalizing offset with
  | nil => exact tokensFrom_blank h offset
  | cons c text ih =>
      rw [List.cons_append]
      unfold tokensFrom
      rw [ih]

/-! ## Where tokens are -/

/-- What holds of the places of all characters, and of a place that covers two where it holds, holds
of the places of tokens, and of the place of a character that belongs to none. This is the only place
of the error about it. -/
theorem places_of_tokensFrom {good : Span → Prop}
    (hcover : ∀ a b, good a → good b → good (a.cover b)) {offset : Nat} {text : List Char}
    (hchars : ∀ before c after, text = before ++ c :: after →
      good ⟨offset + byteLength before, c.utf8Size⟩) :
    (∀ tokens, tokensFrom offset text = .ok tokens → ∀ token ∈ tokens, good token.span) ∧
      ∀ diagnostic, tokensFrom offset text = .error diagnostic →
        good diagnostic.span ∧ diagnostic.labels = [] := by
  induction text generalizing offset with
  | nil =>
      refine ⟨fun tokens h token htoken => ?_, nofun⟩
      cases h
      exact absurd htoken List.not_mem_nil
  | cons c text ih =>
      have hc : good ⟨offset, c.utf8Size⟩ := hchars [] c text rfl
      obtain ⟨htokens, herror⟩ := @ih (offset + c.utf8Size) fun before d after htext => by
        rw [Nat.add_assoc]
        exact hchars (c :: before) d after (by rw [htext]; rfl)
      refine ⟨fun tokens h token htoken => ?_, fun diagnostic h => ?_⟩
      · rcases tokensFrom_cons h with ⟨-, h⟩ | ⟨lexeme, rest, -, -, hrest, rfl⟩
        · exact htokens tokens h token htoken
        · have hlater := htokens rest hrest
          rcases Token.attach_eq ⟨lexeme, ⟨offset, c.utf8Size⟩⟩ rest with
            heq | ⟨next, more, joined, rfl, -, -, heq⟩
          · rw [heq] at htoken
            rcases List.mem_cons.mp htoken with rfl | htoken
            · exact hc
            · exact hlater token htoken
          · rw [heq] at htoken
            rcases List.mem_cons.mp htoken with rfl | htoken
            · exact hcover _ _ hc (hlater next List.mem_cons_self)
            · exact hlater token (List.mem_cons_of_mem _ htoken)
      · unfold tokensFrom at h
        split at h
        · exact herror diagnostic h
        · split at h
          · cases h
            exact ⟨hc, rfl⟩
          · cases hrest : tokensFrom (offset + c.utf8Size) text with
            | error fault =>
                rw [hrest] at h
                cases h
                exact herror diagnostic hrest
            | ok rest =>
                rw [hrest] at h
                cases h

theorem le_start_of_mem_tokensFrom {offset : Nat} {text : List Char} {tokens : List Token}
    (h : tokensFrom offset text = .ok tokens) : ∀ token ∈ tokens, offset ≤ token.span.start := by
  have hplaces := @places_of_tokensFrom (fun span => offset ≤ span.start)
    (fun _ _ ha hb => Nat.le_min.mpr ⟨ha, hb⟩) offset text fun _ _ _ _ => Nat.le_add_right _ _
  exact hplaces.1 tokens h

/-- The text does not start with a character that would continue a word. -/
def Interrupts (text : List Char) : Prop := ∀ c ∈ text.head?, Lexeme.belongsToWord c = false

/-- No word touches the given offset. -/
def Detached (offset : Nat) (tokens : List Token) : Prop :=
  ∀ token ∈ tokens.head?, token.span.start = offset → ∀ text, token.lexeme ≠ .word text

theorem Lexeme.continued?_ne_word {a b lexeme : Lexeme} (ha : ∀ text, a ≠ word text)
    (h : a.continued? b = some lexeme) : ∀ text, lexeme ≠ word text := by
  unfold continued? at h
  split at h
  · next first second => exact absurd rfl (ha first)
  · cases h
    exact fun text heq => nomatch heq
  · cases h

theorem detached_tokensFrom {offset : Nat} {text : List Char} {tokens : List Token}
    (htext : Interrupts text) (h : tokensFrom offset text = .ok tokens) :
    Detached offset tokens := by
  cases text with
  | nil =>
      cases h
      exact fun token htoken => nomatch htoken
  | cons c text =>
      have hc : Lexeme.belongsToWord c = false := htext c rfl
      rcases tokensFrom_cons h with ⟨-, h⟩ | ⟨lexeme, rest, -, hlexeme, -, rfl⟩
      · -- after a blank the next token starts later
        intro token htoken hstart
        have hlate := le_start_of_mem_tokensFrom h token (List.mem_of_mem_head? htoken)
        have hpos := c.utf8Size_pos
        omega
      · -- a sign is no word, and does not become one by what is attached to it
        have hsign : ∀ text, lexeme ≠ .word text := by
          rintro text rfl
          unfold Lexeme.ofChar? at hlexeme
          rw [hc] at hlexeme
          simp only [Bool.false_eq_true, if_false] at hlexeme
          repeat' split at hlexeme
          all_goals cases hlexeme
        intro token htoken _
        rcases Token.attach_eq ⟨lexeme, ⟨offset, c.utf8Size⟩⟩ rest with
          heq | ⟨next, more, joined, -, -, hjoined, heq⟩
        · rw [heq] at htoken
          cases htoken
          exact hsign
        · rw [heq] at htoken
          cases htoken
          exact Lexeme.continued?_ne_word hsign hjoined

/-- A token that no word touches stays as it is. -/
theorem Token.attach_of_detached {token : Token} {tokens : List Token}
    (h : Detached token.span.stop tokens) : token.attach tokens = token :: tokens := by
  rcases Token.attach_eq token tokens with heq | ⟨next, rest, joined, rfl, htouch, hjoined, -⟩
  · exact heq
  · have hnext := h next rfl htouch.symm
    unfold Lexeme.continued? at hjoined
    split at hjoined
    · next heq => exact absurd heq (hnext _)
    · next heq => exact absurd heq (hnext _)
    · cases hjoined

/-! ## Reading lexemes back -/

/-- The characters of a word are read as one token. -/
theorem tokensFrom_word {c : Char} {more text : List Char} {offset : Nat} {tokens : List Token}
    (hc : Lexeme.belongsToWord c = true) (hmore : ∀ d ∈ more, Lexeme.belongsToWord d = true)
    (htext : Interrupts text)
    (h : tokensFrom (offset + byteLength (c :: more)) text = .ok tokens) :
    ∃ span : Span, span.start = offset ∧ tokensFrom offset (c :: more ++ text) =
      .ok (⟨.word (String.ofList (c :: more)), span⟩ :: tokens) := by
  -- tokens are attached from the right, so the word grows at its front
  induction more generalizing c offset with
  | nil =>
      have hlength : byteLength [c] = c.utf8Size := Nat.add_zero _
      rw [hlength] at h
      have hattach := @Token.attach_of_detached ⟨.word (String.ofList [c]), ⟨offset, c.utf8Size⟩⟩
        tokens (detached_tokensFrom htext h)
      refine ⟨⟨offset, c.utf8Size⟩, rfl, ?_⟩
      rw [List.singleton_append, tokensFrom, Lexeme.isBlank_of_belongsToWord hc,
        Lexeme.ofChar?_of_belongsToWord hc, h, ← hattach]
      rfl
  | cons d more ih =>
      have hlength : offset + byteLength (c :: d :: more) =
          offset + c.utf8Size + byteLength (d :: more) := by
        show offset + (c.utf8Size + byteLength (d :: more)) = _
        rw [Nat.add_assoc]
      rw [hlength] at h
      obtain ⟨span, hstart, hrest⟩ := ih (hmore d List.mem_cons_self)
        (fun e he => hmore e (List.mem_cons_of_mem _ he)) h
      refine ⟨Span.cover ⟨offset, c.utf8Size⟩ span, ?_, ?_⟩
      · show min offset span.start = offset
        rw [hstart]
        exact Nat.min_eq_left (Nat.le_add_right _ _)
      · rw [List.cons_append, tokensFrom, Lexeme.isBlank_of_belongsToWord hc,
          Lexeme.ofChar?_of_belongsToWord hc, hrest]
        show Except.ok (Token.attach _ _) = _
        unfold Token.attach
        dsimp only
        rw [if_pos (show Span.stop ⟨offset, c.utf8Size⟩ = span.start from hstart.symm)]
        show Except.ok (⟨.word (String.ofList [c] ++ String.ofList (d :: more)), _⟩ :: tokens) = _
        rw [← String.ofList_append]
        rfl

/-- The text of a plain lexeme is read as that lexeme. -/
theorem tokensFrom_lexeme {lexeme : Lexeme} (hplain : lexeme.Plain) {text : List Char}
    (htext : Interrupts text) {offset : Nat} {tokens : List Token}
    (h : tokensFrom (offset + byteLength lexeme.text.toList) text = .ok tokens) :
    ∃ span, tokensFrom offset (lexeme.text.toList ++ text) = .ok (⟨lexeme, span⟩ :: tokens) := by
  -- a sign of one character that nothing continues
  have hsign : ∀ sign : Char, isBlank sign = false → Lexeme.ofChar? sign = some lexeme →
      lexeme.text.toList = [sign] → (∀ next, lexeme.continued? next = none) →
      ∃ span, tokensFrom offset (lexeme.text.toList ++ text) = .ok (⟨lexeme, span⟩ :: tokens) := by
    intro sign hblank hchar htoList hcontinued
    rw [htoList] at h ⊢
    have hlength : byteLength [sign] = sign.utf8Size := Nat.add_zero _
    rw [hlength] at h
    refine ⟨⟨offset, sign.utf8Size⟩, ?_⟩
    rw [List.singleton_append, tokensFrom, hblank, hchar, h]
    show Except.ok (Token.attach _ _) = _
    rcases Token.attach_eq ⟨lexeme, ⟨offset, sign.utf8Size⟩⟩ tokens with
      heq | ⟨next, rest, joined, -, -, hjoined, -⟩
    · rw [heq]
    · rw [hcontinued next.lexeme] at hjoined
      cases hjoined
  cases lexeme with
  | word word =>
      obtain ⟨c, more, hword⟩ := List.exists_cons_of_ne_nil hplain.nonempty
      have hchars := hplain.chars
      rw [hword] at hchars
      obtain ⟨span, -, hspan⟩ := tokensFrom_word (hchars c List.mem_cons_self)
        (fun d hd => hchars d (List.mem_cons_of_mem _ hd)) htext (hword ▸ h)
      refine ⟨span, ?_⟩
      show tokensFrom offset (word.toList ++ text) = _
      rw [hword, hspan, ← hword, String.ofList_toList]
  | value name =>
      have htoList : (Lexeme.value name).text.toList = '%' :: name.toList := by
        show ("%" ++ name).toList = _
        rw [String.toList_append]
        rfl
      rw [htoList] at h ⊢
      have hlength : offset + byteLength ('%' :: name.toList) =
          offset + 1 + byteLength name.toList := by
        show offset + (1 + byteLength name.toList) = _
        rw [Nat.add_assoc]
      rw [hlength] at h
      -- the percent sign is a value with an empty name, to which the word after it is attached
      have hread : ∀ {rest : List Token},
          tokensFrom (offset + 1) (name.toList ++ text) = .ok rest →
          tokensFrom offset ('%' :: name.toList ++ text) =
            .ok (Token.attach ⟨.value "", ⟨offset, 1⟩⟩ rest) := by
        intro rest hrest
        rw [List.cons_append, tokensFrom, show isBlank '%' = false from by decide]
        show Except.map _ (tokensFrom (offset + 1) (name.toList ++ text)) = _
        rw [hrest]
        rfl
      cases hname : name.toList with
      | nil =>
          rw [hname] at h hread
          have hempty : name = "" := String.toList_inj.mp (by rw [hname]; rfl)
          subst hempty
          refine ⟨⟨offset, 1⟩, ?_⟩
          rw [hread h, @Token.attach_of_detached ⟨.value "", ⟨offset, 1⟩⟩ tokens
            (detached_tokensFrom htext h)]
      | cons c more =>
          have hchars : ∀ d ∈ c :: more, Lexeme.belongsToWord d = true := hname ▸ hplain
          rw [hname] at h hread
          obtain ⟨span, hstart, hspan⟩ := tokensFrom_word (hchars c List.mem_cons_self)
            (fun d hd => hchars d (List.mem_cons_of_mem _ hd)) htext h
          refine ⟨Span.cover ⟨offset, 1⟩ span, ?_⟩
          rw [hread hspan]
          show Except.ok (Token.attach _ _) = _
          unfold Token.attach
          dsimp only
          rw [if_pos (show Span.stop ⟨offset, 1⟩ = span.start from hstart.symm)]
          show Except.ok (⟨.value ("" ++ String.ofList (c :: more)), _⟩ :: tokens) = _
          rw [← hname, String.ofList_toList, String.empty_append]
  | comma => exact hsign ',' (by decide) rfl rfl fun _ => rfl
  | colon => exact hsign ':' (by decide) rfl rfl fun _ => rfl
  | equals => exact hsign '=' (by decide) rfl rfl fun _ => rfl
  | question => exact hsign '?' (by decide) rfl rfl fun _ => rfl

theorem interrupts_spaced (lexemes : List Lexeme) : Interrupts (lexemes.flatMap Lexeme.spaced) := by
  intro c hc
  cases lexemes with
  | nil => cases hc
  | cons lexeme lexemes => cases lexeme <;> cases hc <;> decide

/-- Spaced lexemes are read back as they were. -/
theorem exists_tokens_of_spaced {lexemes : List Lexeme} (hplain : ∀ lexeme ∈ lexemes, lexeme.Plain)
    (offset : Nat) :
    ∃ tokens, tokensFrom offset (lexemes.flatMap Lexeme.spaced) = .ok tokens ∧
      tokens.map (·.lexeme) = lexemes := by
  induction lexemes generalizing offset with
  | nil => exact ⟨[], rfl, rfl⟩
  | cons lexeme lexemes ih =>
      have hlexeme := hplain lexeme List.mem_cons_self
      have hrest : ∀ offset, ∃ tokens,
          tokensFrom offset (lexeme.text.toList ++ lexemes.flatMap Lexeme.spaced) = .ok tokens ∧
            tokens.map (·.lexeme) = lexeme :: lexemes := by
        intro offset
        obtain ⟨tokens, htokens, hlexemes⟩ :=
          ih (fun other hother => hplain other (List.mem_cons_of_mem _ hother))
            (offset + byteLength lexeme.text.toList)
        obtain ⟨span, hspan⟩ := tokensFrom_lexeme hlexeme (interrupts_spaced lexemes) htokens
        exact ⟨_, hspan, by rw [List.map_cons, hlexemes]⟩
      rw [List.flatMap_cons]
      -- all but a comma have a blank before them
      cases lexeme with
      | comma => exact hrest offset
      | word text | value name | colon | equals | question => exact hrest (offset + 1)

/-- The lexemes of a line are read back as they were. -/
theorem exists_tokens_of_line {first : Lexeme} {rest : List Lexeme} (hfirst : first.Plain)
    (hrest : ∀ lexeme ∈ rest, lexeme.Plain) (offset : Nat) :
    ∃ span tokens, tokensFrom offset (first.text.toList ++ rest.flatMap Lexeme.spaced) =
      .ok (⟨first, span⟩ :: tokens) ∧ tokens.map (·.lexeme) = rest := by
  obtain ⟨tokens, htokens, hlexemes⟩ :=
    exists_tokens_of_spaced hrest (offset + byteLength first.text.toList)
  obtain ⟨span, hspan⟩ := tokensFrom_lexeme hfirst (interrupts_spaced rest) htokens
  exact ⟨span, tokens, hspan, hlexemes⟩

end BufferPromotion
