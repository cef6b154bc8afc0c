import BufferPromotion.Listing.Phrase
import BufferPromotion.Proofs.Listing.Printing

/-! # What phrases accept

For every phrase, the tokens that it accepts and what it makes of them. Spans of tokens only
matter for messages, so types and lists of items are described by their lexemes.
-/

set_option autoImplicit false

namespace BufferPromotion

variable {line : Span} {tokens rest : List Token}

theorem bind_eq_ok_iff {ε α β : Type} {x : Except ε α} {f : α → Except ε β} {b : β} :
    (x >>= f) = .ok b ↔ ∃ a, x = .ok a ∧ f a = .ok b := by
  cases x with
  | error e => exact ⟨nofun, fun ⟨_, h, _⟩ => nomatch h⟩
  | ok a => exact ⟨fun h => ⟨a, rfl, h⟩, fun ⟨_, h, h'⟩ => Except.ok.inj h ▸ h'⟩

theorem map_eq_ok_iff {ε α β : Type} {x : Except ε α} {f : α → β} {b : β} :
    x.map f = .ok b ↔ ∃ a, x = .ok a ∧ f a = b := by
  cases x with
  | error e => exact ⟨nofun, fun ⟨_, h, _⟩ => nomatch h⟩
  | ok a => exact ⟨fun h => ⟨a, rfl, Except.ok.inj h⟩, fun ⟨_, h, h'⟩ => Except.ok.inj h ▸ h' ▸ rfl⟩

/-! ## Single tokens -/

theorem expectWord_eq_ok_iff {expected : String} {word : Word} :
    expectWord line expected tokens = .ok (word, rest) ↔
      tokens = ⟨.word word.text, word.span⟩ :: rest := by
  constructor
  · intro h
    unfold expectWord at h
    split at h
    · cases h
      rfl
    · cases h
  · rintro rfl
    rfl

theorem expectValue_eq_ok_iff {value : ValueName} :
    expectValue line tokens = .ok (value, rest) ↔
      tokens = value.token :: rest ∧ value.name.isEmpty = false := by
  constructor
  · intro h
    unfold expectValue at h
    split at h
    · split at h
      · cases h
      · next hname =>
        cases h
        exact ⟨rfl, Bool.eq_false_iff.mpr hname⟩
    · cases h
  · rintro ⟨rfl, hname⟩
    show (if value.name.isEmpty then _ else _) = _
    rw [if_neg (by rw [hname]; exact Bool.false_ne_true)]

theorem expectSign_eq_ok_iff {sign : Lexeme} :
    expectSign line sign tokens = .ok rest ↔ ∃ span, tokens = ⟨sign, span⟩ :: rest := by
  constructor
  · intro h
    unfold expectSign at h
    split at h
    · next token more =>
      split at h
      · next hsign =>
        cases h
        exact ⟨token.span, by rw [← hsign]⟩
      · cases h
    · cases h
  · rintro ⟨span, rfl⟩
    exact if_pos rfl

theorem expectEnd_eq_ok_iff : expectEnd line tokens = .ok () ↔ tokens = [] := by
  cases tokens with
  | nil => exact ⟨fun _ => rfl, fun _ => rfl⟩
  | cons token rest => exact ⟨nofun, nofun⟩

/-! ## Types -/

/-- A word that names a type is read with the rest of the type. -/
theorem typeOfWord_eq_some_iff {word : Word} {type : ValueType} :
    typeOfWord line word tokens = .ok (some type, rest) ↔
      ∃ read, ⟨.word word.text, word.span⟩ :: tokens = read ++ rest ∧
        read.map (·.lexeme) = type.lexemes := by
  constructor
  · intro h
    unfold typeOfWord at h
    split at h
    · next htext =>
      cases h
      exact ⟨[_], rfl, by rw [htext]; rfl⟩
    split at h
    · next htext =>
      cases h
      exact ⟨[_], rfl, by rw [htext]; rfl⟩
    split at h
    · next htext =>
      obtain ⟨⟨name, left⟩, hname, heq⟩ := map_eq_ok_iff.mp h
      cases heq
      rw [expectWord_eq_ok_iff] at hname
      exact ⟨[_, _], by rw [hname]; rfl, by rw [htext]; rfl⟩
    · cases h
  · rintro ⟨read, htokens, hlexemes⟩
    cases type with
    | scalar =>
        obtain ⟨first, rfl, hfirst⟩ := List.map_eq_singleton_iff.mp hlexemes
        obtain ⟨rfl, rfl⟩ := List.cons.inj htokens
        unfold typeOfWord
        rw [if_pos (Lexeme.word.inj hfirst)]
    | pointer =>
        obtain ⟨first, rfl, hfirst⟩ := List.map_eq_singleton_iff.mp hlexemes
        obtain ⟨rfl, rfl⟩ := List.cons.inj htokens
        unfold typeOfWord
        rw [Lexeme.word.inj hfirst]
        rfl
    | struct name =>
        obtain ⟨first, read, rfl, hfirst, hname⟩ := List.map_eq_cons_iff.mp hlexemes
        obtain ⟨second, rfl, hsecond⟩ := List.map_eq_singleton_iff.mp hname
        obtain ⟨rfl, rfl⟩ := List.cons.inj htokens
        unfold typeOfWord
        rw [Lexeme.word.inj hfirst]
        show Except.map _ (expectWord line "struct name" (second :: rest)) = _
        have hword : expectWord line "struct name" (second :: rest) =
            .ok (⟨name, second.span⟩, rest) :=
          expectWord_eq_ok_iff.mpr (by rw [← hsecond])
        rw [hword]
        rfl

/-- A type starts with a word. -/
theorem exists_word_of_lexemes {type : ValueType} (h : tokens.map (·.lexeme) = type.lexemes) :
    ∃ text span others, tokens = ⟨.word text, span⟩ :: others := by
  cases type with
  | scalar | pointer =>
      obtain ⟨⟨lexeme, span⟩, rfl, hfirst⟩ := List.map_eq_singleton_iff.mp h
      cases hfirst
      exact ⟨_, span, [], rfl⟩
  | struct name =>
      obtain ⟨⟨lexeme, span⟩, others, rfl, hfirst, -⟩ := List.map_eq_cons_iff.mp h
      cases hfirst
      exact ⟨_, span, others, rfl⟩

/-- A word and what it is the first word of, as a type, are read from the lexemes of the type. -/
theorem exists_typeOfWord_iff (expected : String) {type : ValueType} :
    (∃ word more, expectWord line expected tokens = .ok (word, more) ∧
        typeOfWord line word more = .ok (some type, rest)) ↔
      ∃ read, tokens = read ++ rest ∧ read.map (·.lexeme) = type.lexemes := by
  constructor
  · rintro ⟨word, more, hword, htype⟩
    rw [expectWord_eq_ok_iff.mp hword]
    exact typeOfWord_eq_some_iff.mp htype
  · rintro ⟨read, rfl, hlexemes⟩
    obtain ⟨text, span, others, rfl⟩ := exists_word_of_lexemes hlexemes
    refine ⟨⟨text, span⟩, others ++ rest, expectWord_eq_ok_iff.mpr rfl, ?_⟩
    exact typeOfWord_eq_some_iff.mpr ⟨⟨.word text, span⟩ :: others, rfl, hlexemes⟩

theorem expectType_eq_ok_iff {type : ValueType} :
    expectType line tokens = .ok (type, rest) ↔
      ∃ read, tokens = read ++ rest ∧ read.map (·.lexeme) = type.lexemes := by
  constructor
  · intro h
    obtain ⟨⟨word, more⟩, hword, h⟩ := bind_eq_ok_iff.mp h
    obtain ⟨⟨found, left⟩, hfound, h⟩ := bind_eq_ok_iff.mp h
    cases found with
    | none => cases h
    | some found =>
        cases h
        exact (exists_typeOfWord_iff _).mp ⟨word, more, hword, hfound⟩
  · intro h
    obtain ⟨word, more, hword, hfound⟩ := (exists_typeOfWord_iff _).mpr h
    exact bind_eq_ok_iff.mpr ⟨_, hword, bind_eq_ok_iff.mpr ⟨_, hfound, rfl⟩⟩

/-- A line ends after an optional type if nothing else is left. -/
theorem optionalType_eq_ok_iff {type : Option ValueType} :
    optionalType line tokens = .ok (type, []) ↔
      tokens.map (·.lexeme) = declaredLexemes type := by
  constructor
  · intro h
    unfold optionalType at h
    split at h
    · next span more =>
      obtain ⟨⟨found, left⟩, hfound, heq⟩ := map_eq_ok_iff.mp h
      cases heq
      obtain ⟨read, rfl, hlexemes⟩ := expectType_eq_ok_iff.mp hfound
      rw [List.append_nil, List.map_cons, hlexemes]
      rfl
    · cases h
      rfl
  · intro h
    cases type with
    | none =>
        rw [List.map_eq_nil_iff.mp h]
        rfl
    | some type =>
        obtain ⟨⟨lexeme, span⟩, read, rfl, hcolon, hlexemes⟩ := List.map_eq_cons_iff.mp h
        cases hcolon
        have hfound : expectType line read = .ok (type, []) :=
          expectType_eq_ok_iff.mpr ⟨read, (List.append_nil _).symm, hlexemes⟩
        show Except.map _ (expectType line read) = _
        rw [hfound]
        rfl

/-! ## Items -/

theorem Item.ofToken?_eq_some_iff {token : Token} {item : Item} :
    Item.ofToken? token = some item ↔ token = item.token := by
  obtain ⟨lexeme, span⟩ := token
  constructor
  · intro h
    cases lexeme with
    | word text | value name =>
        cases h
        rfl
    | comma | colon | equals | question => cases h
  · rintro h
    cases item <;> cases h <;> rfl

/-- Whether a lexeme is an item of a list: a value or a word. -/
def Lexeme.IsItem : Lexeme → Prop
  | value _ | word _ => True
  | _ => False

theorem exists_item {token : Token} (h : token.lexeme.IsItem) :
    ∃ item : Item, token = item.token := by
  obtain ⟨lexeme, span⟩ := token
  cases lexeme with
  | value name => exact ⟨.value ⟨name, span⟩, rfl⟩
  | word text => exact ⟨.word ⟨text, span⟩, rfl⟩
  | comma | colon | equals | question => exact absurd h id

/-- The tokens of one or more items with commas between them, and the tokens after them. -/
inductive Items : List Token → List Item → List Token → Prop where
  | last (item : Item) {rest : List Token} (hrest : ∀ token ∈ rest.head?, token.lexeme ≠ .comma) :
      Items (item.token :: rest) [item] rest
  | cons (item : Item) (comma : Span) {more rest : List Token} {items : List Item}
      (h : Items more items rest) :
      Items (item.token :: ⟨.comma, comma⟩ :: more) (item :: items) rest

theorem items_of_itemsFrom {items : List Item} (h : itemsFrom line tokens = .ok (items, rest)) :
    Items tokens items rest := by
  -- an item and its comma are read at once, so the induction is on the number of tokens
  induction hlength : tokens.length using Nat.strongRecOn generalizing tokens items with
  | ind length ih =>
      cases tokens with
      | nil => cases h
      | cons token tail =>
          unfold itemsFrom at h
          split at h
          · cases h
          · next item hitem =>
            rw [Item.ofToken?_eq_some_iff.mp hitem]
            split at h
            · next span more =>
              obtain ⟨⟨others, left⟩, hothers, heq⟩ := map_eq_ok_iff.mp h
              cases heq
              have hshorter : more.length < length := by
                simp only [List.length_cons] at hlength
                omega
              exact .cons item span (ih more.length hshorter hothers rfl)
            · next hcomma =>
              cases h
              refine .last item fun first hfirst heq => ?_
              obtain ⟨more, rfl⟩ := List.head?_eq_some_iff.mp hfirst
              exact hcomma first.span more (by rw [← heq])

theorem itemsFrom_eq_ok_iff {items : List Item} :
    itemsFrom line tokens = .ok (items, rest) ↔ Items tokens items rest := by
  refine ⟨items_of_itemsFrom, fun h => ?_⟩
  induction h with
  | @last item rest hrest =>
      unfold itemsFrom
      rw [Item.ofToken?_eq_some_iff.mpr rfl]
      dsimp only
      split
      · next span more => exact absurd rfl (hrest _ rfl)
      · rfl
  | cons item comma h ih =>
      unfold itemsFrom
      rw [Item.ofToken?_eq_some_iff.mpr rfl]
      show Except.map _ (itemsFrom line _) = _
      rw [ih]
      rfl

theorem Items.subset {items : List Item} (h : Items tokens items rest) :
    items.map Item.token ++ rest ⊆ tokens := by
  induction h with
  | last item hrest => exact fun token htoken => htoken
  | cons item comma h ih =>
      intro token htoken
      rw [List.map_cons, List.cons_append] at htoken
      rcases List.mem_cons.mp htoken with rfl | htoken
      · exact List.mem_cons_self
      · exact List.mem_cons_of_mem _ (List.mem_cons_of_mem _ (ih htoken))

/-- Items with commas between them are read as they are. -/
theorem exists_items {lexemes after : List Lexeme} (hne : lexemes ≠ [])
    (hitems : ∀ lexeme ∈ lexemes, lexeme.IsItem) (hafter : ∀ lexeme ∈ after.head?, lexeme ≠ .comma)
    (h : tokens.map (·.lexeme) = lexemes.intersperse .comma ++ after) :
    ∃ items rest, Items tokens items rest ∧ items.map (·.token.lexeme) = lexemes ∧
      rest.map (·.lexeme) = after := by
  induction lexemes generalizing tokens with
  | nil => exact absurd rfl hne
  | cons lexeme lexemes ih =>
      -- the last item has no comma after it
      cases lexemes with
      | nil =>
          obtain ⟨first, rest, rfl, hfirst, hrest⟩ := List.map_eq_cons_iff.mp h
          obtain ⟨item, rfl⟩ := exists_item (hfirst ▸ hitems lexeme List.mem_cons_self)
          refine ⟨[item], rest, .last item fun token htoken => ?_, by rw [← hfirst]; rfl, hrest⟩
          have hmap : rest.map (·.lexeme) = after := hrest
          refine hafter token.lexeme ?_
          rw [← hmap, List.head?_map]
          exact Option.mem_map_of_mem _ htoken
      | cons second lexemes =>
          rw [List.intersperse_cons_cons] at h
          obtain ⟨first, rest, rfl, hfirst, hrest⟩ := List.map_eq_cons_iff.mp h
          obtain ⟨⟨sign, comma⟩, more, rfl, hcomma, hmore⟩ := List.map_eq_cons_iff.mp hrest
          cases hcomma
          obtain ⟨item, rfl⟩ := exists_item (hfirst ▸ hitems lexeme List.mem_cons_self)
          obtain ⟨items, left, hread, hlexemes, hleft⟩ := ih (List.cons_ne_nil _ _)
            (fun other hother => hitems other (List.mem_cons_of_mem _ hother)) hmore
          refine ⟨item :: items, left, .cons item comma hread, ?_, hleft⟩
          rw [List.map_cons, hlexemes, ← hfirst]

theorem Items.head?_ne_colon {items : List Item} (h : Items tokens items rest) :
    ∀ token ∈ tokens.head?, token.lexeme ≠ .colon := by
  intro token htoken
  cases h with
  | last item hrest | cons item comma h =>
      cases htoken
      cases item <;> exact Lexeme.noConfusion

/-- A list of items is empty at a colon and at the end of a line. -/
theorem expectItems_eq_ok_iff {items : List Item} :
    expectItems line tokens = .ok (items, rest) ↔
      (items = [] ∧ rest = tokens ∧ ∀ token ∈ tokens.head?, token.lexeme = .colon) ∨
        Items tokens items rest := by
  -- at the end of the line, at a colon, and anywhere else
  unfold expectItems
  split
  · constructor
    · intro h
      cases h
      exact Or.inl ⟨rfl, rfl, nofun⟩
    · rintro (⟨rfl, rfl, -⟩ | h)
      · rfl
      · cases h
  · next span more =>
    constructor
    · intro h
      cases h
      exact Or.inl ⟨rfl, rfl, fun token htoken => by cases htoken; rfl⟩
    · rintro (⟨rfl, rfl, -⟩ | h)
      · rfl
      · exact absurd rfl (h.head?_ne_colon _ rfl)
  · next hne hcolon =>
    rw [itemsFrom_eq_ok_iff]
    refine ⟨Or.inr, ?_⟩
    rintro (⟨-, -, hhead⟩ | h)
    · cases tokens with
      | nil => exact absurd rfl hne
      | cons first more =>
          have hfirst := hhead first rfl
          exact absurd (by rw [← hfirst]) (hcolon first.span more)
    · exact h

end BufferPromotion
