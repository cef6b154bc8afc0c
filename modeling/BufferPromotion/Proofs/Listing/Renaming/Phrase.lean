import BufferPromotion.Listing.Phrase
import BufferPromotion.Proofs.Listing.Renaming.Text

/-! # Phrases with renamed values

No phrase looks at the name of a value, apart from whether it is empty. So the phrases of renamed
tokens say the same as those of the tokens before, but for the names. Two readings are compared by
`Agree`: both give results, which are related, or both give diagnostics, which have the same code.
Places are not compared.
-/

set_option autoImplicit false

namespace BufferPromotion

/-- Two readings give related results, or diagnostics with the same code. -/
inductive Agree {α α' : Type} (rel : α → α' → Prop) :
    Except Diagnostic α → Except Diagnostic α' → Prop where
  | ok {value : α} {value' : α'} (h : rel value value') : Agree rel (.ok value) (.ok value')
  | error {diagnostic diagnostic' : Diagnostic} (h : diagnostic'.code = diagnostic.code) :
      Agree rel (.error diagnostic) (.error diagnostic')

namespace Agree

variable {α α' β β' : Type} {rel : α → α' → Prop} {next : β → β' → Prop}
  {result : Except Diagnostic α} {result' : Except Diagnostic α'}

/-- One step after another agrees if both do. -/
theorem bind {f : α → Except Diagnostic β} {f' : α' → Except Diagnostic β'}
    (h : Agree rel result result')
    (hnext : ∀ value value', rel value value' → Agree next (f value) (f' value')) :
    Agree next (result >>= f) (result' >>= f') := by
  cases h with
  | ok h => exact hnext _ _ h
  | error h => exact .error h

theorem map {f : α → β} {f' : α' → β'} (h : Agree rel result result')
    (hnext : ∀ value value', rel value value' → next (f value) (f' value')) :
    Agree next (result.map f) (result'.map f') := by
  cases h with
  | ok h => exact .ok (hnext _ _ h)
  | error h => exact .error h

/-- All diagnostics about what stands in the wrong place have one code. -/
theorem unexpected {line line' : Span} {expected expected' : List String}
    {found found' : Option Token} :
    Agree rel (.error (BufferPromotion.unexpected line expected found))
      (.error (BufferPromotion.unexpected line' expected' found')) := by
  refine .error ?_
  cases found <;> cases found' <;> rfl

end Agree

/-! ## Renamed parts -/

section Renamed

variable (r : Renaming)

/-- A token that says the same with another name. -/
def Token.Renamed (token token' : Token) : Prop := token'.lexeme = r.lexeme token.lexeme

variable {r} in
theorem Token.Renamed.exists_span {lexeme : Lexeme} {span : Span} {token' : Token}
    (h : Token.Renamed r ⟨lexeme, span⟩ token') : ∃ span', token' = ⟨r.lexeme lexeme, span'⟩ :=
  ⟨token'.span, congrArg (Token.mk · token'.span) h⟩

/-- A value with another name. -/
def ValueName.Renamed (value value' : ValueName) : Prop := value'.name = r.name value.name

/-- An item that says the same with another name. -/
def Item.Renamed (item item' : Item) : Prop := item.token.Renamed r item'.token

/-- What a phrase says, and the tokens after it. -/
def RestRenamed {α α' : Type} (rel : α → α' → Prop) (read : α × List Token)
    (read' : α' × List Token) : Prop :=
  rel read.1 read'.1 ∧ List.Forall₂ (Token.Renamed r) read.2 read'.2

end Renamed

/-- A word at another place. -/
def Word.Same (word word' : Word) : Prop := word'.text = word.text

namespace Renaming

variable {r : Renaming}

/-- Signs and words stay, and nothing becomes one. -/
theorem lexeme_eq_iff {lexeme sign : Lexeme} (hsign : ∀ name, sign ≠ .value name) :
    r.lexeme lexeme = sign ↔ lexeme = sign := by
  cases lexeme with
  | value name => exact iff_of_false (fun heq => hsign _ heq.symm) fun heq => hsign _ heq.symm
  | word text | comma | colon | equals | question => exact Iff.rfl

/-! ## Phrases -/

variable {line line' : Span} {tokens tokens' : List Token}
  (h : List.Forall₂ (Token.Renamed r) tokens tokens')

include h

theorem expectWord_renamed (expected : String) :
    Agree (RestRenamed r Word.Same) (expectWord line expected tokens)
      (expectWord line' expected tokens') := by
  cases h with
  | nil => exact .unexpected
  | @cons token token' rest rest' htoken hrest =>
      obtain ⟨lexeme, span⟩ := token
      obtain ⟨span', rfl⟩ := htoken.exists_span
      cases lexeme with
      | word text => exact .ok ⟨rfl, hrest⟩
      | value name | comma | colon | equals | question => exact .unexpected

theorem expectValue_renamed :
    Agree (RestRenamed r (ValueName.Renamed r)) (expectValue line tokens)
      (expectValue line' tokens') := by
  cases h with
  | nil => exact .unexpected
  | @cons token token' rest rest' htoken hrest =>
      obtain ⟨lexeme, span⟩ := token
      obtain ⟨span', rfl⟩ := htoken.exists_span
      cases lexeme with
      | value name =>
          simp only [expectValue, lexeme, isEmpty_name]
          by_cases hempty : name.isEmpty = true
          · rw [if_pos hempty, if_pos hempty]
            exact .unexpected
          · rw [if_neg hempty, if_neg hempty]
            exact .ok ⟨rfl, hrest⟩
      | word text | comma | colon | equals | question => exact .unexpected

theorem expectSign_renamed {sign : Lexeme} (hsign : ∀ name, sign ≠ .value name) :
    Agree (List.Forall₂ (Token.Renamed r)) (expectSign line sign tokens)
      (expectSign line' sign tokens') := by
  cases h with
  | nil => exact .unexpected
  | @cons token token' rest rest' htoken hrest =>
      have hiff : token'.lexeme = sign ↔ token.lexeme = sign := by
        rw [show token'.lexeme = r.lexeme token.lexeme from htoken]
        exact lexeme_eq_iff hsign
      simp only [expectSign, hiff]
      by_cases hfound : token.lexeme = sign
      · rw [if_pos hfound, if_pos hfound]
        exact .ok hrest
      · rw [if_neg hfound, if_neg hfound]
        exact .unexpected

theorem expectEnd_renamed :
    Agree (fun _ _ => True) (expectEnd line tokens) (expectEnd line' tokens') := by
  cases h with
  | nil => exact .ok trivial
  | cons htoken hrest => exact .unexpected

theorem expectNumber_renamed :
    Agree (RestRenamed r Eq) (expectNumber line tokens) (expectNumber line' tokens') := by
  refine (expectWord_renamed h "number").bind fun read read' hread => ?_
  dsimp only
  rw [show read'.1.text = read.1.text from hread.1]
  cases readNumeral read.1.text.toList with
  | ok number => exact .ok ⟨rfl, hread.2⟩
  | error fault => exact .unexpected

theorem typeOfWord_renamed {word word' : Word} (hword : word.Same word') :
    Agree (RestRenamed r Eq) (typeOfWord line word tokens) (typeOfWord line' word' tokens') := by
  unfold typeOfWord
  rw [show word'.text = word.text from hword]
  by_cases hscalar : word.text = "scalar"
  · rw [if_pos hscalar, if_pos hscalar]
    exact .ok ⟨rfl, h⟩
  rw [if_neg hscalar, if_neg hscalar]
  by_cases hpointer : word.text = "ptr"
  · rw [if_pos hpointer, if_pos hpointer]
    exact .ok ⟨rfl, h⟩
  rw [if_neg hpointer, if_neg hpointer]
  by_cases hstruct : word.text = "struct"
  · rw [if_pos hstruct, if_pos hstruct]
    refine (expectWord_renamed h "struct name").map fun read read' hread => ?_
    exact ⟨congrArg (some ∘ ValueType.struct) hread.1.symm, hread.2⟩
  · rw [if_neg hstruct, if_neg hstruct]
    exact .ok ⟨rfl, h⟩

theorem expectType_renamed :
    Agree (RestRenamed r Eq) (expectType line tokens) (expectType line' tokens') := by
  refine (expectWord_renamed h "type").bind fun word word' hword => ?_
  refine (typeOfWord_renamed hword.2 hword.1).bind fun type type' htype => ?_
  obtain ⟨type, left⟩ := type
  obtain ⟨type', left'⟩ := type'
  obtain ⟨rfl, hleft⟩ := htype
  cases type with
  | some type => exact .ok ⟨rfl, hleft⟩
  | none => exact .unexpected

theorem optionalType_renamed :
    Agree (RestRenamed r Eq) (optionalType line tokens) (optionalType line' tokens') := by
  cases h with
  | nil => exact .ok ⟨rfl, .nil⟩
  | @cons token token' rest rest' htoken hrest =>
      obtain ⟨lexeme, span⟩ := token
      obtain ⟨span', rfl⟩ := htoken.exists_span
      cases lexeme with
      | colon =>
          refine (expectType_renamed hrest).map fun read read' hread => ?_
          exact ⟨congrArg some hread.1, hread.2⟩
      | word text | value name | comma | equals | question =>
          exact .ok ⟨rfl, .cons rfl hrest⟩

omit h in
theorem ofToken?_renamed {token token' : Token} (htoken : token.Renamed r token') :
    Option.Rel (Item.Renamed r) (Item.ofToken? token) (Item.ofToken? token') := by
  obtain ⟨lexeme, span⟩ := token
  obtain ⟨span', rfl⟩ := htoken.exists_span
  cases lexeme with
  | word text | value name => exact .some rfl
  | comma | colon | equals | question => exact .none

theorem itemsFrom_renamed :
    Agree (RestRenamed r (List.Forall₂ (Item.Renamed r))) (itemsFrom line tokens)
      (itemsFrom line' tokens') := by
  -- an item and its comma are read at once, so the induction is on the number of tokens
  induction hlength : tokens.length using Nat.strongRecOn generalizing tokens tokens' with
  | ind length ih =>
      cases h with
      | nil => exact .unexpected
      | @cons token token' rest rest' htoken hrest =>
          have hitem := ofToken?_renamed htoken
          unfold itemsFrom
          cases hfirst : Item.ofToken? token with
          | none =>
              rw [hfirst] at hitem
              generalize Item.ofToken? token' = found at hitem ⊢
              cases hitem with
              | none => exact .unexpected
          | some item =>
              rw [hfirst] at hitem
              generalize Item.ofToken? token' = found at hitem ⊢
              cases hitem with
              | @some item item' hitem =>
                  cases hrest with
                  | nil => exact .ok ⟨.cons hitem .nil, .nil⟩
                  | @cons sign sign' more more' hsign hmore =>
                      obtain ⟨lexeme, span⟩ := sign
                      obtain ⟨span', rfl⟩ := hsign.exists_span
                      cases lexeme with
                      | comma =>
                          have hshorter : more.length < length := by
                            simp only [List.length_cons] at hlength
                            omega
                          refine (ih more.length hshorter hmore rfl).map fun read read' hread => ?_
                          exact ⟨.cons hitem hread.1, hread.2⟩
                      | word text | value name | colon | equals | question =>
                          exact .ok ⟨.cons hitem .nil, .cons rfl hmore⟩

theorem expectItems_renamed :
    Agree (RestRenamed r (List.Forall₂ (Item.Renamed r))) (expectItems line tokens)
      (expectItems line' tokens') := by
  cases h with
  | nil => exact .ok ⟨.nil, .nil⟩
  | @cons token token' rest rest' htoken hrest =>
      have hitems := @itemsFrom_renamed r line line' _ _ (.cons htoken hrest)
      obtain ⟨lexeme, span⟩ := token
      obtain ⟨span', rfl⟩ := htoken.exists_span
      cases lexeme with
      | colon => exact .ok ⟨.nil, .cons rfl hrest⟩
      | word text | value name | comma | equals | question => exact hitems

end Renaming

end BufferPromotion
