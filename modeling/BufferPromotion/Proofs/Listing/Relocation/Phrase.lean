import BufferPromotion.Listing.Phrase

/-! # Phrases of a line that has been moved

Places are only ever copied, never compared: a phrase of a line reads the same when the line and
its tokens are somewhere else, and what it says about places has moved with them. A relocation
moves the places of the line that is read by one function, and those that were remembered from
lines before it by another one. All that matters of the first is that the end of a moved line is
where the end of the line has moved to.
-/

set_option autoImplicit false

namespace BufferPromotion

/-! ## Moving places -/

namespace Token

/-- A token at another place. -/
def relocate (move : Span → Span) (token : Token) : Token := { token with span := move token.span }

end Token

/-- A word at another place. -/
def Word.relocate (move : Span → Span) (word : Word) : Word := { word with span := move word.span }

/-- The name of a value at another place. -/
def ValueName.relocate (move : Span → Span) (value : ValueName) : ValueName :=
  { value with span := move value.span }

/-- An item at another place. -/
def Item.relocate (move : Span → Span) : Item → Item
  | .value name => .value (name.relocate move)
  | .word text => .word (text.relocate move)

/-- A problem that points at other places. -/
def Problem.relocate (past : Span → Span) : Problem → Problem
  | .repeatedName name first => .repeatedName name (past first)
  | problem => problem

/-- A diagnostic at another place. The places before it that it refers to have moved as well, in
their own way. -/
def Diagnostic.relocate (now past : Span → Span) (diagnostic : Diagnostic) : Diagnostic :=
  ⟨diagnostic.problem.relocate past, now diagnostic.span,
    diagnostic.extraLabels.map fun label => (past label.1, label.2)⟩

/-- A result with what it says about places moved. -/
def relocated {α β : Type} (now past : Span → Span) (change : α → β) :
    Except Diagnostic α → Except Diagnostic β
  | .ok value => .ok (change value)
  | .error diagnostic => .error (diagnostic.relocate now past)

/-- What a phrase says, and the tokens after it, at another place. -/
def relocateRest {α β : Type} (now : Span → Span) (change : α → β) (read : α × List Token) :
    β × List Token :=
  (change read.1, read.2.map (Token.relocate now))

section Steps

variable {α α' β β' : Type} {now past : Span → Span} {change : α → α'} {change' : β → β'}

/-- One step after another commutes with a relocation if both do. -/
theorem relocated_bind {result : Except Diagnostic α} {f : α → Except Diagnostic β}
    {g : α' → Except Diagnostic β'}
    (h : ∀ value, g (change value) = relocated now past change' (f value)) :
    (relocated now past change result >>= g) = relocated now past change' (result >>= f) := by
  cases result with
  | ok value => exact h value
  | error diagnostic => rfl

/-- A step after a phrase, which also gets the tokens that are left. -/
theorem relocated_bind_rest {phrase : Except Diagnostic (α × List Token)}
    {f : α × List Token → Except Diagnostic β} {g : α' × List Token → Except Diagnostic β'}
    (h : ∀ value rest, g (change value, rest.map (Token.relocate now)) =
      relocated now past change' (f (value, rest))) :
    (relocated now past (relocateRest now change) phrase >>= g) =
      relocated now past change' (phrase >>= f) :=
  relocated_bind fun read => h read.1 read.2

theorem relocated_map {result : Except Diagnostic α} {f : α → β} {g : α' → β'}
    (h : ∀ value, g (change value) = change' (f value)) :
    (relocated now past change result).map g = relocated now past change' (result.map f) := by
  cases result with
  | ok value => exact congrArg Except.ok (h value)
  | error diagnostic => rfl

end Steps

/-! ## Phrases -/

section Phrases

variable {now past : Span → Span} {line : Span} (hend : now line.atEnd = (now line).atEnd)

include hend

theorem unexpected_relocate (expected : List String) (found : Option Token) :
    unexpected (now line) expected (found.map (Token.relocate now)) =
      (unexpected line expected found).relocate now past := by
  cases found with
  | some token => rfl
  | none => simp [unexpected, Diagnostic.relocate, Problem.relocate, hend]

/-- What is refused at the first of the tokens that are left, or at the end of the line. -/
theorem error_unexpected_relocate {α β : Type} (change : α → β) (expected : List String)
    (tokens : List Token) :
    (.error (unexpected (now line) expected (tokens.map (Token.relocate now)).head?) :
        Except Diagnostic β) =
      relocated now past change (.error (unexpected line expected tokens.head?)) := by
  rw [List.head?_map, unexpected_relocate hend]
  rfl

theorem expectWord_relocate (expected : String) (tokens : List Token) :
    expectWord (now line) expected (tokens.map (Token.relocate now)) =
      relocated now past (relocateRest now (Word.relocate now))
        (expectWord line expected tokens) := by
  cases tokens with
  | nil => exact error_unexpected_relocate hend _ _ []
  | cons token rest =>
      obtain ⟨lexeme, span⟩ := token
      cases lexeme <;> rfl

theorem expectValue_relocate (tokens : List Token) :
    expectValue (now line) (tokens.map (Token.relocate now)) =
      relocated now past (relocateRest now (ValueName.relocate now)) (expectValue line tokens) := by
  cases tokens with
  | nil => exact error_unexpected_relocate hend _ _ []
  | cons token rest =>
      obtain ⟨lexeme, span⟩ := token
      cases lexeme with
      | value name =>
          by_cases hempty : name.isEmpty = true
          · simp only [expectValue, List.map_cons, Token.relocate, hempty]
            rfl
          · simp only [expectValue, List.map_cons, Token.relocate, hempty]
            rfl
      | word text | comma | colon | equals | question => rfl

theorem expectSign_relocate (sign : Lexeme) (tokens : List Token) :
    expectSign (now line) sign (tokens.map (Token.relocate now)) =
      relocated now past (List.map (Token.relocate now)) (expectSign line sign tokens) := by
  cases tokens with
  | nil => exact error_unexpected_relocate hend _ _ []
  | cons token rest =>
      by_cases hsign : token.lexeme = sign
      · simp only [expectSign, List.map_cons, Token.relocate, hsign]
        rfl
      · simp only [expectSign, List.map_cons, Token.relocate, hsign]
        rfl

theorem expectNumber_relocate (tokens : List Token) :
    expectNumber (now line) (tokens.map (Token.relocate now)) =
      relocated now past (relocateRest now id) (expectNumber line tokens) := by
  unfold expectNumber
  rw [expectWord_relocate hend]
  refine relocated_bind_rest fun word rest => ?_
  dsimp only [Word.relocate]
  cases readNumeral word.text.toList with
  | ok number => rfl
  | error fault => exact error_unexpected_relocate hend _ _ tokens

theorem typeOfWord_relocate (word : Word) (tokens : List Token) :
    typeOfWord (now line) (word.relocate now) (tokens.map (Token.relocate now)) =
      relocated now past (relocateRest now id) (typeOfWord line word tokens) := by
  have htext : (word.relocate now).text = word.text := rfl
  simp only [typeOfWord, htext]
  by_cases hscalar : word.text = "scalar"
  · simp only [hscalar, if_true]
    rfl
  by_cases hpointer : word.text = "ptr"
  · simp only [hpointer]
    rfl
  by_cases hstruct : word.text = "struct"
  · simp only [hstruct]
    show (expectWord (now line) "struct name" (tokens.map (Token.relocate now))).map _ = _
    rw [expectWord_relocate hend]
    exact relocated_map fun _ => rfl
  · simp only [hscalar, hpointer, hstruct, if_false]
    rfl

theorem expectType_relocate (tokens : List Token) :
    expectType (now line) (tokens.map (Token.relocate now)) =
      relocated now past (relocateRest now id) (expectType line tokens) := by
  unfold expectType
  rw [expectWord_relocate hend]
  refine relocated_bind_rest fun word rest => ?_
  show (typeOfWord (now line) (word.relocate now) (rest.map (Token.relocate now)) >>= _) = _
  rw [typeOfWord_relocate hend]
  refine relocated_bind_rest fun type left => ?_
  cases type with
  | some type => rfl
  | none => exact error_unexpected_relocate hend _ _ tokens

theorem optionalType_relocate (tokens : List Token) :
    optionalType (now line) (tokens.map (Token.relocate now)) =
      relocated now past (relocateRest now id) (optionalType line tokens) := by
  cases tokens with
  | nil => rfl
  | cons token rest =>
      obtain ⟨lexeme, span⟩ := token
      cases lexeme with
      | colon =>
          show (expectType (now line) (rest.map (Token.relocate now))).map _ = _
          rw [expectType_relocate hend]
          exact relocated_map fun _ => rfl
      | word text | value name | comma | equals | question => rfl

omit hend in
theorem ofToken?_relocate (token : Token) :
    Item.ofToken? (token.relocate now) = (Item.ofToken? token).map (Item.relocate now) := by
  obtain ⟨lexeme, span⟩ := token
  cases lexeme <;> rfl

theorem itemsFrom_relocate (tokens : List Token) :
    itemsFrom (now line) (tokens.map (Token.relocate now)) =
      relocated now past (relocateRest now (List.map (Item.relocate now)))
        (itemsFrom line tokens) := by
  -- an item and its comma are read at once, so the induction is on the number of tokens
  induction hlength : tokens.length using Nat.strongRecOn generalizing tokens with
  | ind length ih =>
      cases tokens with
      | nil => exact error_unexpected_relocate hend _ _ []
      | cons token rest =>
          cases hitem : Item.ofToken? token with
          | none =>
              simp only [itemsFrom, List.map_cons, ofToken?_relocate, hitem, Option.map_none]
              rfl
          | some item =>
              simp only [itemsFrom, List.map_cons, ofToken?_relocate, hitem, Option.map_some]
              cases rest with
              | nil => rfl
              | cons next more =>
                  obtain ⟨lexeme, span⟩ := next
                  cases lexeme with
                  | comma =>
                      show (itemsFrom (now line) (more.map (Token.relocate now))).map _ = _
                      have hshorter : more.length < length := by
                        simp only [List.length_cons] at hlength
                        omega
                      rw [ih more.length hshorter more rfl]
                      exact relocated_map fun _ => rfl
                  | word text | value name | colon | equals | question => rfl

theorem expectItems_relocate (tokens : List Token) :
    expectItems (now line) (tokens.map (Token.relocate now)) =
      relocated now past (relocateRest now (List.map (Item.relocate now)))
        (expectItems line tokens) := by
  cases tokens with
  | nil => rfl
  | cons token rest =>
      obtain ⟨lexeme, span⟩ := token
      cases lexeme with
      | colon => rfl
      | word text | value name | comma | equals | question => exact itemsFrom_relocate hend _

end Phrases

end BufferPromotion
