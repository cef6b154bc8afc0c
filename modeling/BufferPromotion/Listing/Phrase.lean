import BufferPromotion.Kernel.Type
import BufferPromotion.Listing.Token
import BufferPromotion.Text.Numeral

/-! # Phrases of a line

The parts that lines of a listing are made of: words, values, numbers, types, and lists of
items. Each is read from the front of the tokens that are left, and gives what it says and
the tokens after it. A phrase that does not fit is reported at the first token that is
wrong, or at the end of the line if there is none.
-/

set_option autoImplicit false

namespace BufferPromotion

/-- A word and its place. -/
structure Word where
  text : String
  span : Span
  deriving DecidableEq, Repr

/-- The name of a value and its place, the `%` included. -/
structure ValueName where
  name : String
  span : Span
  deriving DecidableEq, Repr

namespace ValueName

/-- A name as it stands in the listing. -/
def text (value : ValueName) : String := "%" ++ value.name

/-- The token of a name. -/
def token (value : ValueName) : Token := ⟨.value value.name, value.span⟩

end ValueName

/-- An element of a list of operands. -/
inductive Item where
  | value (value : ValueName)
  | word (word : Word)
  deriving DecidableEq, Repr

namespace Item

/-- The item that a token stands for, if it is a value or a word. -/
def ofToken? (token : Token) : Option Item :=
  match token.lexeme with
  | .value name => some (value ⟨name, token.span⟩)
  | .word text => some (word ⟨text, token.span⟩)
  | _ => none

/-- The token of an item. -/
def token : Item → Token
  | value name => name.token
  | word text => ⟨.word text.text, text.span⟩

/-- Whether an item is a value. -/
def isValue : Item → Bool
  | value _ => true
  | word _ => false

end Item

/-- A token that cannot stand where it does, or the end of the line if there is no token. -/
def unexpected (line : Span) (expected : List String) (found : Option Token) : Diagnostic :=
  match found with
  | some token => ⟨.unexpectedToken token.text expected, token.span, []⟩
  | none => ⟨.unexpectedToken "end of line" expected, line.atEnd, []⟩

/-- Reads a word. -/
def expectWord (line : Span) (expected : String) :
    List Token → Except Diagnostic (Word × List Token)
  | ⟨.word text, span⟩ :: rest => .ok (⟨text, span⟩, rest)
  | tokens => .error (unexpected line [expected] tokens.head?)

/-- Reads a value with a name that is not empty. -/
def expectValue (line : Span) (tokens : List Token) :
    Except Diagnostic (ValueName × List Token) :=
  match tokens with
  | ⟨.value name, span⟩ :: rest =>
      if name.isEmpty then .error (unexpected line ["value"] tokens.head?)
      else .ok (⟨name, span⟩, rest)
  | _ => .error (unexpected line ["value"] tokens.head?)

/-- Reads one of the signs; gives the tokens after it. -/
def expectSign (line : Span) (sign : Lexeme) (tokens : List Token) :
    Except Diagnostic (List Token) :=
  match tokens with
  | token :: rest =>
      if token.lexeme = sign then .ok rest
      else .error (unexpected line ["`" ++ sign.text ++ "`"] (some token))
  | [] => .error (unexpected line ["`" ++ sign.text ++ "`"] none)

/-- Makes sure that the line ends. -/
def expectEnd (line : Span) : List Token → Except Diagnostic Unit
  | [] => .ok ()
  | token :: _ => .error (unexpected line ["end of line"] (some token))

/-- Reads a number. -/
def expectNumber (line : Span) (tokens : List Token) :
    Except Diagnostic (UInt32 × List Token) := do
  let (word, rest) ← expectWord line "number" tokens
  match readNumeral word.text.toList with
  | .ok number => .ok (number, rest)
  | .error _ => .error (unexpected line ["number"] tokens.head?)

/-- Reads one or more items with commas between them. -/
def itemsFrom (line : Span) : List Token → Except Diagnostic (List Item × List Token)
  | [] => .error (unexpected line ["value"] none)
  | token :: rest =>
      match Item.ofToken? token with
      | none => .error (unexpected line ["value"] (some token))
      | some item =>
          match rest with
          | ⟨.comma, _⟩ :: more =>
              (itemsFrom line more).map fun (items, left) => (item :: items, left)
          | _ => .ok ([item], rest)

/-- Reads a list of items, which is empty at a `:` and at the end of the line. -/
def expectItems (line : Span) (tokens : List Token) :
    Except Diagnostic (List Item × List Token) :=
  match tokens with
  | [] => .ok ([], [])
  | ⟨.colon, _⟩ :: _ => .ok ([], tokens)
  | _ => itemsFrom line tokens

/-- The type that a word says. For `struct` the name follows. -/
def typeOfWord (line : Span) (word : Word) (rest : List Token) :
    Except Diagnostic (Option ValueType × List Token) :=
  if word.text = "scalar" then .ok (some .scalar, rest)
  else if word.text = "ptr" then .ok (some .pointer, rest)
  else if word.text = "struct" then
    (expectWord line "struct name" rest).map fun (name, left) => (some (.struct name.text), left)
  else .ok (none, rest)

/-- Reads a type. -/
def expectType (line : Span) (tokens : List Token) :
    Except Diagnostic (ValueType × List Token) := do
  let (word, rest) ← expectWord line "type" tokens
  match ← typeOfWord line word rest with
  | (some type, left) => .ok (type, left)
  | (none, _) => .error (unexpected line ["scalar", "ptr", "struct"] tokens.head?)

/-- Reads a type after a `:`, if there is one. -/
def optionalType (line : Span) (tokens : List Token) :
    Except Diagnostic (Option ValueType × List Token) :=
  match tokens with
  | ⟨.colon, _⟩ :: rest => (expectType line rest).map fun (type, left) => (some type, left)
  | _ => .ok (none, tokens)

end BufferPromotion
