import BufferPromotion.Diagnostic.Basic
import BufferPromotion.Source.Line
import BufferPromotion.Text.Blank

/-! # Tokens of a listing

A line of a listing is a sequence of tokens. Blanks separate tokens and mean nothing else;
everything after `//` is a comment. A token is one of four signs, a word of letters, digits,
`_` and `.`, or a value: `%` and the word right after it. Words are as long as possible: a
character that continues a word belongs to the token before it.
-/

set_option autoImplicit false

namespace BufferPromotion

/-- What a token says. -/
inductive Lexeme where
  | word (text : String)
  /-- The name after the `%`, which may be empty. -/
  | value (name : String)
  | comma
  | colon
  | equals
  | question
  deriving DecidableEq, Repr

namespace Lexeme

/-- The text of a token. -/
def text : Lexeme → String
  | word text => text
  | value name => "%" ++ name
  | comma => ","
  | colon => ":"
  | equals => "="
  | question => "?"

/-- Whether a character can stand in a word. -/
def belongsToWord (c : Char) : Bool := c.isAlphanum || c == '_' || c == '.'

/-- What a single character says, `none` if it belongs to no token. -/
def ofChar? (c : Char) : Option Lexeme :=
  if c == ',' then some comma
  else if c == ':' then some colon
  else if c == '=' then some equals
  else if c == '?' then some question
  else if c == '%' then some (value "")
  else if belongsToWord c then some (word (String.singleton c))
  else none

/-- One token in place of two that touch, if the second continues the first. -/
def continued? : Lexeme → Lexeme → Option Lexeme
  | word a, word b => some (word (a ++ b))
  | value a, word b => some (value (a ++ b))
  | _, _ => none

end Lexeme

/-- A token and its place in the source. -/
structure Token where
  lexeme : Lexeme
  span : Span
  deriving DecidableEq, Repr

namespace Token

/-- The text of a token. -/
def text (token : Token) : String := token.lexeme.text

/-- Puts a token in front of others. If the next one touches and continues it, they become
one token. -/
def attach (token : Token) : List Token → List Token
  | [] => [token]
  | next :: rest =>
      if token.span.stop = next.span.start then
        match token.lexeme.continued? next.lexeme with
        | some lexeme => ⟨lexeme, token.span.cover next.span⟩ :: rest
        | none => token :: next :: rest
      else token :: next :: rest

end Token

/-- A line without its comment. -/
def dropComment : List Char → List Char
  | [] => []
  | '/' :: '/' :: _ => []
  | c :: rest => c :: dropComment rest

/-- The tokens of a text that starts at a byte offset, or the first character that belongs to
no token. -/
def tokensFrom (offset : Nat) : List Char → Except Diagnostic (List Token)
  | [] => .ok []
  | c :: rest =>
      if isBlank c then tokensFrom (offset + c.utf8Size) rest
      else match Lexeme.ofChar? c with
        | none => .error ⟨.unexpectedToken (String.singleton c) [], ⟨offset, c.utf8Size⟩, []⟩
        | some lexeme =>
            (tokensFrom (offset + c.utf8Size) rest).map
              (Token.attach ⟨lexeme, ⟨offset, c.utf8Size⟩⟩)

/-- The tokens of a line. -/
def tokensOfLine (line : SourceLine) : Except Diagnostic (List Token) :=
  tokensFrom line.offset (dropComment line.text)

end BufferPromotion
