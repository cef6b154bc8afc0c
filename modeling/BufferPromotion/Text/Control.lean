/-! # Control sequences in a text

A terminal takes some characters of a text as commands: single control characters, and
sequences that begin with the escape character. A text that goes to a file or a pipe is shown
without them. What remains are the printed characters and the four controls that only move
to a new place: tabulator, line feed, form feed and carriage return.

A sequence ends with the character that completes it. It is given up earlier if a new
sequence begins, if a control character cancels it, or if one of the four controls above
stands inside it. Only a control string may hold these four without being given up.
-/

set_option autoImplicit false

namespace BufferPromotion

/-- How far into a sequence a text is. -/
inductive ControlState where
  /-- In no sequence. -/
  | plain
  /-- Right after the escape character. -/
  | escape
  /-- After an escape character and more, with one character still to come. -/
  | designation
  /-- Among the parameters of a control sequence. -/
  | parameters
  /-- In a control string. The flag says whether a bell ends it. -/
  | controlString (bell : Bool)
  deriving DecidableEq, Repr

/-- The escape character. -/
def escapeChar : Char := '\x1b'

/-- Whether a control character is kept in a text that is shown. -/
def isLayoutControl (c : Char) : Bool := c == '\t' || c == '\n' || c == '\x0c' || c == '\r'

/-- Whether a character that is in no sequence is shown. -/
def isShown (c : Char) : Bool := isLayoutControl c || (0x20 ≤ c.toNat && c.toNat != 0x7F)

/-- Whether a character is one of the ASCII characters from `!` to `~`, or the space. -/
def isAsciiPrintable (c : Char) : Bool := 0x20 ≤ c.toNat && c.toNat < 0x7F

/-- Whether a character can stand between the escape character and the end of a sequence. -/
def isIntermediate (c : Char) : Bool := 0x20 ≤ c.toNat && c.toNat < 0x30

namespace ControlState

/-- The state after a printable ASCII character. -/
def afterPrintable (state : ControlState) (c : Char) : ControlState :=
  match state with
  | plain => plain
  | escape =>
      if isIntermediate c then designation
      else if c == '[' then parameters
      else if c == ']' then controlString true
      else if c == 'P' || c == 'X' || c == '^' || c == '_' then controlString false
      else plain
  | designation => if isIntermediate c then designation else plain
  | parameters => if c.toNat < 0x40 then parameters else plain
  | controlString bell => controlString bell

/-- The state after a character, and whether the character is shown. -/
def step (state : ControlState) (c : Char) : ControlState × Bool :=
  if c == escapeChar then (escape, false)
  else if c == '\x18' || c == '\x1a' then (plain, false)
  else match state with
    | plain => (plain, isShown c)
    | controlString bell => (if bell && c == '\x07' then plain else controlString bell, false)
    | state =>
        if isLayoutControl c then (plain, true)
        else if isAsciiPrintable c then (state.afterPrintable c, false)
        else (state, false)

end ControlState

/-- What is shown of a text that follows a beginning which left the given state. -/
def shownFrom (state : ControlState) : List Char → List Char
  | [] => []
  | c :: rest =>
      let (next, shown) := state.step c
      if shown then c :: shownFrom next rest else shownFrom next rest

/-- What is shown of a text. -/
def shownText (text : List Char) : List Char := shownFrom .plain text

end BufferPromotion
