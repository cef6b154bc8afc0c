import BufferPromotion.Diagnostic.Action
import BufferPromotion.Listing.Kernel
import BufferPromotion.Listing.Phrase

/-! # Directives

What a line inside a kernel says, and how it changes the draft of the kernel. Lines are read by
actions on the draft, so what has been changed stays changed. Therefore everything that can be wrong
with a line is checked before the draft is changed: operands are resolved once the whole line has
been read, and only then is the defined name checked to be new. The forms of a line are:

    block X Y
    filter X Y
    param %NAME : [filter] TYPE
    buffer %NAME ELEM [data=E] [width=E] [height=E] [stride=N]
    store %POINTER, %VALUE
    %NAME = OPERATION ITEMS [: TYPE]
    OPERATION ITEMS
-/

set_option autoImplicit false

namespace BufferPromotion

namespace Draft

/-! ## Names and operands -/

/-- The value that a name stands for. -/
def resolve (draft : Draft) (value : ValueName) : Except Diagnostic ValueId :=
  match draft.lookup value.name with
  | some definition => .ok definition.id
  | none => .error ⟨.undefinedName value.text, value.span, []⟩

/-- The value that an item stands for. -/
def resolveItem (draft : Draft) (line : Span) (item : Item) : Except Diagnostic ValueId :=
  match item with
  | .value value =>
      if value.name.isEmpty then .error (unexpected line ["value"] (some item.token))
      else draft.resolve value
  | .word _ => .error (unexpected line ["value"] (some item.token))

/-- The values that items stand for; of several faults the first is reported. -/
def resolveItems (draft : Draft) (line : Span) : List Item → Except Diagnostic (List ValueId)
  | [] => .ok []
  | item :: rest => do
      let id ← draft.resolveItem line item
      let ids ← draft.resolveItems line rest
      pure (id :: ids)

/-- Makes sure that a name is not defined yet. -/
def requireNew (draft : Draft) (value : ValueName) : Except Diagnostic Unit :=
  match draft.lookup value.name with
  | some first => .error ⟨.repeatedName value.text first.span, value.span, []⟩
  | none => .ok ()

/-- Makes sure that the value that a line defines has a name. -/
def requireName (line : Span) (value : ValueName) : Except Diagnostic Unit :=
  if value.name.isEmpty then .error (unexpected line ["value"] (some value.token)) else .ok ()

/-- Makes sure that an operation has as many operands as its kind takes. -/
def checkCount (kind : NodeKind) (count : Nat) (place : Span) : Except Diagnostic Unit :=
  if kind.accepts count then .ok () else .error ⟨.wrongOperands (.count kind count), place, []⟩

/-! ## Launch configuration -/

/-- Reads the two dimensions of a size, none of which may be zero. -/
def readSize (line : Span) (zero : LaunchFault) (tokens : List Token) :
    Except Diagnostic DeclaredSize := do
  let (x, tokens) ← expectNumber line tokens
  let (y, tokens) ← expectNumber line tokens
  expectEnd line tokens
  if (Size.mk x y).hasZero then throw ⟨.wrongLaunch zero, line, []⟩
  pure ⟨⟨x, y⟩, line⟩

/-- Sets the block size. -/
def readBlock (line : Span) (tokens : List Token) : Action Draft Unit := do
  let block ← readSize line .zeroBlock tokens
  modify fun draft => { draft with block := some block }

/-- Sets the filter size. -/
def readFilter (line : Span) (tokens : List Token) : Action Draft Unit := do
  let filter ← readSize line .zeroFilter tokens
  modify fun draft => { draft with filter := some filter }

/-! ## Parameters -/

/-- What reading a line works on: the draft, and the warnings that the line has given. -/
structure LineState where
  draft : Draft
  warnings : List Diagnostic

/-- Works on the draft. -/
def LineState.onDraft (action : Action Draft Unit) : Action LineState Unit :=
  action.onPart LineState.draft fun state draft => { state with draft := draft }

/-- A parameter as its line describes it. -/
structure ParamPhrase where
  name : ValueName
  isFilter : Bool
  type : Option ValueType
  /-- The place of a type that is not known. -/
  unknown : Option Span

/-- Reads the word `filter`, if it is there. -/
def readFilterMark : List Token → Bool × List Token
  | ⟨.word text, span⟩ :: rest =>
      if text = "filter" then (true, rest) else (false, ⟨.word text, span⟩ :: rest)
  | tokens => (false, tokens)

/-- Reads the type of a parameter: a type that is known, or a `?` or any other word in its
place. -/
def readParamType (line : Span) (tokens : List Token) :
    Except Diagnostic ((Option ValueType × Option Span) × List Token) :=
  match tokens with
  | ⟨.question, span⟩ :: rest => .ok ((none, some span), rest)
  | _ => do
      let (word, rest) ← expectWord line "type" tokens
      match ← typeOfWord line word rest with
      | (some type, left) => .ok ((some type, none), left)
      | (none, left) => .ok ((none, some word.span), left)

/-- Reads a parameter up to its type. -/
def readParamPhrase (line : Span) (tokens : List Token) :
    Except Diagnostic (ParamPhrase × List Token) := do
  let (name, tokens) ← expectValue line tokens
  let tokens ← expectSign line .colon tokens
  let (isFilter, tokens) := readFilterMark tokens
  let ((type, unknown), tokens) ← readParamType line tokens
  pure (⟨name, isFilter, type, unknown⟩, tokens)

/-- Adds the parameter that a line has described, if the line ends there. -/
def acceptParam (line : Span) (phrase : ParamPhrase) (tokens : List Token) :
    Action Draft Unit := do
  expectEnd line tokens
  Action.check fun draft => draft.requireNew phrase.name
  modify fun draft => draft.addParameter phrase.name.name phrase.type phrase.isFilter line

/-- The warning about a parameter of unknown type. -/
def paramWarnings (phrase : ParamPhrase) : List Diagnostic :=
  phrase.unknown.toList.map fun span => ⟨.untypedParam phrase.name.text, span, []⟩

/-- Adds a parameter. The warning about an unknown type is given even if the rest of the
line is wrong. -/
def readParam (line : Span) (tokens : List Token) : Action LineState Unit := do
  let (phrase, tokens) ← readParamPhrase line tokens
  modify fun state => { state with warnings := state.warnings ++ paramWarnings phrase }
  LineState.onDraft (acceptParam line phrase tokens)

/-! ## Buffers -/

/-- Sets one attribute of a buffer. -/
def setAttribute (line : Span) (image : ImageBuffer) (key value : Word) :
    Except Diagnostic ImageBuffer :=
  let found (word : Word) : Option Token := some ⟨.word word.text, word.span⟩
  if key.text = "data" then .ok { image with data := value.text }
  else if key.text = "width" then .ok { image with width := value.text }
  else if key.text = "height" then .ok { image with height := value.text }
  else if key.text = "stride" then
    match readNumeral value.text.toList with
    | .ok stride =>
        if stride = 0 then .error (unexpected line ["positive number"] (found value))
        else .ok { image with stride := stride }
    | .error _ => .error (unexpected line ["positive number"] (found value))
  else .error (unexpected line ["data", "width", "height", "stride"] (found key))

/-- Reads attributes as long as words follow. -/
def readAttributes (line : Span) (image : ImageBuffer) :
    List Token → Except Diagnostic (ImageBuffer × List Token)
  | ⟨.word key, keySpan⟩ :: ⟨.equals, _⟩ :: ⟨.word value, valueSpan⟩ :: rest => do
      let image ← setAttribute line image ⟨key, keySpan⟩ ⟨value, valueSpan⟩
      readAttributes line image rest
  | ⟨.word _, _⟩ :: ⟨.equals, _⟩ :: rest => .error (unexpected line ["expression"] rest.head?)
  | ⟨.word _, _⟩ :: rest => .error (unexpected line ["`=`"] rest.head?)
  | tokens => .ok (image, tokens)

/-- Makes sure that a value starts a buffer. -/
def checkBuffer (draft : Draft) (value : ValueName) (id : ValueId) : Except Diagnostic Unit :=
  if (draft.kernel.param? id).isSome || draft.kernel.bufferStart id == some id then .ok ()
  else .error ⟨.wrongOperands (.startsNoBuffer value.text), value.span, []⟩

/-- Reads the name of an element type. -/
def readElementType (line : Span) (tokens : List Token) :
    Except Diagnostic (ElementType × List Token) := do
  let (word, rest) ← expectWord line "element type" tokens
  match ElementType.ofName? word.text with
  | some elem => .ok (elem, rest)
  | none => .error ⟨.unknownElementType word.text, word.span, []⟩

/-- Makes sure that a buffer is not declared yet. -/
def checkUndeclared (draft : Draft) (value : ValueName) (id : ValueId) (line : Span) :
    Except Diagnostic Unit :=
  match draft.bufferLines[id]? with
  | some first => .error ⟨.repeatedName ("buffer " ++ value.text) first, line, []⟩
  | none => .ok ()

/-- Declares a buffer. -/
def readBuffer (line : Span) (tokens : List Token) : Action Draft Unit := do
  let (value, tokens) ← expectValue line tokens
  let id ← Action.check fun draft => draft.resolve value
  Action.check fun draft => draft.checkBuffer value id
  let (elem, tokens) ← readElementType line tokens
  let (image, tokens) ← Action.check fun draft =>
    readAttributes line { ImageBuffer.ofValue draft.kernel id with elem := elem } tokens
  expectEnd line tokens
  Action.check fun draft => draft.checkUndeclared value id line
  modify fun draft => draft.declareBuffer id image line

/-! ## Operations -/

/-- Adds a store. -/
def readStore (line : Span) (tokens : List Token) : Action Draft Unit := do
  let (items, tokens) ← expectItems line tokens
  expectEnd line tokens
  let operands ← Action.check fun draft => draft.resolveItems line items
  checkCount .store operands.length line
  modify fun draft => draft.addEffect ⟨.store, none, operands⟩ line

/-- The items of a line without a result, if it has the form of one. -/
def callItems? (line : Span) (tokens : List Token) : Option (List Item) :=
  match expectItems line tokens with
  | .ok (items, []) => if items.all Item.isValue then some items else none
  | _ => none

/-- The items of a line without a result. A line that has another form is taken for a directive
that nobody knows. -/
def requireItems (line : Span) (name : Word) (tokens : List Token) :
    Except Diagnostic (List Item) :=
  match callItems? line tokens with
  | some items => .ok items
  | none => .error ⟨.unknownWord name.text, name.span, []⟩

/-- Adds an operation without a result. -/
def readCall (line : Span) (name : Word) (tokens : List Token) : Action Draft Unit := do
  let items ← requireItems line name tokens
  let operands ← Action.check fun draft => draft.resolveItems line items
  modify fun draft => draft.addEffect ⟨.other name.text, none, operands⟩ line

/-- Takes the last item as the name of a field. -/
def splitField (line : Span) (items : List Item) : Except Diagnostic (List Item × String) :=
  match items.getLast? with
  | some (.word field) => .ok (items.dropLast, field.text)
  | other => .error (unexpected line ["field name"] (other.map Item.token))

/-- The kind of operation that a word names, and the items that are its operands. -/
def kindOfWord (line : Span) (word : Word) (items : List Item) :
    Except Diagnostic (NodeKind × List Item) :=
  if word.text = "extract" then
    (splitField line items).map fun (operands, field) => (.extract field, operands)
  else if word.text = "bitcast" then .ok (.reinterpret, items)
  else if word.text = "lea" then .ok (.address, items)
  else if word.text = "load" then .ok (.load, items)
  else if word.text = "store" ∨ word.text = "param" then
    .error ⟨.wrongOperands (.noResult word.text), word.span, []⟩
  else .ok (.other word.text, items)

/-- The type of a result: as declared, or else a pointer for the operations that derive one
and a scalar for the others. The type of an extracted field has to be declared. -/
def resultType (line : Span) (kind : NodeKind) (declared : Option ValueType) :
    Except Diagnostic ValueType :=
  match declared, kind with
  | some type, _ => .ok type
  | none, .extract _ => .error (unexpected line ["`:`"] none)
  | none, .reinterpret | none, .address => .ok .pointer
  | none, _ => .ok .scalar

/-- Adds an operation with a result. -/
def readDefinition (line : Span) (value : ValueName) (tokens : List Token) :
    Action Draft Unit := do
  requireName line value
  let tokens ← expectSign line .equals tokens
  let (word, tokens) ← expectWord line "operation" tokens
  let (items, tokens) ← expectItems line tokens
  let (declared, tokens) ← optionalType line tokens
  expectEnd line tokens
  let (kind, items) ← kindOfWord line word items
  let type ← resultType line kind declared
  let operands ← Action.check fun draft => draft.resolveItems line items
  checkCount kind operands.length word.span
  Action.check fun draft => draft.requireNew value
  modify fun draft => draft.addDefinition value.name ⟨kind, some type, operands⟩ line

/-! ## Lines -/

/-- Reads a line inside a kernel: its first token and the tokens after it. -/
def readLine (line : Span) (first : Token) (tokens : List Token) : Action LineState Unit :=
  match first.lexeme with
  | .value name => LineState.onDraft (readDefinition line ⟨name, first.span⟩ tokens)
  | .word text =>
      if text = "block" then LineState.onDraft (readBlock line tokens)
      else if text = "filter" then LineState.onDraft (readFilter line tokens)
      else if text = "param" then readParam line tokens
      else if text = "buffer" then LineState.onDraft (readBuffer line tokens)
      else if text = "store" then LineState.onDraft (readStore line tokens)
      else LineState.onDraft (readCall line ⟨text, first.span⟩ tokens)
  | _ => throw (unexpected line ["directive", "value"] (some first))

end Draft

end BufferPromotion
