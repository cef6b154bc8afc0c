import BufferPromotion.Listing.Directive
import BufferPromotion.Proofs.Diagnostic.Action
import BufferPromotion.Proofs.Kernel.Shown
import BufferPromotion.Proofs.Listing.Relocation.Phrase
import Mathlib.Tactic.SplitIfs

/-! # Directives of a line that has been moved

A draft remembers the lines of what it has read, and a line adds its own place to them. So a line
that has been moved, read into a draft whose places have been moved, gives the moved result: no
name, no number and no fault depends on where a line stands (`readLine_relocate`). The line itself
has to move as the places that are remembered do.
-/

set_option autoImplicit false

namespace BufferPromotion

/-! ## Moving drafts -/

/-- A declared size at another place. -/
def DeclaredSize.relocate (move : Span → Span) (declared : DeclaredSize) : DeclaredSize :=
  { declared with span := move declared.span }

/-- A definition at another place. -/
def Definition.relocate (move : Span → Span) (definition : Definition) : Definition :=
  { definition with span := move definition.span }

/-- The phrase of a parameter at another place. -/
def Draft.ParamPhrase.relocate (move : Span → Span) (phrase : Draft.ParamPhrase) :
    Draft.ParamPhrase :=
  { phrase with name := phrase.name.relocate move, unknown := phrase.unknown.map move }

/-- A kernel whose lines are at other places. -/
def ListedKernel.relocate (move : Span → Span) (listed : ListedKernel) : ListedKernel :=
  { listed with
    span := move listed.span
    block := listed.block.map (DeclaredSize.relocate move)
    filter := listed.filter.map (DeclaredSize.relocate move)
    bufferLines := listed.bufferLines.map fun _ span => move span
    spans := listed.spans.map fun _ span => move span }

/-- A draft whose lines are at other places. -/
def Draft.relocate (move : Span → Span) (draft : Draft) : Draft :=
  ⟨draft.toListedKernel.relocate move,
    draft.scope.map fun entry => (entry.1, entry.2.relocate move)⟩

/-- A kernel whose places stay is as it was. -/
theorem ListedKernel.relocate_id (listed : ListedKernel) : listed.relocate id = listed := by
  have hsize : DeclaredSize.relocate id = id := rfl
  unfold relocate
  rw [hsize]
  simp only [Option.map_id, id, Std.ExtTreeMap.map_id]

namespace Draft

variable {draft : Draft} {now past : Span → Span} {line : Span}

theorem relocate_id (draft : Draft) : draft.relocate id = draft := by
  unfold relocate
  rw [ListedKernel.relocate_id]
  exact congrArg (Draft.mk draft.toListedKernel) (List.map_id _)

theorem lookup_relocate (draft : Draft) (name : String) :
    (draft.relocate past).lookup name = (draft.lookup name).map (Definition.relocate past) := by
  unfold lookup relocate
  induction draft.scope with
  | nil => rfl
  | cons entry scope ih =>
      rw [List.map_cons, List.lookup_cons, List.lookup_cons]
      by_cases hname : (name == entry.1) = true
      · simp [hname]
      · simp [hname, ih]

/-! ## Steps -/

theorem opened_relocate (name : String) (line : Span) :
    opened name (past line) = (opened name line).relocate past := by
  unfold opened relocate ListedKernel.opened ListedKernel.relocate
  simp

theorem define_relocate (draft : Draft) (name : String) (id : ValueId) (line : Span) :
    (draft.relocate past).define name id (past line) =
      (draft.define name id line).relocate past := by
  unfold define relocate ListedKernel.relocate
  simp only [Kernel.map_insert_value]
  rfl

theorem addParameter_relocate (draft : Draft) (name : String) (type : Option ValueType)
    (isFilter : Bool) (line : Span) :
    (draft.relocate past).addParameter name type isFilter (past line) =
      (draft.addParameter name type isFilter line).relocate past :=
  define_relocate { draft with kernel := draft.kernel.addParameter name type isFilter } _ _ _

theorem addDefinition_relocate (draft : Draft) (name : String) (node : Node) (line : Span) :
    (draft.relocate past).addDefinition name node (past line) =
      (draft.addDefinition name node line).relocate past :=
  define_relocate { draft with kernel := draft.kernel.append node } _ _ _

theorem addEffect_relocate (draft : Draft) (node : Node) (line : Span) :
    (draft.relocate past).addEffect node (past line) =
      (draft.addEffect node line).relocate past := by
  unfold addEffect relocate ListedKernel.relocate
  simp only [Kernel.map_insert_value]

theorem declareBuffer_relocate (draft : Draft) (id : ValueId) (image : ImageBuffer)
    (line : Span) :
    (draft.relocate past).declareBuffer id image (past line) =
      (draft.declareBuffer id image line).relocate past := by
  unfold declareBuffer relocate ListedKernel.relocate
  simp only [Kernel.map_insert_value]

/-! ## Names and operands -/

theorem resolve_relocate (draft : Draft) (value : ValueName) :
    (draft.relocate past).resolve (value.relocate now) =
      relocated now past id (draft.resolve value) := by
  have hname : (value.relocate now).name = value.name := rfl
  unfold resolve
  rw [hname, lookup_relocate]
  cases draft.lookup value.name <;> rfl

theorem requireNew_relocate (draft : Draft) (value : ValueName) :
    (draft.relocate past).requireNew (value.relocate now) =
      relocated now past id (draft.requireNew value) := by
  have hname : (value.relocate now).name = value.name := rfl
  unfold requireNew
  rw [hname, lookup_relocate]
  cases draft.lookup value.name <;> rfl

theorem checkCount_relocate (kind : NodeKind) (count : Nat) (place : Span) :
    checkCount kind count (now place) = relocated now past id (checkCount kind count place) := by
  unfold checkCount
  by_cases hcount : kind.accepts count = true
  · simp only [hcount, if_true]
    rfl
  · simp only [hcount]
    rfl

theorem checkBuffer_relocate (draft : Draft) (value : ValueName) (id' : ValueId) :
    (draft.relocate past).checkBuffer (value.relocate now) id' =
      relocated now past id (draft.checkBuffer value id') := by
  have hkernel : (draft.relocate past).kernel = draft.kernel := rfl
  unfold checkBuffer
  rw [hkernel]
  split <;> rfl

/-- Items are resolved alike wherever the line ends. -/
theorem resolveItem_relocate (draft : Draft) (item : Item) :
    (draft.relocate past).resolveItem (now line) (item.relocate now) =
      relocated now past id (draft.resolveItem line item) := by
  cases item with
  | word word => rfl
  | value value =>
      have hresolve : (draft.relocate past).resolve (value.relocate now) = _ :=
        draft.resolve_relocate value
      unfold resolveItem Item.relocate
      dsimp only
      rw [hresolve]
      show (if value.name.isEmpty = true then _ else _) = _
      split <;> rfl

theorem resolveItems_relocate (draft : Draft) (items : List Item) :
    (draft.relocate past).resolveItems (now line) (items.map (Item.relocate now)) =
      relocated now past id (draft.resolveItems line items) := by
  induction items with
  | nil => rfl
  | cons item items ih =>
      rw [List.map_cons, resolveItems, resolveItems, resolveItem_relocate]
      refine relocated_bind fun first => ?_
      rw [ih]
      exact relocated_bind fun _ => rfl

/-! ## Runs -/

/-- The state of a line at another place. -/
def LineState.relocate (now past : Span → Span) (state : LineState) : LineState :=
  ⟨state.draft.relocate past, state.warnings.map (Diagnostic.relocate now past)⟩

/-- How a run ends with what it says and leaves behind about places moved. -/
def relocatedRun {σ : Type} (now past : Span → Span) (change : σ → σ) :
    EStateM.Result Diagnostic σ Unit → EStateM.Result Diagnostic σ Unit
  | .ok _ state => .ok () (change state)
  | .error diagnostic state => .error (diagnostic.relocate now past) (change state)

section Runs

variable {σ α α' : Type} {move : σ → σ} {change : α → α'} {next : α → Action σ Unit}
  {next' : α' → Action σ Unit} {state : σ}

/-- A check and what comes after it commute with a relocation if both do. -/
theorem relocatedRun_check {verdict : σ → Except Diagnostic α} {verdict' : σ → Except Diagnostic α'}
    (h : verdict' (move state) = relocated now past change (verdict state))
    (hnext : ∀ value, next' (change value) (move state) =
      relocatedRun now past move (next value state)) :
    (Action.check verdict' >>= next') (move state) =
      relocatedRun now past move ((Action.check verdict >>= next) state) := by
  cases hverdict : verdict state with
  | error diagnostic =>
      rw [hverdict] at h
      rw [Action.check_bind_of_error hverdict, Action.check_bind_of_error h]
      rfl
  | ok value =>
      rw [hverdict] at h
      rw [Action.check_bind_of_ok hverdict, Action.check_bind_of_ok h, hnext]

theorem relocatedRun_lift {verdict : Except Diagnostic α} {verdict' : Except Diagnostic α'}
    (h : verdict' = relocated now past change verdict)
    (hnext : ∀ value, next' (change value) (move state) =
      relocatedRun now past move (next value state)) :
    ((liftM verdict' : Action σ α') >>= next') (move state) =
      relocatedRun now past move (((liftM verdict : Action σ α) >>= next) state) :=
  relocatedRun_check h hnext

end Runs

/-- The warnings that a line has given before move with it. -/
theorem onDraft_relocate {action action' : Action Draft Unit} {state : LineState}
    (h : action' (state.draft.relocate past) =
      relocatedRun now past (Draft.relocate past) (action state.draft)) :
    LineState.onDraft action' (state.relocate now past) =
      relocatedRun now past (LineState.relocate now past) (LineState.onDraft action state) := by
  have hdraft : (state.relocate now past).draft = state.draft.relocate past := rfl
  unfold LineState.onDraft Action.onPart
  rw [hdraft, h]
  cases action state.draft <;> rfl

/-! ## Parts of lines -/

section Lines

variable (hend : now line.atEnd = (now line).atEnd)

theorem readFilterMark_relocate (tokens : List Token) :
    readFilterMark (tokens.map (Token.relocate now)) =
      relocateRest now id (readFilterMark tokens) := by
  cases tokens with
  | nil => rfl
  | cons token rest =>
      obtain ⟨lexeme, span⟩ := token
      cases lexeme with
      | word text =>
          by_cases hfilter : text = "filter"
          · simp [readFilterMark, Token.relocate, relocateRest, hfilter]
          · simp [readFilterMark, Token.relocate, relocateRest, hfilter]
      | value name | comma | colon | equals | question => rfl

theorem expectEnd_relocate (tokens : List Token) :
    expectEnd (now line) (tokens.map (Token.relocate now)) =
      relocated now past id (expectEnd line tokens) := by
  cases tokens <;> rfl

include hend

theorem readSize_relocate (hline : past line = now line) (zero : LaunchFault)
    (tokens : List Token) :
    readSize (now line) zero (tokens.map (Token.relocate now)) =
      relocated now past (DeclaredSize.relocate past) (readSize line zero tokens) := by
  -- no dimension is read from a place, only the line of the size is one
  have hsize : ∀ size : Size,
      (if size.hasZero then throw ⟨.wrongLaunch zero, now line, []⟩ else pure ⟨size, now line⟩ :
          Except Diagnostic DeclaredSize) =
        relocated now past (DeclaredSize.relocate past)
          (if size.hasZero then throw ⟨.wrongLaunch zero, line, []⟩ else pure ⟨size, line⟩) := by
    intro size
    by_cases hzero : size.hasZero = true
    · rw [if_pos hzero, if_pos hzero]
      rfl
    · rw [if_neg hzero, if_neg hzero, ← hline]
      rfl
  unfold readSize
  rw [expectNumber_relocate hend]
  refine relocated_bind_rest fun x tokens => ?_
  dsimp only
  rw [expectNumber_relocate hend]
  refine relocated_bind_rest fun y tokens => ?_
  dsimp only
  rw [expectEnd_relocate]
  exact relocated_bind fun _ => hsize ⟨x, y⟩

/-! ## Lines -/

theorem readBlock_relocate (draft : Draft) (hline : past line = now line) (tokens : List Token) :
    readBlock (now line) (tokens.map (Token.relocate now)) (draft.relocate past) =
      relocatedRun now past (Draft.relocate past) (readBlock line tokens draft) :=
  relocatedRun_lift (readSize_relocate hend hline _ tokens) fun _ => rfl

theorem readFilter_relocate (draft : Draft) (hline : past line = now line)
    (tokens : List Token) :
    readFilter (now line) (tokens.map (Token.relocate now)) (draft.relocate past) =
      relocatedRun now past (Draft.relocate past) (readFilter line tokens draft) :=
  relocatedRun_lift (readSize_relocate hend hline _ tokens) fun _ => rfl

theorem readParamType_relocate (tokens : List Token) :
    readParamType (now line) (tokens.map (Token.relocate now)) =
      relocated now past (relocateRest now (Prod.map id (Option.map now)))
        (readParamType line tokens) := by
  cases tokens with
  | nil => exact error_unexpected_relocate hend _ _ []
  | cons token rest =>
      obtain ⟨lexeme, span⟩ := token
      cases lexeme with
      | question | value name | comma | colon | equals => rfl
      | word text =>
          show (typeOfWord (now line) (Word.relocate now ⟨text, span⟩)
            (rest.map (Token.relocate now)) >>= _) = _
          rw [typeOfWord_relocate hend]
          refine relocated_bind_rest fun type left => ?_
          cases type <;> rfl

theorem readParamPhrase_relocate (tokens : List Token) :
    readParamPhrase (now line) (tokens.map (Token.relocate now)) =
      relocated now past (relocateRest now (ParamPhrase.relocate now))
        (readParamPhrase line tokens) := by
  unfold readParamPhrase
  rw [expectValue_relocate hend]
  refine relocated_bind_rest fun name tokens => ?_
  dsimp only
  rw [expectSign_relocate hend]
  refine relocated_bind fun tokens => ?_
  rw [readFilterMark_relocate]
  dsimp only [relocateRest]
  rw [readParamType_relocate hend]
  exact relocated_bind fun _ => rfl

omit hend in
theorem paramWarnings_relocate (phrase : ParamPhrase) :
    paramWarnings (phrase.relocate now) =
      (paramWarnings phrase).map (Diagnostic.relocate now past) := by
  obtain ⟨name, isFilter, type, unknown⟩ := phrase
  cases unknown <;> rfl

omit hend in
theorem acceptParam_relocate (draft : Draft) (hline : past line = now line)
    (phrase : ParamPhrase) (tokens : List Token) :
    acceptParam (now line) (phrase.relocate now) (tokens.map (Token.relocate now))
        (draft.relocate past) =
      relocatedRun now past (Draft.relocate past) (acceptParam line phrase tokens draft) := by
  refine relocatedRun_lift (expectEnd_relocate tokens) fun _ => ?_
  refine relocatedRun_check (draft.requireNew_relocate phrase.name) fun _ => ?_
  rw [← hline]
  exact congrArg (EStateM.Result.ok ()) (draft.addParameter_relocate _ _ _ _)

theorem readParam_relocate (hline : past line = now line) (state : LineState)
    (tokens : List Token) :
    readParam (now line) (tokens.map (Token.relocate now)) (state.relocate now past) =
      relocatedRun now past (LineState.relocate now past) (readParam line tokens state) := by
  refine relocatedRun_lift (readParamPhrase_relocate hend tokens) fun (phrase, rest) => ?_
  -- the warning has moved with the phrase, so the rest starts from a state that has moved
  have hwarnings : paramWarnings (phrase.relocate now) =
      (paramWarnings phrase).map (Diagnostic.relocate now past) := paramWarnings_relocate phrase
  let warned : LineState := { state with warnings := state.warnings ++ paramWarnings phrase }
  have hstate : warned.relocate now past = { state.relocate now past with
      warnings := (state.relocate now past).warnings ++ paramWarnings (phrase.relocate now) } := by
    rw [hwarnings]
    unfold LineState.relocate
    rw [List.map_append]
  have hrest := @onDraft_relocate now past _ _ warned
    (state.draft.acceptParam_relocate hline phrase rest)
  rw [hstate] at hrest
  exact hrest

/-! ## Buffers -/

omit hend in
theorem setAttribute_relocate (image : ImageBuffer) (key value : Word) :
    setAttribute (now line) image (key.relocate now) (value.relocate now) =
      relocated now past id (setAttribute line image key value) := by
  have hkey : (key.relocate now).text = key.text := rfl
  have hvalue : (value.relocate now).text = value.text := rfl
  unfold setAttribute
  rw [hkey, hvalue]
  dsimp only
  split_ifs with hdata hwidth hheight hstride
  · rfl
  · rfl
  · rfl
  · cases readNumeral value.text.toList with
    | error fault => rfl
    | ok stride =>
        dsimp only
        split_ifs <;> rfl
  · rfl

theorem readAttributes_relocate (image : ImageBuffer) (tokens : List Token) :
    readAttributes (now line) image (tokens.map (Token.relocate now)) =
      relocated now past (relocateRest now id) (readAttributes line image tokens) := by
  induction image, tokens using readAttributes.induct with
  | case1 image key keySpan equals value valueSpan rest ih =>
      show (setAttribute (now line) image (Word.relocate now ⟨key, keySpan⟩)
        (Word.relocate now ⟨value, valueSpan⟩) >>= _) = _
      rw [setAttribute_relocate]
      exact relocated_bind ih
  | case2 image key keySpan equals rest hvalue =>
      cases rest with
      | nil => exact error_unexpected_relocate hend _ _ []
      | cons token rest =>
          obtain ⟨lexeme, span⟩ := token
          cases lexeme with
          | word value => exact absurd rfl (hvalue value span rest)
          | value name | comma | colon | equals | question => rfl
  | case3 image key keySpan rest hvalue hequals =>
      cases rest with
      | nil => exact error_unexpected_relocate hend _ _ []
      | cons token rest =>
          obtain ⟨lexeme, span⟩ := token
          cases lexeme with
          | equals => exact absurd rfl (hequals span rest)
          | word text | value name | comma | colon | question => rfl
  | case4 image tokens hvalue hequals hword =>
      cases tokens with
      | nil => rfl
      | cons token rest =>
          obtain ⟨lexeme, span⟩ := token
          cases lexeme with
          | word text => exact absurd rfl (hword text span rest)
          | value name | comma | colon | equals | question => rfl

theorem readElementType_relocate (tokens : List Token) :
    readElementType (now line) (tokens.map (Token.relocate now)) =
      relocated now past (relocateRest now id) (readElementType line tokens) := by
  unfold readElementType
  rw [expectWord_relocate hend]
  refine relocated_bind_rest fun word rest => ?_
  dsimp only [Word.relocate]
  cases ElementType.ofName? word.text <;> rfl

omit hend in
theorem checkUndeclared_relocate (draft : Draft) (value : ValueName) (id' : ValueId) :
    (draft.relocate past).checkUndeclared (value.relocate now) id' (now line) =
      relocated now past id (draft.checkUndeclared value id' line) := by
  have hfound : (draft.relocate past).bufferLines[id']? = draft.bufferLines[id']?.map past :=
    Std.ExtTreeMap.getElem?_map
  unfold checkUndeclared
  rw [hfound]
  cases draft.bufferLines[id']? <;> rfl

theorem readBuffer_relocate (draft : Draft) (hline : past line = now line) (tokens : List Token) :
    readBuffer (now line) (tokens.map (Token.relocate now)) (draft.relocate past) =
      relocatedRun now past (Draft.relocate past) (readBuffer line tokens draft) := by
  refine relocatedRun_lift (expectValue_relocate hend tokens) fun (value, tokens) => ?_
  refine relocatedRun_check (draft.resolve_relocate value) fun buffer => ?_
  refine relocatedRun_check (draft.checkBuffer_relocate value buffer) fun _ => ?_
  refine relocatedRun_lift (readElementType_relocate hend tokens) fun (elem, tokens) => ?_
  refine relocatedRun_check (readAttributes_relocate hend _ tokens) fun (image, tokens) => ?_
  refine relocatedRun_lift (expectEnd_relocate tokens) fun _ => ?_
  refine relocatedRun_check (draft.checkUndeclared_relocate value buffer) fun _ => ?_
  rw [← hline]
  exact congrArg (EStateM.Result.ok ()) (draft.declareBuffer_relocate _ _ _)

/-! ## Operations -/

theorem readStore_relocate (draft : Draft) (hline : past line = now line) (tokens : List Token) :
    readStore (now line) (tokens.map (Token.relocate now)) (draft.relocate past) =
      relocatedRun now past (Draft.relocate past) (readStore line tokens draft) := by
  refine relocatedRun_lift (expectItems_relocate hend tokens) fun (items, tokens) => ?_
  refine relocatedRun_lift (expectEnd_relocate tokens) fun _ => ?_
  refine relocatedRun_check (draft.resolveItems_relocate items) fun operands => ?_
  refine relocatedRun_lift (checkCount_relocate _ _ line) fun _ => ?_
  rw [← hline]
  exact congrArg (EStateM.Result.ok ()) (draft.addEffect_relocate _ _)

theorem callItems?_relocate (tokens : List Token) :
    callItems? (now line) (tokens.map (Token.relocate now)) =
      (callItems? line tokens).map (List.map (Item.relocate now)) := by
  have hitems : expectItems (now line) (tokens.map (Token.relocate now)) =
      relocated now now (relocateRest now (List.map (Item.relocate now)))
        (expectItems line tokens) := expectItems_relocate hend tokens
  have hvalue : Item.isValue ∘ Item.relocate now = Item.isValue := by
    funext item
    cases item <;> rfl
  unfold callItems?
  rw [hitems]
  cases expectItems line tokens with
  | error diagnostic => rfl
  | ok read =>
      obtain ⟨items, rest⟩ := read
      cases rest with
      | cons token rest => rfl
      | nil =>
          show (if (items.map (Item.relocate now)).all Item.isValue then _ else _) =
            Option.map _ (if items.all Item.isValue then _ else _)
          rw [List.all_map, hvalue]
          split <;> rfl

theorem requireItems_relocate (name : Word) (tokens : List Token) :
    requireItems (now line) (name.relocate now) (tokens.map (Token.relocate now)) =
      relocated now past (List.map (Item.relocate now)) (requireItems line name tokens) := by
  unfold requireItems
  rw [callItems?_relocate hend]
  cases callItems? line tokens <;> rfl

theorem readCall_relocate (draft : Draft) (hline : past line = now line) (name : Word)
    (tokens : List Token) :
    readCall (now line) (name.relocate now) (tokens.map (Token.relocate now))
        (draft.relocate past) =
      relocatedRun now past (Draft.relocate past) (readCall line name tokens draft) := by
  refine relocatedRun_lift (requireItems_relocate hend name tokens) fun items => ?_
  refine relocatedRun_check (draft.resolveItems_relocate items) fun operands => ?_
  rw [← hline]
  exact congrArg (EStateM.Result.ok ()) (draft.addEffect_relocate _ _)

theorem splitField_relocate (items : List Item) :
    splitField (now line) (items.map (Item.relocate now)) =
      relocated now past (Prod.map (List.map (Item.relocate now)) id) (splitField line items) := by
  unfold splitField
  rw [List.getLast?_map]
  cases items.getLast? with
  | none => exact error_unexpected_relocate hend _ _ []
  | some item =>
      cases item with
      | value value => rfl
      | word field => simp [relocated, Item.relocate, Word.relocate, List.map_dropLast]

theorem kindOfWord_relocate (word : Word) (items : List Item) :
    kindOfWord (now line) (word.relocate now) (items.map (Item.relocate now)) =
      relocated now past (Prod.map id (List.map (Item.relocate now)))
        (kindOfWord line word items) := by
  have htext : (word.relocate now).text = word.text := rfl
  unfold kindOfWord
  rw [htext]
  split_ifs with hextract hbitcast hlea hload hnone
  · rw [splitField_relocate hend]
    exact relocated_map fun _ => rfl
  · rfl
  · rfl
  · rfl
  · rfl
  · rfl

theorem resultType_relocate (kind : NodeKind) (declared : Option ValueType) :
    resultType (now line) kind declared =
      relocated now past id (resultType line kind declared) := by
  cases declared with
  | some type => rfl
  | none =>
      cases kind with
      | extract field => exact error_unexpected_relocate hend _ _ []
      | param | reinterpret | address | load | store | other name => rfl

omit hend in
theorem requireName_relocate (value : ValueName) :
    requireName (now line) (value.relocate now) =
      relocated now past id (requireName line value) := by
  unfold requireName
  have hname : (value.relocate now).name = value.name := rfl
  rw [hname]
  split <;> rfl

theorem readDefinition_relocate (draft : Draft) (hline : past line = now line)
    (value : ValueName) (tokens : List Token) :
    readDefinition (now line) (value.relocate now) (tokens.map (Token.relocate now))
        (draft.relocate past) =
      relocatedRun now past (Draft.relocate past) (readDefinition line value tokens draft) := by
  refine relocatedRun_lift (requireName_relocate value) fun _ => ?_
  refine relocatedRun_lift (expectSign_relocate hend _ tokens) fun tokens => ?_
  refine relocatedRun_lift (expectWord_relocate hend _ tokens) fun (word, tokens) => ?_
  refine relocatedRun_lift (expectItems_relocate hend tokens) fun (items, tokens) => ?_
  refine relocatedRun_lift (optionalType_relocate hend tokens) fun (declared, tokens) => ?_
  refine relocatedRun_lift (expectEnd_relocate tokens) fun _ => ?_
  refine relocatedRun_lift (kindOfWord_relocate hend word items) fun (kind, items) => ?_
  refine relocatedRun_lift (resultType_relocate hend kind declared) fun type => ?_
  refine relocatedRun_check (draft.resolveItems_relocate items) fun operands => ?_
  refine relocatedRun_lift (checkCount_relocate _ _ word.span) fun _ => ?_
  refine relocatedRun_check (draft.requireNew_relocate value) fun _ => ?_
  rw [← hline]
  exact congrArg (EStateM.Result.ok ()) (draft.addDefinition_relocate _ _ _)

theorem readLine_relocate (hline : past line = now line) (state : LineState) (first : Token)
    (tokens : List Token) :
    readLine (now line) (first.relocate now) (tokens.map (Token.relocate now))
        (state.relocate now past) =
      relocatedRun now past (LineState.relocate now past) (readLine line first tokens state) := by
  obtain ⟨lexeme, span⟩ := first
  cases lexeme with
  | value name =>
      exact onDraft_relocate (state.draft.readDefinition_relocate hend hline ⟨name, span⟩ tokens)
  | comma | colon | equals | question => rfl
  | word text =>
      unfold readLine
      dsimp only [Token.relocate]
      split_ifs
      · exact onDraft_relocate (state.draft.readBlock_relocate hend hline tokens)
      · exact onDraft_relocate (state.draft.readFilter_relocate hend hline tokens)
      · exact readParam_relocate hend hline state tokens
      · exact onDraft_relocate (state.draft.readBuffer_relocate hend hline tokens)
      · exact onDraft_relocate (state.draft.readStore_relocate hend hline tokens)
      · exact onDraft_relocate (state.draft.readCall_relocate hend hline ⟨text, span⟩ tokens)

end Lines

end Draft

end BufferPromotion
