import BufferPromotion.Listing.Directive
import BufferPromotion.Proofs.Buffer.Image
import BufferPromotion.Proofs.Kernel.Renaming
import BufferPromotion.Proofs.Listing.Renaming.Phrase
import Mathlib.Tactic.SplitIfs

/-! # Directives with renamed values

A draft uses names in two ways: it looks them up, and it keeps them for display. The name of a
value is found under its new name, because different names stay different. The only other use is in
the texts of a buffer without a declaration. So the same line with renamed values, read into a draft
with renamed values, is refused with the same code or accepted as well, and leaves a draft with renamed values
(`readLine_renamed`).
-/

set_option autoImplicit false

namespace BufferPromotion

/-! ## Renamed drafts -/

/-- Two images of a buffer that are declared in the same way. A text that is not declared is the
one that the buffer has without a declaration, in each kernel its own. -/
structure ImageBuffer.Renamed (plain plain' image image' : ImageBuffer) : Prop where
  elem : image'.elem = image.elem
  data : image'.data = image.data ∨ (image.data = plain.data ∧ image'.data = plain'.data)
  width : image'.width = image.width ∨ (image.width = plain.width ∧ image'.width = plain'.width)
  height : image'.height = image.height ∨
    (image.height = plain.height ∧ image'.height = plain'.height)
  stride : image'.stride = image.stride

/-- Two listed kernels that are the same but for the names of their values, the places, and the
texts that buffers have without a declaration. These texts are those of the given kernel. -/
structure ListedKernel.Renamed (r : Renaming) (plain : Kernel) (listed listed' : ListedKernel) :
    Prop where
  kernel : listed'.kernel = listed.kernel.rename r.name
  block : listed'.block.map (·.size) = listed.block.map (·.size)
  filter : listed'.filter.map (·.size) = listed.filter.map (·.size)
  buffers : ∀ id, Option.Rel
    (ImageBuffer.Renamed (.ofValue plain id) (.ofValue (plain.rename r.name) id))
    (listed.buffers.get? id) (listed'.buffers.get? id)
  bufferLines : ∀ id : ValueId, (listed'.bufferLines[id]?).isSome = (listed.bufferLines[id]?).isSome

/-- Two drafts of such kernels, where the same values have names in the scope. -/
structure Draft.Renamed (r : Renaming) (plain : Kernel) (draft draft' : Draft) : Prop extends
    ListedKernel.Renamed r plain draft.toListedKernel draft'.toListedKernel where
  scope : List.Forall₂ (fun entry entry' => entry'.1 = r.name entry.1 ∧ entry'.2.id = entry.2.id)
    draft.scope draft'.scope

/-- Two declared sizes that are the same. -/
def DeclaredSize.Same (declared declared' : DeclaredSize) : Prop := declared'.size = declared.size

/-- Two phrases of parameters that are the same but for the name. -/
structure Draft.ParamPhrase.Renamed (r : Renaming) (phrase phrase' : Draft.ParamPhrase) : Prop where
  name : phrase.name.Renamed r phrase'.name
  isFilter : phrase'.isFilter = phrase.isFilter
  type : phrase'.type = phrase.type
  unknown : phrase'.unknown.isSome = phrase.unknown.isSome

theorem rel_of_isSome {α : Type} {found found' : Option α} (h : found'.isSome = found.isSome) :
    Option.Rel (fun _ _ => True) found found' := by
  cases found with
  | none =>
      rw [Option.isNone_iff_eq_none.mp (Option.isSome_eq_false_iff.mp h)]
      exact .none
  | some value =>
      obtain ⟨value', rfl⟩ := Option.isSome_iff_exists.mp h
      exact .some trivial

namespace Draft

variable {r : Renaming} {plain : Kernel} {draft draft' : Draft} {line line' : Span}

theorem opened_renamed (name : String) (line line' : Span) :
    (opened name line).Renamed r (.empty name) (opened name line') := by
  have hnone : ∀ id, (opened name line).buffers.get? id = none :=
    fun _ => Std.ExtTreeMap.getElem?_empty
  have hnone' : ∀ id, (opened name line').buffers.get? id = none :=
    fun _ => Std.ExtTreeMap.getElem?_empty
  refine ⟨⟨?_, rfl, rfl, fun id => ?_, fun id => rfl⟩, .nil⟩
  · show Kernel.empty name = (Kernel.empty name).rename r.name
    simp [Kernel.empty, Kernel.rename]
  · rw [hnone, hnone']
    exact .none

/-! ## Steps -/

section Steps

variable (h : draft.Renamed r plain draft')

include h

theorem nextId_renamed : draft'.kernel.nextId = draft.kernel.nextId := by
  rw [h.kernel]
  rfl

/-- The value of a name is found under the new name. -/
theorem lookup_renamed (name : String) :
    Option.Rel (fun definition definition' => definition'.id = definition.id) (draft.lookup name)
      (draft'.lookup (r.name name)) := by
  have hscope := h.scope
  unfold lookup
  generalize draft.scope = scope at hscope ⊢
  generalize draft'.scope = scope' at hscope ⊢
  induction hscope with
  | nil => exact .none
  | @cons entry entry' scope scope' hentry hrest ih =>
      obtain ⟨given, definition⟩ := entry
      obtain ⟨given', definition'⟩ := entry'
      obtain ⟨hname, hid⟩ := hentry
      have hsame : (r.name name == given') = (name == given) := by
        rw [show given' = r.name given from hname, Bool.eq_iff_iff, beq_iff_eq, beq_iff_eq]
        exact Renaming.name_injective.eq_iff
      rw [List.lookup_cons, List.lookup_cons, hsame]
      cases name == given with
      | true => exact .some hid
      | false => exact ih

/-- The value that a line defines gets a new name. -/
theorem define_renamed (name : String) (id : ValueId) (line line' : Span) :
    (draft.define name id line).Renamed r plain (draft'.define (r.name name) id line') := by
  refine ⟨⟨?_, h.block, h.filter, h.buffers, h.bufferLines⟩, .cons ⟨rfl, rfl⟩ h.scope⟩
  show draft'.kernel.withName id (r.name name) = _
  rw [h.kernel, Kernel.withName_rename]
  rfl

/-- A new kernel that has the same new names may take the place of the old one. -/
theorem setKernel_renamed {kernel kernel' : Kernel} (hkernel : kernel' = kernel.rename r.name) :
    Renamed r plain { draft with kernel := kernel } { draft' with kernel := kernel' } :=
  ⟨⟨hkernel, h.block, h.filter, h.buffers, h.bufferLines⟩, h.scope⟩

theorem addParameter_renamed (name : String) (type : Option ValueType) (isFilter : Bool)
    (line line' : Span) :
    (draft.addParameter name type isFilter line).Renamed r plain
      (draft'.addParameter (r.name name) type isFilter line') := by
  have hkernel : draft'.kernel.addParameter (r.name name) type isFilter =
      (draft.kernel.addParameter name type isFilter).rename r.name := by
    rw [h.kernel, Kernel.addParameter_rename]
  unfold addParameter
  dsimp only
  rw [nextId_renamed h]
  exact define_renamed (setKernel_renamed h hkernel) name _ line line'

theorem append_renamed (node : Node) :
    draft'.kernel.append node = (draft.kernel.append node).rename r.name := by
  rw [h.kernel, Kernel.append_rename]

theorem addDefinition_renamed (name : String) (node : Node) (line line' : Span) :
    (draft.addDefinition name node line).Renamed r plain
      (draft'.addDefinition (r.name name) node line') := by
  unfold addDefinition
  dsimp only
  rw [nextId_renamed h]
  exact define_renamed (setKernel_renamed h (append_renamed h node)) name _ line line'

theorem addEffect_renamed (node : Node) (line line' : Span) :
    (draft.addEffect node line).Renamed r plain (draft'.addEffect node line') :=
  ⟨⟨append_renamed h node, h.block, h.filter, h.buffers, h.bufferLines⟩, h.scope⟩

theorem declareBuffer_renamed (id : ValueId) {image image' : ImageBuffer}
    (himage : ImageBuffer.Renamed (.ofValue plain id) (.ofValue (plain.rename r.name) id)
      image image') (line line' : Span) :
    (draft.declareBuffer id image line).Renamed r plain
      (draft'.declareBuffer id image' line') := by
  refine ⟨⟨h.kernel, h.block, h.filter, fun other => ?_, fun other => ?_⟩, h.scope⟩
  · show Option.Rel _ ((draft.buffers.insert id image).get? other)
      ((draft'.buffers.insert id image').get? other)
    rw [BufferTable.get?_insert, BufferTable.get?_insert]
    by_cases hother : other = id
    · subst hother
      rw [if_pos rfl, if_pos rfl]
      exact .some himage
    · rw [if_neg hother, if_neg hother]
      exact h.buffers other
  · show ((draft'.bufferLines.insert id line')[other]?).isSome =
      ((draft.bufferLines.insert id line)[other]?).isSome
    rw [Kernel.getElem?_insert_value, Kernel.getElem?_insert_value]
    by_cases hother : other = id
    · rw [if_pos hother, if_pos hother]
      rfl
    · rw [if_neg hother, if_neg hother]
      exact h.bufferLines other

/-! ## Names and operands -/

variable {value value' : ValueName} (hvalue : value.Renamed r value')

include hvalue

theorem resolve_renamed : Agree Eq (draft.resolve value) (draft'.resolve value') := by
  have hfound := lookup_renamed h value.name
  unfold resolve
  rw [show value'.name = r.name value.name from hvalue]
  generalize draft.lookup value.name = found at hfound ⊢
  generalize draft'.lookup (r.name value.name) = found' at hfound ⊢
  cases hfound with
  | none => exact .error rfl
  | some hid => exact .ok hid.symm

theorem requireNew_renamed :
    Agree (fun _ _ => True) (draft.requireNew value) (draft'.requireNew value') := by
  have hfound := lookup_renamed h value.name
  unfold requireNew
  rw [show value'.name = r.name value.name from hvalue]
  generalize draft.lookup value.name = found at hfound ⊢
  generalize draft'.lookup (r.name value.name) = found' at hfound ⊢
  cases hfound with
  | none => exact .ok trivial
  | some hid => exact .error rfl

omit hvalue in
theorem checkBuffer_renamed (value value' : ValueName) (id : ValueId) :
    Agree (fun _ _ => True) (draft.checkBuffer value id) (draft'.checkBuffer value' id) := by
  unfold checkBuffer
  rw [h.kernel, Kernel.param?_rename, Option.isSome_map, Kernel.bufferStart_rename]
  split
  · exact .ok trivial
  · exact .error rfl

omit hvalue in
theorem checkUndeclared_renamed (value value' : ValueName) (id : ValueId) :
    Agree (fun _ _ => True) (draft.checkUndeclared value id line)
      (draft'.checkUndeclared value' id line') := by
  have hlines := rel_of_isSome (h.bufferLines id)
  unfold checkUndeclared
  generalize draft.bufferLines[id]? = first at hlines ⊢
  generalize draft'.bufferLines[id]? = first' at hlines ⊢
  cases hlines with
  | none => exact .ok trivial
  | some _ => exact .error rfl

omit hvalue in
theorem resolveItem_renamed {item item' : Item} (hitem : item.Renamed r item') :
    Agree Eq (draft.resolveItem line item) (draft'.resolveItem line' item') := by
  cases item with
  | word word =>
      cases item' with
      | word word' => exact .unexpected
      | value value' => cases hitem
  | value value =>
      cases item' with
      | word word' => cases hitem
      | value value' =>
          have hvalue : value.Renamed r value' := Lexeme.value.inj hitem
          unfold resolveItem
          dsimp only
          rw [show value'.name = r.name value.name from hvalue, Renaming.isEmpty_name]
          split
          · exact .unexpected
          · exact resolve_renamed h hvalue

omit hvalue in
theorem resolveItems_renamed {items items' : List Item}
    (hitems : List.Forall₂ (Item.Renamed r) items items') :
    Agree Eq (draft.resolveItems line items) (draft'.resolveItems line' items') := by
  induction hitems with
  | nil => exact .ok rfl
  | cons hitem hrest ih =>
      refine (resolveItem_renamed h hitem).bind fun first first' hfirst => ?_
      refine ih.bind fun rest rest' hrest => ?_
      rw [hfirst, hrest]
      exact .ok rfl

end Steps

theorem checkCount_renamed (kind : NodeKind) (count : Nat) (place place' : Span) :
    Agree (fun _ _ => True) (checkCount kind count place) (checkCount kind count place') := by
  unfold checkCount
  split
  · exact .ok trivial
  · exact .error rfl

/-! ## Parts of lines -/

section Parts

variable {tokens tokens' : List Token} (htokens : List.Forall₂ (Token.Renamed r) tokens tokens')

include htokens

theorem readSize_renamed (zero : LaunchFault) :
    Agree DeclaredSize.Same (readSize line zero tokens) (readSize line' zero tokens') := by
  refine (Renaming.expectNumber_renamed htokens).bind fun x x' hx => ?_
  refine (Renaming.expectNumber_renamed hx.2).bind fun y y' hy => ?_
  refine (Renaming.expectEnd_renamed hy.2).bind fun _ _ _ => ?_
  dsimp only
  rw [← hx.1, ← hy.1]
  by_cases hzero : (Size.mk x.1 y.1).hasZero = true
  · rw [if_pos hzero, if_pos hzero]
    exact .error rfl
  · rw [if_neg hzero, if_neg hzero]
    exact .ok rfl

theorem readFilterMark_renamed :
    RestRenamed r Eq (readFilterMark tokens) (readFilterMark tokens') := by
  cases htokens with
  | nil => exact ⟨rfl, .nil⟩
  | @cons token token' rest rest' htoken hrest =>
      obtain ⟨lexeme, span⟩ := token
      obtain ⟨span', rfl⟩ := htoken.exists_span
      cases lexeme with
      | word text =>
          by_cases hfilter : text = "filter"
          · simp only [readFilterMark, Renaming.lexeme, if_pos hfilter]
            exact ⟨rfl, hrest⟩
          · simp only [readFilterMark, Renaming.lexeme, if_neg hfilter]
            exact ⟨rfl, .cons rfl hrest⟩
      | value name | comma | colon | equals | question => exact ⟨rfl, .cons rfl hrest⟩

theorem readParamType_renamed :
    Agree (RestRenamed r fun type type' => type'.1 = type.1 ∧ type'.2.isSome = type.2.isSome)
      (readParamType line tokens) (readParamType line' tokens') := by
  cases htokens with
  | nil => exact .unexpected
  | @cons token token' rest rest' htoken hrest =>
      obtain ⟨lexeme, span⟩ := token
      obtain ⟨span', rfl⟩ := htoken.exists_span
      cases lexeme with
      | question => exact .ok ⟨⟨rfl, rfl⟩, hrest⟩
      | value name | comma | colon | equals => exact .unexpected
      | word text =>
          have hword : Word.Same ⟨text, span⟩ ⟨text, span'⟩ := rfl
          refine (Renaming.typeOfWord_renamed hrest hword).bind fun type type' htype => ?_
          obtain ⟨type, left⟩ := type
          obtain ⟨type', left'⟩ := type'
          obtain ⟨rfl, hleft⟩ := htype
          cases type with
          | some type => exact .ok ⟨⟨rfl, rfl⟩, hleft⟩
          | none => exact .ok ⟨⟨rfl, rfl⟩, hleft⟩

theorem readParamPhrase_renamed :
    Agree (RestRenamed r (ParamPhrase.Renamed r)) (readParamPhrase line tokens)
      (readParamPhrase line' tokens') := by
  refine (Renaming.expectValue_renamed htokens).bind fun name name' hname => ?_
  have hcolon := @Renaming.expectSign_renamed r line line' _ _ hname.2 .colon nofun
  refine hcolon.bind fun rest rest' hrest => ?_
  have hmark := readFilterMark_renamed hrest
  refine (readParamType_renamed hmark.2).bind fun type type' htype => ?_
  exact .ok ⟨⟨hname.1, hmark.1.symm, htype.1.1, htype.1.2⟩, htype.2⟩

end Parts

/-! ### Buffers -/

/-- An attribute gives both images the same text. -/
theorem setAttribute_renamed {plain plain' image image' : ImageBuffer}
    (himage : ImageBuffer.Renamed plain plain' image image') {key key' value value' : Word}
    (hkey : key.Same key') (hvalue : value.Same value') :
    Agree (ImageBuffer.Renamed plain plain') (setAttribute line image key value)
      (setAttribute line' image' key' value') := by
  unfold setAttribute
  rw [show key'.text = key.text from hkey, show value'.text = value.text from hvalue]
  dsimp only
  split_ifs with hdata hwidth hheight hstride
  · exact .ok { himage with data := Or.inl rfl }
  · exact .ok { himage with width := Or.inl rfl }
  · exact .ok { himage with height := Or.inl rfl }
  · cases readNumeral value.text.toList with
    | error fault => exact .unexpected
    | ok stride =>
        dsimp only
        split_ifs
        · exact .unexpected
        · exact .ok { himage with stride := rfl }
  · exact .unexpected

theorem readAttributes_renamed {plain plain' image image' : ImageBuffer}
    (himage : ImageBuffer.Renamed plain plain' image image') {tokens tokens' : List Token}
    (htokens : List.Forall₂ (Token.Renamed r) tokens tokens') :
    Agree (RestRenamed r (ImageBuffer.Renamed plain plain')) (readAttributes line image tokens)
      (readAttributes line' image' tokens') := by
  induction image, tokens using readAttributes.induct generalizing image' tokens' with
  | case1 image key keySpan equals value valueSpan rest ih =>
      obtain ⟨key', _, hkey, hafter, rfl⟩ := List.forall₂_cons_left_iff.mp htokens
      obtain ⟨equals', _, hequals, hlater, rfl⟩ := List.forall₂_cons_left_iff.mp hafter
      obtain ⟨value', _, hvalue, hrest, rfl⟩ := List.forall₂_cons_left_iff.mp hlater
      obtain ⟨keySpan', rfl⟩ := hkey.exists_span
      obtain ⟨equalsSpan', rfl⟩ := hequals.exists_span
      obtain ⟨valueSpan', rfl⟩ := hvalue.exists_span
      have hset := @setAttribute_renamed line line' _ _ _ _ himage ⟨key, keySpan⟩
        ⟨key, keySpan'⟩ ⟨value, valueSpan⟩ ⟨value, valueSpan'⟩ rfl rfl
      exact hset.bind fun next next' hnext => ih next hnext hrest
  | case2 image key keySpan equals rest hvalue =>
      obtain ⟨key', _, hkey, hafter, rfl⟩ := List.forall₂_cons_left_iff.mp htokens
      obtain ⟨equals', _, hequals, hrest, rfl⟩ := List.forall₂_cons_left_iff.mp hafter
      obtain ⟨keySpan', rfl⟩ := hkey.exists_span
      obtain ⟨equalsSpan', rfl⟩ := hequals.exists_span
      cases hrest with
      | nil => exact .unexpected
      | @cons token token' more more' htoken hmore =>
          obtain ⟨lexeme, span⟩ := token
          obtain ⟨span', rfl⟩ := htoken.exists_span
          cases lexeme with
          | word value => exact absurd rfl (hvalue value span more)
          | value name | comma | colon | equals | question => exact .unexpected
  | case3 image key keySpan rest hvalue hequals =>
      obtain ⟨key', _, hkey, hrest, rfl⟩ := List.forall₂_cons_left_iff.mp htokens
      obtain ⟨keySpan', rfl⟩ := hkey.exists_span
      cases hrest with
      | nil => exact .unexpected
      | @cons token token' more more' htoken hmore =>
          obtain ⟨lexeme, span⟩ := token
          obtain ⟨span', rfl⟩ := htoken.exists_span
          cases lexeme with
          | equals => exact absurd rfl (hequals span more)
          | word text | value name | comma | colon | question => exact .unexpected
  | case4 image tokens hvalue hequals hword =>
      cases htokens with
      | nil => exact .ok ⟨himage, .nil⟩
      | @cons token token' rest rest' htoken hrest =>
          obtain ⟨lexeme, span⟩ := token
          obtain ⟨span', rfl⟩ := htoken.exists_span
          cases lexeme with
          | word text => exact absurd rfl (hword text span rest)
          | value name | comma | colon | equals | question =>
              exact .ok ⟨himage, .cons rfl hrest⟩

theorem readElementType_renamed {tokens tokens' : List Token}
    (htokens : List.Forall₂ (Token.Renamed r) tokens tokens') :
    Agree (RestRenamed r Eq) (readElementType line tokens) (readElementType line' tokens') := by
  refine (Renaming.expectWord_renamed htokens "element type").bind fun word word' hword => ?_
  dsimp only
  rw [show word'.1.text = word.1.text from hword.1]
  cases ElementType.ofName? word.1.text with
  | none => exact .error rfl
  | some elem => exact .ok ⟨rfl, hword.2⟩

/-! ### Operations -/

section Operations

variable {tokens tokens' : List Token} (htokens : List.Forall₂ (Token.Renamed r) tokens tokens')
  {items items' : List Item} (hitems : List.Forall₂ (Item.Renamed r) items items')

theorem isValue_renamed {item item' : Item} (hitem : item.Renamed r item') :
    item'.isValue = item.isValue := by
  cases item <;> cases item' <;> first | rfl | cases hitem

include hitems in
theorem all_isValue_renamed : items'.all Item.isValue = items.all Item.isValue := by
  induction hitems with
  | nil => rfl
  | cons hitem _ ih => rw [List.all_cons, List.all_cons, isValue_renamed hitem, ih]

include htokens in
theorem callItems?_renamed :
    Option.Rel (List.Forall₂ (Item.Renamed r)) (callItems? line tokens)
      (callItems? line' tokens') := by
  have hread := @Renaming.expectItems_renamed r line line' _ _ htokens
  unfold callItems?
  generalize expectItems line tokens = read at hread ⊢
  generalize expectItems line' tokens' = read' at hread ⊢
  cases hread with
  | error hcode => exact .none
  | @ok read read' hread =>
      obtain ⟨items, rest⟩ := read
      obtain ⟨items', rest'⟩ := read'
      obtain ⟨hitems, hrest⟩ := hread
      cases hrest with
      | cons htoken hmore => exact .none
      | nil =>
          dsimp only at hitems ⊢
          rw [all_isValue_renamed hitems]
          split
          · exact .some hitems
          · exact .none

include hitems

theorem splitField_renamed :
    Agree (fun split split' => List.Forall₂ (Item.Renamed r) split.1 split'.1 ∧
        split'.2 = split.2) (splitField line items) (splitField line' items') := by
  rcases List.eq_nil_or_concat items with rfl | ⟨front, last, rfl⟩
  · cases hitems
    exact .unexpected
  · have hreverse := List.forall₂_reverse_iff.mpr hitems
    rw [List.concat_eq_append, List.reverse_concat] at hreverse
    obtain ⟨last', front', hlast, hfront, heq⟩ := List.forall₂_cons_left_iff.mp hreverse
    obtain rfl : items' = front'.reverse ++ [last'] := by
      rw [← List.reverse_reverse items', heq, List.reverse_cons]
    have hfront' : List.Forall₂ (Item.Renamed r) front front'.reverse := by
      rw [← List.reverse_reverse front]
      exact List.forall₂_reverse_iff.mpr hfront
    unfold splitField
    rw [List.concat_eq_append, List.getLast?_concat, List.getLast?_concat, List.dropLast_concat,
      List.dropLast_concat]
    cases last with
    | value value =>
        cases last' with
        | value value' => exact .unexpected
        | word word' => cases hlast
    | word word =>
        cases last' with
        | value value' => cases hlast
        | word word' => exact .ok ⟨hfront', Lexeme.word.inj hlast⟩

theorem kindOfWord_renamed {word word' : Word} (hword : word.Same word') :
    Agree (fun kind kind' => kind'.1 = kind.1 ∧ List.Forall₂ (Item.Renamed r) kind.2 kind'.2)
      (kindOfWord line word items) (kindOfWord line' word' items') := by
  unfold kindOfWord
  rw [show word'.text = word.text from hword]
  split_ifs with hextract hbitcast hlea hload hnone
  · refine (splitField_renamed hitems).map fun split split' hsplit => ?_
    exact ⟨congrArg NodeKind.extract hsplit.2, hsplit.1⟩
  · exact .ok ⟨rfl, hitems⟩
  · exact .ok ⟨rfl, hitems⟩
  · exact .ok ⟨rfl, hitems⟩
  · exact .error rfl
  · exact .ok ⟨rfl, hitems⟩

omit hitems in
theorem resultType_renamed (kind : NodeKind) (declared : Option ValueType) :
    Agree Eq (resultType line kind declared) (resultType line' kind declared) := by
  cases declared with
  | some type => exact .ok rfl
  | none =>
      cases kind with
      | extract field => exact .unexpected
      | param | reinterpret | address | load | store | other name => exact .ok rfl

end Operations

/-! ## Runs -/

/-- Two runs leave related states, and both succeed or both give a diagnostic with the same code. -/
inductive AgreeRun {σ : Type} (rel : σ → σ → Prop) :
    EStateM.Result Diagnostic σ Unit → EStateM.Result Diagnostic σ Unit → Prop where
  | ok {state state' : σ} (h : rel state state') : AgreeRun rel (.ok () state) (.ok () state')
  | error {diagnostic diagnostic' : Diagnostic} {left left' : σ}
      (hcode : diagnostic'.code = diagnostic.code) (h : rel left left') :
      AgreeRun rel (.error diagnostic left) (.error diagnostic' left')

section Runs

variable {σ α α' : Type} {rel : σ → σ → Prop} {given : α → α' → Prop} {state state' : σ}
  {next : α → Action σ Unit} {next' : α' → Action σ Unit}

/-- After checks that agree, the runs agree if they do so from there on. -/
theorem agreeRun_check {verdict : σ → Except Diagnostic α} {verdict' : σ → Except Diagnostic α'}
    (hstate : rel state state') (h : Agree given (verdict state) (verdict' state'))
    (hnext : ∀ value value', given value value' →
      AgreeRun rel (next value state) (next' value' state')) :
    AgreeRun rel ((Action.check verdict >>= next) state)
      ((Action.check verdict' >>= next') state') := by
  generalize hverdict : verdict state = found at h
  generalize hverdict' : verdict' state' = found' at h
  cases h with
  | ok hvalue =>
      rw [Action.check_bind_of_ok hverdict, Action.check_bind_of_ok hverdict']
      exact hnext _ _ hvalue
  | error hcode =>
      rw [Action.check_bind_of_error hverdict, Action.check_bind_of_error hverdict']
      exact .error hcode hstate

theorem agreeRun_lift {verdict : Except Diagnostic α} {verdict' : Except Diagnostic α'}
    (hstate : rel state state') (h : Agree given verdict verdict')
    (hnext : ∀ value value', given value value' →
      AgreeRun rel (next value state) (next' value' state')) :
    AgreeRun rel (((liftM verdict : Action σ α) >>= next) state)
      (((liftM verdict' : Action σ α') >>= next') state') :=
  agreeRun_check hstate h hnext

end Runs

/-- Two states of a line, with drafts that are the same but for the names, and warnings with the
same codes. -/
structure LineState.Renamed (r : Renaming) (plain : Kernel) (state state' : LineState) : Prop where
  draft : state.draft.Renamed r plain state'.draft
  codes : state'.warnings.map (·.code) = state.warnings.map (·.code)

theorem onDraft_renamed {action action' : Action Draft Unit} {state state' : LineState}
    (h : state.Renamed r plain state')
    (haction : AgreeRun (Draft.Renamed r plain) (action state.draft) (action' state'.draft)) :
    AgreeRun (LineState.Renamed r plain) (LineState.onDraft action state)
      (LineState.onDraft action' state') := by
  unfold LineState.onDraft Action.onPart
  generalize action state.draft = run at haction ⊢
  generalize action' state'.draft = run' at haction ⊢
  cases haction with
  | ok hdraft => exact .ok ⟨hdraft, h.codes⟩
  | error hcode hdraft => exact .error hcode ⟨hdraft, h.codes⟩

/-! ## Lines -/

section Lines

variable (h : draft.Renamed r plain draft') {tokens tokens' : List Token}
  (htokens : List.Forall₂ (Token.Renamed r) tokens tokens')

include h htokens

theorem readBlock_renamed :
    AgreeRun (Draft.Renamed r plain) (readBlock line tokens draft)
      (readBlock line' tokens' draft') :=
  agreeRun_lift h (readSize_renamed htokens .zeroBlock) fun _ _ hsize =>
    .ok ⟨⟨h.kernel, congrArg some hsize, h.filter, h.buffers, h.bufferLines⟩, h.scope⟩

theorem readFilter_renamed :
    AgreeRun (Draft.Renamed r plain) (readFilter line tokens draft)
      (readFilter line' tokens' draft') :=
  agreeRun_lift h (readSize_renamed htokens .zeroFilter) fun _ _ hsize =>
    .ok ⟨⟨h.kernel, h.block, congrArg some hsize, h.buffers, h.bufferLines⟩, h.scope⟩

omit h htokens in
theorem paramWarnings_renamed {phrase phrase' : ParamPhrase} (hphrase : phrase.Renamed r phrase') :
    (paramWarnings phrase').map (·.code) = (paramWarnings phrase).map (·.code) := by
  have hunknown := rel_of_isSome hphrase.unknown
  unfold paramWarnings
  generalize phrase.unknown = unknown at hunknown ⊢
  generalize phrase'.unknown = unknown' at hunknown ⊢
  cases hunknown with
  | none => rfl
  | some _ => rfl

theorem acceptParam_renamed {phrase phrase' : ParamPhrase} (hphrase : phrase.Renamed r phrase') :
    AgreeRun (Draft.Renamed r plain) (acceptParam line phrase tokens draft)
      (acceptParam line' phrase' tokens' draft') := by
  refine agreeRun_lift h (Renaming.expectEnd_renamed htokens) fun _ _ _ => ?_
  refine agreeRun_check h (requireNew_renamed h hphrase.name) fun _ _ _ => ?_
  rw [show phrase'.name.name = r.name phrase.name.name from hphrase.name, hphrase.type,
    hphrase.isFilter]
  exact .ok (addParameter_renamed h _ _ _ line line')

omit h in
theorem readParam_renamed {state state' : LineState} (h : state.Renamed r plain state') :
    AgreeRun (LineState.Renamed r plain) (readParam line tokens state)
      (readParam line' tokens' state') := by
  refine agreeRun_lift h (readParamPhrase_renamed htokens) fun read read' hread => ?_
  -- the two warnings have the same code
  have hcodes : (state'.warnings ++ paramWarnings read'.1).map (·.code) =
      (state.warnings ++ paramWarnings read.1).map (·.code) := by
    rw [List.map_append, List.map_append, h.codes, paramWarnings_renamed hread.1]
  exact onDraft_renamed ⟨h.draft, hcodes⟩ (acceptParam_renamed h.draft hread.2 hread.1)

theorem readStore_renamed :
    AgreeRun (Draft.Renamed r plain) (readStore line tokens draft)
      (readStore line' tokens' draft') := by
  refine agreeRun_lift h (Renaming.expectItems_renamed htokens) fun items items' hitems => ?_
  refine agreeRun_lift h (Renaming.expectEnd_renamed hitems.2) fun _ _ _ => ?_
  refine agreeRun_check h (resolveItems_renamed h hitems.1) fun operands operands' hoperands => ?_
  subst hoperands
  refine agreeRun_lift h (checkCount_renamed .store _ line line') fun _ _ _ => ?_
  exact .ok (addEffect_renamed h _ line line')

omit h in
theorem requireItems_renamed (name name' : Word) :
    Agree (List.Forall₂ (Item.Renamed r)) (requireItems line name tokens)
      (requireItems line' name' tokens') := by
  have hread := @callItems?_renamed r line line' _ _ htokens
  unfold requireItems
  generalize callItems? line tokens = read at hread ⊢
  generalize callItems? line' tokens' = read' at hread ⊢
  cases hread with
  | none => exact .error rfl
  | some hitems => exact .ok hitems

theorem readCall_renamed {name name' : Word} (hname : name.Same name') :
    AgreeRun (Draft.Renamed r plain) (readCall line name tokens draft)
      (readCall line' name' tokens' draft') := by
  refine agreeRun_lift h (requireItems_renamed htokens name name') fun items items' hitems => ?_
  refine agreeRun_check h (resolveItems_renamed h hitems) fun operands operands' hoperands => ?_
  subst hoperands
  rw [show name'.text = name.text from hname]
  exact .ok (addEffect_renamed h _ line line')

omit h htokens in
theorem requireName_renamed {value value' : ValueName} (hvalue : value.Renamed r value') :
    Agree (fun _ _ => True) (requireName line value) (requireName line' value') := by
  have hname : value'.name = r.name value.name := hvalue
  unfold requireName
  rw [hname, Renaming.isEmpty_name]
  split
  · exact .unexpected
  · exact .ok trivial

theorem readDefinition_renamed {value value' : ValueName} (hvalue : value.Renamed r value') :
    AgreeRun (Draft.Renamed r plain) (readDefinition line value tokens draft)
      (readDefinition line' value' tokens' draft') := by
  have hname : value'.name = r.name value.name := hvalue
  refine agreeRun_lift h (requireName_renamed hvalue) fun _ _ _ => ?_
  have hequals := @Renaming.expectSign_renamed r line line' _ _ htokens .equals nofun
  refine agreeRun_lift h hequals fun rest rest' hrest => ?_
  refine agreeRun_lift h (Renaming.expectWord_renamed hrest "operation") fun word word' hword => ?_
  refine agreeRun_lift h (Renaming.expectItems_renamed hword.2) fun items items' hitems => ?_
  refine agreeRun_lift h (Renaming.optionalType_renamed hitems.2) fun type type' htype => ?_
  refine agreeRun_lift h (Renaming.expectEnd_renamed htype.2) fun _ _ _ => ?_
  refine agreeRun_lift h (kindOfWord_renamed hitems.1 hword.1) fun kind kind' hkind => ?_
  dsimp only
  rw [hkind.1, ← htype.1]
  refine agreeRun_lift h (resultType_renamed kind.1 type.1) fun result result' hresult => ?_
  refine agreeRun_check h (resolveItems_renamed h hkind.2) fun operands operands' hoperands => ?_
  subst hresult hoperands
  refine agreeRun_lift h (checkCount_renamed kind.1 _ word.1.span word'.1.span) fun _ _ _ => ?_
  refine agreeRun_check h (requireNew_renamed h hvalue) fun _ _ _ => ?_
  rw [hname]
  exact .ok (addDefinition_renamed h value.name _ line line')

end Lines

/-- The texts of a buffer without a declaration are those of the kernel before the line. -/
theorem readBuffer_renamed (h : draft.Renamed r draft.kernel draft') {tokens tokens' : List Token}
    (htokens : List.Forall₂ (Token.Renamed r) tokens tokens') :
    AgreeRun (Draft.Renamed r draft.kernel) (readBuffer line tokens draft)
      (readBuffer line' tokens' draft') := by
  refine agreeRun_lift h (Renaming.expectValue_renamed htokens) fun value value' hvalue => ?_
  refine agreeRun_check h (resolve_renamed h hvalue.1) fun id id' hid => ?_
  subst hid
  refine agreeRun_check h (checkBuffer_renamed h value.1 value'.1 id) fun _ _ _ => ?_
  refine agreeRun_lift h (readElementType_renamed hvalue.2) fun elem elem' helem => ?_
  have hplain : ImageBuffer.Renamed (.ofValue draft.kernel id)
      (.ofValue (draft.kernel.rename r.name) id)
      { ImageBuffer.ofValue draft.kernel id with elem := elem.1 }
      { ImageBuffer.ofValue draft'.kernel id with elem := elem'.1 } := by
    rw [h.kernel, ← helem.1]
    refine ⟨rfl, Or.inr ⟨rfl, rfl⟩, Or.inr ⟨rfl, rfl⟩, Or.inr ⟨rfl, rfl⟩, ?_⟩
    exact (ImageBuffer.stride_ofValue _ id).trans (ImageBuffer.stride_ofValue _ id).symm
  refine agreeRun_check h (readAttributes_renamed hplain helem.2) fun image image' himage => ?_
  refine agreeRun_lift h (Renaming.expectEnd_renamed himage.2) fun _ _ _ => ?_
  refine agreeRun_check h (checkUndeclared_renamed h value.1 value'.1 id) fun _ _ _ => ?_
  exact .ok (declareBuffer_renamed h id himage.1 line line')

/-- A line with renamed values is refused with the same code, or accepted as well. What it leaves
behind is the same but for the names, and its warnings have the same codes. -/
theorem readLine_renamed {state state' : LineState}
    (h : state.Renamed r state.draft.kernel state') {first first' : Token}
    (hfirst : first.Renamed r first') {tokens tokens' : List Token}
    (htokens : List.Forall₂ (Token.Renamed r) tokens tokens') :
    AgreeRun (LineState.Renamed r state.draft.kernel) (readLine line first tokens state)
      (readLine line' first' tokens' state') := by
  obtain ⟨lexeme, span⟩ := first
  obtain ⟨span', rfl⟩ := hfirst.exists_span
  cases lexeme with
  | value name => exact onDraft_renamed h (readDefinition_renamed h.draft htokens rfl)
  | comma | colon | equals | question => exact .error rfl h
  | word text =>
      unfold readLine
      dsimp only [Renaming.lexeme]
      split_ifs
      · exact onDraft_renamed h (readBlock_renamed h.draft htokens)
      · exact onDraft_renamed h (readFilter_renamed h.draft htokens)
      · exact readParam_renamed htokens h
      · exact onDraft_renamed h (readBuffer_renamed h.draft htokens)
      · exact onDraft_renamed h (readStore_renamed h.draft htokens)
      · exact onDraft_renamed h (readCall_renamed h.draft htokens rfl)

end Draft

end BufferPromotion
