import BufferPromotion.Listing.Directive
import BufferPromotion.Proofs.Buffer.Image
import BufferPromotion.Proofs.Diagnostic.Action
import BufferPromotion.Proofs.Listing.Draft
import BufferPromotion.Proofs.Listing.Phrase

/-! # What directives accept

A line is accepted in one way only: its phrases are there, its operands are known, and its name is
new. Every reader comes with the exact condition under which it gives a draft, and with the draft
that it then gives.
-/

set_option autoImplicit false

namespace BufferPromotion

namespace Draft

variable {draft result : Draft} {line : Span} {tokens : List Token}

/-! ## Operands -/

/-- An item is the name of a value. -/
def Names (draft : Draft) (item : Item) (id : ValueId) : Prop :=
  ∃ value, item = .value value ∧ value.name.isEmpty = false ∧
    (draft.lookup value.name).map (·.id) = some id

/-- A name is not empty and stands for a value. -/
def Binds (draft : Draft) (name : String) (id : ValueId) : Prop :=
  name ≠ "" ∧ (draft.lookup name).map (·.id) = some id

/-- An item names a value if its lexeme is a name of it. -/
theorem names_iff {item : Item} {id : ValueId} :
    draft.Names item id ↔ ∃ name, item.token.lexeme = .value name ∧ draft.Binds name id := by
  constructor
  · rintro ⟨value, rfl, hname, hfound⟩
    exact ⟨value.name, rfl, String.isEmpty_eq_false_iff.mp hname, hfound⟩
  · rintro ⟨name, hlexeme, hname, hfound⟩
    cases item with
    | value value =>
        cases hlexeme
        exact ⟨value, rfl, String.isEmpty_eq_false_iff.mpr hname, hfound⟩
    | word word => cases hlexeme

/-- Items name values if their lexemes are names of them. -/
theorem forall₂_names_iff {items : List Item} {ids : List ValueId} :
    List.Forall₂ draft.Names items ids ↔
      ∃ names, items.map (·.token.lexeme) = names.map .value ∧
        List.Forall₂ draft.Binds names ids := by
  constructor
  · intro h
    induction h with
    | nil => exact ⟨[], rfl, .nil⟩
    | cons hitem _ ih =>
        obtain ⟨name, hlexeme, hname⟩ := names_iff.mp hitem
        obtain ⟨names, hnames, hbinds⟩ := ih
        exact ⟨name :: names, by rw [List.map_cons, List.map_cons, hlexeme, hnames],
          .cons hname hbinds⟩
  · rintro ⟨names, hnames, hbinds⟩
    induction hbinds generalizing items with
    | nil =>
        rw [List.map_eq_nil_iff.mp hnames]
        exact .nil
    | cons hname _ ih =>
        obtain ⟨item, others, rfl, hitem, hothers⟩ := List.map_eq_cons_iff.mp hnames
        exact .cons (names_iff.mpr ⟨_, hitem, hname⟩) (ih hothers)

theorem resolve_eq_ok_iff {value : ValueName} {id : ValueId} :
    draft.resolve value = .ok id ↔ (draft.lookup value.name).map (·.id) = some id := by
  unfold resolve
  cases draft.lookup value.name with
  | none => exact ⟨nofun, nofun⟩
  | some definition => exact ⟨fun h => congrArg some (Except.ok.inj h),
      fun h => congrArg Except.ok (Option.some.inj h)⟩

theorem resolveItem_eq_ok_iff {item : Item} {id : ValueId} :
    draft.resolveItem line item = .ok id ↔ draft.Names item id := by
  constructor
  · intro h
    cases item with
    | word word => cases h
    | value value =>
        unfold resolveItem at h
        dsimp only at h
        split at h
        · cases h
        · next hname =>
          exact ⟨value, rfl, Bool.eq_false_iff.mpr hname, resolve_eq_ok_iff.mp h⟩
  · rintro ⟨value, rfl, hname, hfound⟩
    show (if value.name.isEmpty then _ else draft.resolve value) = _
    rw [hname, resolve_eq_ok_iff.mpr hfound]
    rfl

theorem resolveItems_eq_ok_iff {items : List Item} {ids : List ValueId} :
    draft.resolveItems line items = .ok ids ↔ List.Forall₂ draft.Names items ids := by
  induction items generalizing ids with
  | nil =>
      constructor
      · intro h
        cases h
        exact .nil
      · intro h
        cases h
        rfl
  | cons item items ih =>
      constructor
      · intro h
        obtain ⟨id, hid, h⟩ := bind_eq_ok_iff.mp h
        obtain ⟨others, hothers, h⟩ := bind_eq_ok_iff.mp h
        cases h
        exact .cons (resolveItem_eq_ok_iff.mp hid) (ih.mp hothers)
      · intro h
        cases h with
        | cons hid hothers =>
            exact bind_eq_ok_iff.mpr ⟨_, resolveItem_eq_ok_iff.mpr hid,
              bind_eq_ok_iff.mpr ⟨_, ih.mpr hothers, rfl⟩⟩

theorem requireNew_eq_ok_iff {value : ValueName} :
    draft.requireNew value = .ok () ↔ draft.lookup value.name = none := by
  unfold requireNew
  cases draft.lookup value.name with
  | none => exact ⟨fun _ => rfl, fun _ => rfl⟩
  | some first => exact ⟨nofun, nofun⟩

theorem requireName_eq_ok_iff {value : ValueName} :
    requireName line value = .ok () ↔ value.name.isEmpty = false := by
  unfold requireName
  cases value.name.isEmpty with
  | true => exact ⟨nofun, nofun⟩
  | false => exact ⟨fun _ => rfl, fun _ => rfl⟩

theorem checkCount_eq_ok_iff {kind : NodeKind} {count : Nat} :
    checkCount kind count line = .ok () ↔ kind.accepts count = true := by
  unfold checkCount
  cases kind.accepts count with
  | false => exact ⟨nofun, nofun⟩
  | true => exact ⟨fun _ => rfl, fun _ => rfl⟩

/-! ## Definitions -/

/-- The words that name an operation with a result, and the items that are not operands. -/
theorem kindOfWord_eq_ok_iff {word : Word} {items args : List Item} {kind : NodeKind} :
    kindOfWord line word items = .ok (kind, args) ↔
      match kind with
      | .extract field => word.text = "extract" ∧ ∃ span, items = args ++ [.word ⟨field, span⟩]
      | .reinterpret => word.text = "bitcast" ∧ items = args
      | .address => word.text = "lea" ∧ items = args
      | .load => word.text = "load" ∧ items = args
      | .other name => word.text = name ∧ name ∉ operationWords ∧ items = args
      | .param | .store => False := by
  constructor
  · intro h
    unfold kindOfWord at h
    split at h
    · next htext =>
      obtain ⟨⟨operands, field⟩, hfield, heq⟩ := map_eq_ok_iff.mp h
      cases heq
      refine ⟨htext, ?_⟩
      unfold splitField at hfield
      split at hfield
      · next word hlast =>
        cases hfield
        obtain ⟨others, hothers⟩ := List.getLast?_eq_some_iff.mp hlast
        exact ⟨word.span, by rw [hothers, List.dropLast_concat]⟩
      · cases hfield
    split at h
    · next htext =>
      cases h
      exact ⟨htext, rfl⟩
    split at h
    · next htext =>
      cases h
      exact ⟨htext, rfl⟩
    split at h
    · next htext =>
      cases h
      exact ⟨htext, rfl⟩
    split at h
    · cases h
    · next hextract hbitcast hlea hload hnone =>
      cases h
      refine ⟨rfl, ?_, rfl⟩
      simp only [operationWords, List.mem_cons, List.not_mem_nil, or_false, not_or]
      exact ⟨hextract, hbitcast, hlea, hload, not_or.mp hnone⟩
  · intro h
    cases kind with
    | extract field =>
        obtain ⟨htext, span, rfl⟩ := h
        unfold kindOfWord splitField
        rw [if_pos htext, List.getLast?_concat, List.dropLast_concat]
        rfl
    | reinterpret | address | load =>
        obtain ⟨htext, rfl⟩ := h
        unfold kindOfWord
        rw [htext]
        rfl
    | other name =>
        obtain ⟨rfl, hword, rfl⟩ := h
        simp only [operationWords, List.mem_cons, List.not_mem_nil, or_false, not_or] at hword
        unfold kindOfWord
        rw [if_neg hword.1, if_neg hword.2.1, if_neg hword.2.2.1, if_neg hword.2.2.2.1,
          if_neg (not_or.mpr hword.2.2.2.2)]
    | param | store => exact absurd h id

theorem readDefinition_eq_ok_iff {value : ValueName} :
    readDefinition line value tokens draft = .ok () result ↔
      value.name.isEmpty = false ∧ draft.lookup value.name = none ∧
        ∃ equals word more items rest declared kind args type ids,
          tokens = ⟨.equals, equals⟩ :: ⟨.word word.text, word.span⟩ :: more ∧
          expectItems line more = .ok (items, rest) ∧
          rest.map (·.lexeme) = declaredLexemes declared ∧
          kindOfWord line word items = .ok (kind, args) ∧
          resultType line kind declared = .ok type ∧ List.Forall₂ draft.Names args ids ∧
          kind.accepts ids.length = true ∧
          result = draft.addDefinition value.name ⟨kind, some type, ids⟩ line := by
  constructor
  · -- every step of the reader succeeds, and each of them says what its tokens are
    intro h
    obtain ⟨_, hname, h⟩ := Action.lift_bind_eq_ok_iff.mp h
    obtain ⟨left, hequals, h⟩ := Action.lift_bind_eq_ok_iff.mp h
    obtain ⟨⟨word, more⟩, hword, h⟩ := Action.lift_bind_eq_ok_iff.mp h
    obtain ⟨⟨items, rest⟩, hitems, h⟩ := Action.lift_bind_eq_ok_iff.mp h
    obtain ⟨⟨declared, final⟩, hdeclared, h⟩ := Action.lift_bind_eq_ok_iff.mp h
    obtain ⟨_, hend, h⟩ := Action.lift_bind_eq_ok_iff.mp h
    obtain ⟨⟨kind, args⟩, hkind, h⟩ := Action.lift_bind_eq_ok_iff.mp h
    obtain ⟨type, htype, h⟩ := Action.lift_bind_eq_ok_iff.mp h
    obtain ⟨ids, hids, h⟩ := Action.check_bind_eq_ok_iff.mp h
    obtain ⟨_, hcount, h⟩ := Action.lift_bind_eq_ok_iff.mp h
    obtain ⟨_, hnew, h⟩ := Action.check_bind_eq_ok_iff.mp h
    cases h
    obtain ⟨equals, htokens⟩ := expectSign_eq_ok_iff.mp hequals
    rw [expectWord_eq_ok_iff.mp hword] at htokens
    rw [expectEnd_eq_ok_iff.mp hend] at hdeclared
    exact ⟨requireName_eq_ok_iff.mp hname, requireNew_eq_ok_iff.mp hnew, equals, word, more, items,
      rest, declared, kind, args, type, ids, htokens, hitems, optionalType_eq_ok_iff.mp hdeclared,
      hkind, htype, resolveItems_eq_ok_iff.mp hids, checkCount_eq_ok_iff.mp hcount, rfl⟩
  · rintro ⟨hname, hnew, equals, word, more, items, rest, declared, kind, args, type, ids, rfl,
      hitems, hdeclared, hkind, htype, hids, hcount, rfl⟩
    refine Action.lift_bind_eq_ok_iff.mpr ⟨_, requireName_eq_ok_iff.mpr hname, ?_⟩
    refine Action.lift_bind_eq_ok_iff.mpr ⟨_, expectSign_eq_ok_iff.mpr ⟨equals, rfl⟩, ?_⟩
    refine Action.lift_bind_eq_ok_iff.mpr ⟨_, expectWord_eq_ok_iff.mpr rfl, ?_⟩
    refine Action.lift_bind_eq_ok_iff.mpr ⟨_, hitems, ?_⟩
    refine Action.lift_bind_eq_ok_iff.mpr ⟨_, optionalType_eq_ok_iff.mpr hdeclared, ?_⟩
    refine Action.lift_bind_eq_ok_iff.mpr ⟨_, rfl, ?_⟩
    refine Action.lift_bind_eq_ok_iff.mpr ⟨_, hkind, ?_⟩
    refine Action.lift_bind_eq_ok_iff.mpr ⟨_, htype, ?_⟩
    refine Action.check_bind_eq_ok_iff.mpr ⟨_, resolveItems_eq_ok_iff.mpr hids, ?_⟩
    refine Action.lift_bind_eq_ok_iff.mpr ⟨_, checkCount_eq_ok_iff.mpr hcount, ?_⟩
    exact Action.check_bind_eq_ok_iff.mpr ⟨_, requireNew_eq_ok_iff.mpr hnew, rfl⟩

/-- The type of a result is the declared one, or else the default of the operation. An extraction
has no default. -/
theorem resultType_eq_ok_iff {kind : NodeKind} {declared : Option ValueType} {type : ValueType} :
    resultType line kind declared = .ok type ↔
      match kind with
      | .extract _ => declared = some type
      | .reinterpret | .address => declared.getD .pointer = type
      | .param | .load | .store | .other _ => declared.getD .scalar = type := by
  cases declared with
  | none =>
      cases kind with
      | extract field => exact ⟨nofun, nofun⟩
      | param | reinterpret | address | load | store | other name =>
          exact ⟨Except.ok.inj, congrArg Except.ok⟩
  | some declared =>
      cases kind with
      | extract field =>
          exact ⟨fun h => congrArg some (Except.ok.inj h),
            fun h => congrArg Except.ok (Option.some.inj h)⟩
      | param | reinterpret | address | load | store | other name =>
          exact ⟨Except.ok.inj, congrArg Except.ok⟩

theorem resultType_eq_ok {kind : NodeKind} {declared : Option ValueType} {type : ValueType}
    (h : resultType line kind declared = .ok type) :
    declared = some type ∨ type = .pointer ∨ type = .scalar := by
  unfold resultType at h
  split at h
  · cases h
    exact Or.inl rfl
  · cases h
  · cases h
    exact Or.inr (Or.inl rfl)
  · cases h
    exact Or.inr (Or.inl rfl)
  · cases h
    exact Or.inr (Or.inr rfl)

/-! ## Operations without a result -/

theorem readStore_eq_ok_iff :
    readStore line tokens draft = .ok () result ↔
      ∃ items ids, expectItems line tokens = .ok (items, []) ∧
        List.Forall₂ draft.Names items ids ∧ NodeKind.store.accepts ids.length = true ∧
        result = draft.addEffect ⟨.store, none, ids⟩ line := by
  constructor
  · intro h
    obtain ⟨⟨items, rest⟩, hitems, h⟩ := Action.lift_bind_eq_ok_iff.mp h
    obtain ⟨_, hend, h⟩ := Action.lift_bind_eq_ok_iff.mp h
    obtain ⟨ids, hids, h⟩ := Action.check_bind_eq_ok_iff.mp h
    obtain ⟨_, hcount, h⟩ := Action.lift_bind_eq_ok_iff.mp h
    cases h
    rw [expectEnd_eq_ok_iff.mp hend] at hitems
    exact ⟨items, ids, hitems, resolveItems_eq_ok_iff.mp hids, checkCount_eq_ok_iff.mp hcount, rfl⟩
  · rintro ⟨items, ids, hitems, hids, hcount, rfl⟩
    refine Action.lift_bind_eq_ok_iff.mpr ⟨_, hitems, ?_⟩
    refine Action.lift_bind_eq_ok_iff.mpr ⟨_, rfl, ?_⟩
    refine Action.check_bind_eq_ok_iff.mpr ⟨_, resolveItems_eq_ok_iff.mpr hids, ?_⟩
    exact Action.lift_bind_eq_ok_iff.mpr ⟨_, checkCount_eq_ok_iff.mpr hcount, rfl⟩

theorem all_isValue {items : List Item} {ids : List ValueId}
    (h : List.Forall₂ draft.Names items ids) : items.all Item.isValue = true := by
  induction h with
  | nil => rfl
  | cons hitem _ ih =>
      obtain ⟨value, rfl, -⟩ := hitem
      exact ih

theorem requireItems_eq_ok_iff {name : Word} {items : List Item} :
    requireItems line name tokens = .ok items ↔
      expectItems line tokens = .ok (items, []) ∧ items.all Item.isValue = true := by
  constructor
  · intro h
    unfold requireItems callItems? at h
    split at h
    · next found hcall =>
      cases h
      split at hcall
      · next hitems =>
        split at hcall
        · next hall =>
          cases hcall
          exact ⟨hitems, hall⟩
        · cases hcall
      · cases hcall
    · cases h
  · rintro ⟨hitems, hall⟩
    have hcall : callItems? line tokens = some items := by
      unfold callItems?
      rw [hitems]
      exact if_pos hall
    unfold requireItems
    rw [hcall]

theorem readCall_eq_ok_iff {name : Word} :
    readCall line name tokens draft = .ok () result ↔
      ∃ items ids, expectItems line tokens = .ok (items, []) ∧
        List.Forall₂ draft.Names items ids ∧
        result = draft.addEffect ⟨.other name.text, none, ids⟩ line := by
  constructor
  · intro h
    obtain ⟨items, hitems, h⟩ := Action.lift_bind_eq_ok_iff.mp h
    obtain ⟨ids, hids, h⟩ := Action.check_bind_eq_ok_iff.mp h
    cases h
    exact ⟨items, ids, (requireItems_eq_ok_iff.mp hitems).1, resolveItems_eq_ok_iff.mp hids, rfl⟩
  · rintro ⟨items, ids, hitems, hids, rfl⟩
    refine Action.lift_bind_eq_ok_iff.mpr
      ⟨_, requireItems_eq_ok_iff.mpr ⟨hitems, all_isValue hids⟩, ?_⟩
    exact Action.check_bind_eq_ok_iff.mpr ⟨_, resolveItems_eq_ok_iff.mpr hids, rfl⟩

/-! ## Parameters -/

theorem readParamType_eq_some_iff {type : ValueType} {unknown : Option Span} {rest : List Token} :
    readParamType line tokens = .ok ((some type, unknown), rest) ↔
      unknown = none ∧ ∃ read, tokens = read ++ rest ∧ read.map (·.lexeme) = type.lexemes := by
  constructor
  · intro h
    unfold readParamType at h
    split at h
    · cases h
    · obtain ⟨⟨word, more⟩, hword, h⟩ := bind_eq_ok_iff.mp h
      obtain ⟨⟨found, left⟩, hfound, h⟩ := bind_eq_ok_iff.mp h
      cases found with
      | none => cases h
      | some found =>
          cases h
          exact ⟨rfl, (exists_typeOfWord_iff _).mp ⟨word, more, hword, hfound⟩⟩
  · rintro ⟨rfl, h⟩
    obtain ⟨word, more, hword, hfound⟩ := (exists_typeOfWord_iff "type").mpr h
    have hread : readParamType line (⟨.word word.text, word.span⟩ :: more) =
        .ok ((some type, none), rest) :=
      bind_eq_ok_iff.mpr ⟨_, expectWord_eq_ok_iff.mpr rfl, bind_eq_ok_iff.mpr ⟨_, hfound, rfl⟩⟩
    rw [expectWord_eq_ok_iff.mp hword]
    exact hread

/-- A type that is not known has a place. -/
theorem isSome_of_readParamType {unknown : Option Span} {rest : List Token}
    (h : readParamType line tokens = .ok ((none, unknown), rest)) : unknown.isSome = true := by
  unfold readParamType at h
  split at h
  · cases h
    rfl
  · obtain ⟨⟨word, more⟩, hword, h⟩ := bind_eq_ok_iff.mp h
    obtain ⟨⟨found, left⟩, hfound, h⟩ := bind_eq_ok_iff.mp h
    cases found with
    | none =>
        cases h
        rfl
    | some type => cases h

theorem readParamPhrase_eq_ok_iff {phrase : ParamPhrase} {rest : List Token} :
    readParamPhrase line tokens = .ok (phrase, rest) ↔
      phrase.name.name.isEmpty = false ∧
        ∃ colon more, tokens = phrase.name.token :: ⟨.colon, colon⟩ :: more ∧
          (readFilterMark more).1 = phrase.isFilter ∧
          readParamType line (readFilterMark more).2 =
            .ok ((phrase.type, phrase.unknown), rest) := by
  constructor
  · intro h
    obtain ⟨⟨name, left⟩, hname, h⟩ := bind_eq_ok_iff.mp h
    obtain ⟨more, hcolon, h⟩ := bind_eq_ok_iff.mp h
    obtain ⟨⟨⟨type, unknown⟩, left⟩, htype, h⟩ := bind_eq_ok_iff.mp h
    cases h
    obtain ⟨rfl, hne⟩ := expectValue_eq_ok_iff.mp hname
    obtain ⟨colon, rfl⟩ := expectSign_eq_ok_iff.mp hcolon
    exact ⟨hne, colon, more, rfl, rfl, htype⟩
  · rintro ⟨hname, colon, more, rfl, hmark, htype⟩
    refine bind_eq_ok_iff.mpr ⟨_, expectValue_eq_ok_iff.mpr ⟨rfl, hname⟩, ?_⟩
    refine bind_eq_ok_iff.mpr ⟨_, expectSign_eq_ok_iff.mpr ⟨colon, rfl⟩, ?_⟩
    refine bind_eq_ok_iff.mpr ⟨_, htype, ?_⟩
    obtain ⟨name, isFilter, type, unknown⟩ := phrase
    cases hmark
    rfl

theorem acceptParam_eq_ok_iff {phrase : ParamPhrase} :
    acceptParam line phrase tokens draft = .ok () result ↔
      tokens = [] ∧ draft.lookup phrase.name.name = none ∧
        result = draft.addParameter phrase.name.name phrase.type phrase.isFilter line := by
  constructor
  · intro h
    obtain ⟨_, hend, h⟩ := Action.lift_bind_eq_ok_iff.mp h
    obtain ⟨_, hnew, h⟩ := Action.check_bind_eq_ok_iff.mp h
    cases h
    exact ⟨expectEnd_eq_ok_iff.mp hend, requireNew_eq_ok_iff.mp hnew, rfl⟩
  · rintro ⟨rfl, hnew, rfl⟩
    refine Action.lift_bind_eq_ok_iff.mpr ⟨_, rfl, ?_⟩
    exact Action.check_bind_eq_ok_iff.mpr ⟨_, requireNew_eq_ok_iff.mpr hnew, rfl⟩

/-- Work on the draft adds no warnings. -/
theorem onDraft_eq_ok_iff {action : Action Draft Unit} {state : LineState} {next : LineState} :
    LineState.onDraft action state = .ok () next ↔
      action state.draft = .ok () next.draft ∧ next.warnings = state.warnings := by
  unfold LineState.onDraft
  rw [Action.onPart_eq_ok_iff]
  constructor
  · rintro ⟨left, hrun, rfl⟩
    exact ⟨hrun, rfl⟩
  · rintro ⟨hrun, hwarnings⟩
    refine ⟨next.draft, hrun, ?_⟩
    rw [← hwarnings]

theorem readParam_eq_ok_iff {warnings : List Diagnostic} :
    readParam line tokens ⟨draft, []⟩ = .ok () ⟨result, warnings⟩ ↔
      ∃ phrase, readParamPhrase line tokens = .ok (phrase, []) ∧
        draft.lookup phrase.name.name = none ∧ warnings = paramWarnings phrase ∧
        result = draft.addParameter phrase.name.name phrase.type phrase.isFilter line := by
  constructor
  · intro h
    obtain ⟨⟨phrase, rest⟩, hphrase, h⟩ := Action.lift_bind_eq_ok_iff.mp h
    obtain ⟨haccept, hwarnings⟩ := onDraft_eq_ok_iff.mp h
    obtain ⟨rfl, hnew, hresult⟩ := acceptParam_eq_ok_iff.mp haccept
    exact ⟨phrase, hphrase, hnew, hwarnings, hresult⟩
  · rintro ⟨phrase, hphrase, hnew, rfl, rfl⟩
    refine Action.lift_bind_eq_ok_iff.mpr ⟨_, hphrase, ?_⟩
    exact onDraft_eq_ok_iff.mpr ⟨acceptParam_eq_ok_iff.mpr ⟨rfl, hnew, rfl⟩, rfl⟩

/-! ## Lines -/

/-- A buffer can be declared for a parameter, and for a value that starts its own buffer. -/
theorem checkBuffer_eq_ok_iff {value : ValueName} {id : ValueId} :
    draft.checkBuffer value id = .ok () ↔
      (draft.kernel.param? id).isSome = true ∨ draft.kernel.bufferStart id = some id := by
  unfold checkBuffer
  split
  · next h =>
    rw [Bool.or_eq_true, beq_iff_eq] at h
    exact iff_of_true rfl h
  · next h =>
    rw [Bool.or_eq_true, beq_iff_eq] at h
    exact iff_of_false nofun h

/-- No attribute makes a stride zero. -/
theorem stride_ne_zero_of_setAttribute {image next : ImageBuffer} {key value : Word}
    (himage : image.stride ≠ 0) (h : setAttribute line image key value = .ok next) :
    next.stride ≠ 0 := by
  unfold setAttribute at h
  dsimp only at h
  split at h
  · cases h
    exact himage
  split at h
  · cases h
    exact himage
  split at h
  · cases h
    exact himage
  split at h
  · split at h
    · split at h
      · cases h
      · next hstride =>
        cases h
        exact hstride
    · cases h
  · cases h

theorem stride_ne_zero_of_readAttributes {image next : ImageBuffer} {rest : List Token}
    (himage : image.stride ≠ 0) (h : readAttributes line image tokens = .ok (next, rest)) :
    next.stride ≠ 0 := by
  induction image, tokens using readAttributes.induct with
  | case1 image key keySpan span value valueSpan tokens ih =>
      rw [readAttributes] at h
      obtain ⟨changed, hset, h⟩ := bind_eq_ok_iff.mp h
      exact ih changed (stride_ne_zero_of_setAttribute himage hset) h
  | case2 image key keySpan span tokens hvalue =>
      rw [readAttributes] at h
      · cases h
      · exact hvalue
  | case3 image key keySpan tokens hvalue hequals =>
      rw [readAttributes] at h
      · cases h
      · exact hvalue
      · exact hequals
  | case4 image tokens hvalue hequals hkey =>
      rw [readAttributes] at h
      · cases h
        exact himage
      · exact hvalue
      · exact hequals
      · exact hkey

/-- What an accepted line about the launch or a buffer does: it changes the draft in one place,
where it puts what it has checked. -/
inductive Sets (draft : Draft) (line : Span) (first : Token) (tokens : List Token) : Draft → Prop
  | block (size : Size) (hfirst : first.lexeme = .word "block") (hsize : size.hasZero = false) :
      Sets draft line first tokens { draft with block := some ⟨size, line⟩ }
  | filter (size : Size) (hfirst : first.lexeme = .word "filter") (hsize : size.hasZero = false) :
      Sets draft line first tokens { draft with filter := some ⟨size, line⟩ }
  | buffer (id : ValueId) (image : ImageBuffer) (hfirst : first.lexeme = .word "buffer")
      (hvalue : ∃ value more, tokens = ValueName.token value :: more ∧
        (draft.lookup value.name).map (·.id) = some id)
      (hstart : (draft.kernel.param? id).isSome = true ∨ draft.kernel.bufferStart id = some id)
      (hstride : image.stride ≠ 0) :
      Sets draft line first tokens (draft.declareBuffer id image line)

/-- Such a line changes no value. -/
theorem Sets.unchanged {first : Token} (h : draft.Sets line first tokens result) :
    result.kernel = draft.kernel ∧ result.scope = draft.scope := by
  cases h <;> exact ⟨rfl, rfl⟩

theorem readSize_eq_ok {zero : LaunchFault} {declared : DeclaredSize}
    (h : readSize line zero tokens = .ok declared) :
    ∃ size : Size, size.hasZero = false ∧ declared = ⟨size, line⟩ := by
  obtain ⟨⟨x, tokens⟩, -, h⟩ := bind_eq_ok_iff.mp h
  obtain ⟨⟨y, tokens⟩, -, h⟩ := bind_eq_ok_iff.mp h
  obtain ⟨_, -, h⟩ := bind_eq_ok_iff.mp h
  dsimp only at h
  split at h
  · cases h
  · next hzero => exact ⟨⟨x, y⟩, Bool.eq_false_iff.mpr hzero, (Except.ok.inj h).symm⟩

theorem readBuffer_eq_ok {first : Token} (hfirst : first.lexeme = .word "buffer")
    (h : readBuffer line tokens draft = .ok () result) : draft.Sets line first tokens result := by
  obtain ⟨⟨value, more⟩, hvalue, h⟩ := Action.lift_bind_eq_ok_iff.mp h
  obtain ⟨id, hid, h⟩ := Action.check_bind_eq_ok_iff.mp h
  obtain ⟨_, hstart, h⟩ := Action.check_bind_eq_ok_iff.mp h
  obtain ⟨⟨elem, left⟩, -, h⟩ := Action.lift_bind_eq_ok_iff.mp h
  obtain ⟨⟨image, rest⟩, himage, h⟩ := Action.check_bind_eq_ok_iff.mp h
  obtain ⟨_, -, h⟩ := Action.lift_bind_eq_ok_iff.mp h
  obtain ⟨_, -, h⟩ := Action.check_bind_eq_ok_iff.mp h
  cases h
  refine .buffer id image hfirst ⟨value, more, (expectValue_eq_ok_iff.mp hvalue).1,
    resolve_eq_ok_iff.mp hid⟩ (checkBuffer_eq_ok_iff.mp hstart) ?_
  -- without the attribute there is one element per pixel
  refine stride_ne_zero_of_readAttributes ?_ himage
  rw [ImageBuffer.stride_ofValue]
  decide

/-- What an accepted line inside a kernel can be: a parameter, a definition, a store, a call, or a
line about the launch or a buffer, which changes no value. Only a parameter gives warnings. -/
theorem readLine_cases {first : Token} (hfirst : first.lexeme ≠ .word "kernel")
    {warnings : List Diagnostic}
    (h : readLine line first tokens ⟨draft, []⟩ = .ok () ⟨result, warnings⟩) :
    (first.lexeme = .word "param" ∧
        readParam line tokens ⟨draft, []⟩ = .ok () ⟨result, warnings⟩) ∨
      (warnings = [] ∧ ∃ name, first.lexeme = .value name ∧
        readDefinition line ⟨name, first.span⟩ tokens draft = .ok () result) ∨
      (warnings = [] ∧ first.lexeme = .word "store" ∧
        readStore line tokens draft = .ok () result) ∨
      (warnings = [] ∧ ∃ text, first.lexeme = .word text ∧ text ∉ directiveWords ∧
        readCall line ⟨text, first.span⟩ tokens draft = .ok () result) ∨
      (warnings = [] ∧ draft.Sets line first tokens result) := by
  -- the cases are those of `readLine`: a value first, then the words in the order of its tests
  unfold readLine at h
  cases hlexeme : first.lexeme with
  | value name =>
      rw [hlexeme] at h
      obtain ⟨h, hwarnings⟩ := onDraft_eq_ok_iff.mp h
      exact Or.inr (Or.inl ⟨hwarnings, name, rfl, h⟩)
  | word text =>
      rw [hlexeme] at h hfirst
      dsimp only at h
      split at h
      · next htext =>
        obtain ⟨h, hwarnings⟩ := onDraft_eq_ok_iff.mp h
        obtain ⟨declared, hdeclared, hresult⟩ := Action.lift_bind_eq_ok_iff.mp h
        obtain ⟨size, hsize, rfl⟩ := readSize_eq_ok hdeclared
        cases hresult
        exact Or.inr (Or.inr (Or.inr (Or.inr
          ⟨hwarnings, .block size (by rw [hlexeme, htext]) hsize⟩)))
      split at h
      · next htext =>
        obtain ⟨h, hwarnings⟩ := onDraft_eq_ok_iff.mp h
        obtain ⟨declared, hdeclared, hresult⟩ := Action.lift_bind_eq_ok_iff.mp h
        obtain ⟨size, hsize, rfl⟩ := readSize_eq_ok hdeclared
        cases hresult
        exact Or.inr (Or.inr (Or.inr (Or.inr
          ⟨hwarnings, .filter size (by rw [hlexeme, htext]) hsize⟩)))
      split at h
      · next htext => exact Or.inl ⟨by rw [htext], h⟩
      split at h
      · next htext =>
        obtain ⟨h, hwarnings⟩ := onDraft_eq_ok_iff.mp h
        exact Or.inr (Or.inr (Or.inr (Or.inr
          ⟨hwarnings, readBuffer_eq_ok (by rw [hlexeme, htext]) h⟩)))
      split at h
      · next htext =>
        obtain ⟨h, hwarnings⟩ := onDraft_eq_ok_iff.mp h
        exact Or.inr (Or.inr (Or.inl ⟨hwarnings, by rw [htext], h⟩))
      · next hblock hfilter hparam hbuffer hstore =>
        obtain ⟨h, hwarnings⟩ := onDraft_eq_ok_iff.mp h
        refine Or.inr (Or.inr (Or.inr (Or.inl ⟨hwarnings, text, rfl, ?_, h⟩)))
        simp only [directiveWords, List.mem_cons, List.not_mem_nil, or_false, not_or]
        exact ⟨fun heq => hfirst (by rw [heq]), hblock, hfilter, hparam, hbuffer, hstore⟩
  | comma | colon | equals | question =>
      rw [hlexeme] at h
      cases h

/-- What every other accepted line does: it makes the next value, and records its place for it. -/
structure Adds (draft : Draft) (line : Span) (next : Draft) : Prop where
  nodes : ∃ node, next.kernel.nodes = draft.kernel.nodes.push node
  params : draft.kernel.params ⊆ next.kernel.params
  rest : next.toListedKernel = { draft.toListedKernel with
    kernel := next.kernel, spans := draft.spans.insert draft.kernel.nextId line }

/-- The first token of an accepted line says which of the two the line does. -/
theorem adds_or_sets_of_readLine {first : Token} (hfirst : first.lexeme ≠ .word "kernel")
    {warnings : List Diagnostic}
    (h : readLine line first tokens ⟨draft, []⟩ = .ok () ⟨result, warnings⟩) :
    ((∀ word ∈ ["block", "filter", "buffer"], first.lexeme ≠ .word word) ∧
      draft.Adds line result) ∨ draft.Sets line first tokens result := by
  rcases readLine_cases hfirst h with ⟨hlexeme, h⟩ | ⟨-, name, hlexeme, h⟩ | ⟨-, hlexeme, h⟩ |
    ⟨-, text, hlexeme, hdirective, h⟩ | ⟨-, hsets⟩
  · obtain ⟨_, -, -, -, rfl⟩ := readParam_eq_ok_iff.mp h
    rw [hlexeme]
    exact Or.inl ⟨by decide, ⟨_, rfl⟩, List.subset_append_left _ _, rfl⟩
  · obtain ⟨-, -, _, _, _, _, _, _, _, _, _, _, -, -, -, -, -, -, -, rfl⟩ :=
      readDefinition_eq_ok_iff.mp h
    rw [hlexeme]
    exact Or.inl ⟨fun _ _ => nofun, ⟨_, rfl⟩, List.Subset.refl _, rfl⟩
  · obtain ⟨_, _, -, -, -, rfl⟩ := readStore_eq_ok_iff.mp h
    rw [hlexeme]
    exact Or.inl ⟨by decide, ⟨_, rfl⟩, List.Subset.refl _, rfl⟩
  · obtain ⟨_, _, -, -, rfl⟩ := readCall_eq_ok_iff.mp h
    refine Or.inl ⟨fun word hword heq => hdirective ?_, ⟨_, rfl⟩, List.Subset.refl _, rfl⟩
    rw [hlexeme] at heq
    rw [Lexeme.word.inj heq]
    have hwords : ["block", "filter", "buffer"] ⊆ directiveWords := by decide
    exact hwords hword
  · exact Or.inr hsets

end Draft

end BufferPromotion
