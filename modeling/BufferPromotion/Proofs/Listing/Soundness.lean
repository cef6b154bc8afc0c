import BufferPromotion.Proofs.Listing.Directive
import BufferPromotion.Proofs.Listing.Frame

/-! # Lines keep drafts sound

The tokens of a source are plain, so every word that a line brings into a kernel can be printed
again, and operands are looked up in the scope, so they are shown.
-/

set_option autoImplicit false

namespace BufferPromotion

theorem ValueType.listable_of_plain {type : ValueType}
    (h : ∀ lexeme ∈ type.lexemes, lexeme.Plain) : type.Listable := by
  cases type with
  | scalar | pointer => trivial
  | struct name => exact h (.word name) (List.mem_cons_of_mem _ List.mem_cons_self)

namespace Draft

variable {draft result : Draft} {line : Span} {tokens : List Token}

/-! ## Phrases of plain tokens -/

theorem isWord_of_value {name : String} (h : (Lexeme.value name).Plain)
    (hne : name.isEmpty = false) : IsWord name := by
  refine ⟨fun hnil => ?_, h⟩
  rw [String.toList_eq_nil_iff.mp hnil] at hne
  cases hne

theorem plain_of_expectItems {items : List Item} {rest : List Token}
    (h : expectItems line tokens = .ok (items, rest))
    (hplain : ∀ token ∈ tokens, token.lexeme.Plain) :
    (∀ item ∈ items, item.token.lexeme.Plain) ∧ ∀ token ∈ rest, token.lexeme.Plain := by
  rcases expectItems_eq_ok_iff.mp h with ⟨rfl, rfl, -⟩ | h
  · exact ⟨nofun, hplain⟩
  · refine ⟨fun item hitem => hplain _ (h.subset ?_), fun token htoken => hplain _ (h.subset ?_)⟩
    · exact List.mem_append_left _ (List.mem_map_of_mem hitem)
    · exact List.mem_append_right _ htoken

theorem listable_of_declared {rest : List Token} {declared : Option ValueType}
    (hplain : ∀ token ∈ rest, token.lexeme.Plain)
    (h : rest.map (·.lexeme) = declaredLexemes declared) {type : ValueType}
    (htype : declared = some type) : type.Listable := by
  refine ValueType.listable_of_plain fun lexeme hlexeme => ?_
  have hmem : lexeme ∈ rest.map (·.lexeme) := by
    rw [h, htype]
    exact List.mem_cons_of_mem _ hlexeme
  obtain ⟨token, htoken, rfl⟩ := List.mem_map.mp hmem
  exact hplain token htoken

theorem listable_of_resultType {kind : NodeKind} {declared : Option ValueType} {type : ValueType}
    (hdeclared : ∀ type, declared = some type → type.Listable)
    (h : resultType line kind declared = .ok type) : type.Listable := by
  rcases resultType_eq_ok h with hsome | rfl | rfl
  · exact hdeclared type hsome
  · trivial
  · trivial

/-- The kinds that words name have forms that a line can say. -/
theorem form_of_kindOfWord {word : Word} {items args : List Item} {kind : NodeKind}
    (hword : IsWord word.text) (hitems : ∀ item ∈ items, item.token.lexeme.Plain)
    (h : kindOfWord line word items = .ok (kind, args)) {type : ValueType} {ids : List ValueId}
    (htype : type.Listable) (hcount : kind.accepts ids.length = true) :
    Node.Listable ⟨kind, some type, ids⟩ := by
  rw [kindOfWord_eq_ok_iff] at h
  refine ⟨hcount, fun declared hdeclared => Option.some.inj hdeclared ▸ htype, ?_⟩
  cases kind with
  | extract field =>
      obtain ⟨-, span, rfl⟩ := h
      exact hitems (.word ⟨field, span⟩) (List.mem_append_right _ List.mem_cons_self)
  | reinterpret | address | load => trivial
  | other name =>
      obtain ⟨rfl, hname, -⟩ := h
      exact ⟨hword, hname⟩
  | param | store => exact absurd h id

theorem readFilterMark_subset : (readFilterMark tokens).2 ⊆ tokens := by
  unfold readFilterMark
  split
  · split
    · exact List.subset_cons_self _ _
    · exact List.Subset.refl _
  · exact List.Subset.refl _

/-- Items that name values of a sound draft name shown values. -/
theorem Sound.shows_of_names (h : draft.Sound) {items : List Item} {ids : List ValueId}
    (hids : List.Forall₂ draft.Names items ids) : ∀ id ∈ ids, draft.kernel.Shows id := by
  induction hids with
  | nil => nofun
  | cons hitem _ ih =>
      obtain ⟨value, -, -, hfound⟩ := hitem
      rw [List.forall_mem_cons]
      refine ⟨?_, ih⟩
      rw [← h.named.shown, (h.lookup _ _).mp hfound]
      rfl

/-! ## Lines -/

theorem Sound.of_readDefinition (h : draft.Sound) {value : ValueName}
    (hvalue : value.token.lexeme.Plain) (hplain : ∀ token ∈ tokens, token.lexeme.Plain)
    (hread : readDefinition line value tokens draft = .ok () result) : result.Sound := by
  obtain ⟨hname, hnew, equals, word, more, items, rest, declared, kind, args, type, ids, rfl,
    hitems, hdeclared, hkind, htype, hids, hcount, rfl⟩ := readDefinition_eq_ok_iff.mp hread
  rw [List.forall_mem_cons, List.forall_mem_cons] at hplain
  obtain ⟨-, hword, hmore⟩ := hplain
  obtain ⟨hitemsPlain, hrest⟩ := plain_of_expectItems hitems hmore
  -- the words of the node come from the line, and its type from there or from the kind
  have hnode : Node.Listable ⟨kind, some type, ids⟩ := by
    refine form_of_kindOfWord hword hitemsPlain hkind (listable_of_resultType ?_ htype) hcount
    exact fun type hsome => listable_of_declared hrest hdeclared hsome
  exact h.addDefinition (isWord_of_value hvalue hname) hnode rfl (h.shows_of_names hids) hnew

theorem Sound.of_readStore (h : draft.Sound)
    (hread : readStore line tokens draft = .ok () result) : result.Sound := by
  obtain ⟨items, ids, -, hids, hcount, rfl⟩ := readStore_eq_ok_iff.mp hread
  exact h.addEffect ⟨hcount, nofun, trivial⟩ rfl (h.shows_of_names hids)

theorem Sound.of_readCall (h : draft.Sound) {name : Word} (hname : IsWord name.text)
    (hdirective : name.text ∉ directiveWords)
    (hread : readCall line name tokens draft = .ok () result) : result.Sound := by
  obtain ⟨items, ids, -, hids, rfl⟩ := readCall_eq_ok_iff.mp hread
  exact h.addEffect ⟨rfl, nofun, hname, hdirective⟩ rfl (h.shows_of_names hids)

theorem Sound.of_readParam (h : draft.Sound) (hplain : ∀ token ∈ tokens, token.lexeme.Plain)
    {warnings : List Diagnostic}
    (hread : readParam line tokens ⟨draft, []⟩ = .ok () ⟨result, warnings⟩) : result.Sound := by
  obtain ⟨phrase, hphrase, hnew, -, rfl⟩ := readParam_eq_ok_iff.mp hread
  obtain ⟨hname, colon, more, rfl, -, htype⟩ := readParamPhrase_eq_ok_iff.mp hphrase
  rw [List.forall_mem_cons, List.forall_mem_cons] at hplain
  obtain ⟨hvalue, -, hmore⟩ := hplain
  refine h.addParameter (isWord_of_value hvalue hname) (fun type hsome => ?_) hnew
  rw [hsome, readParamType_eq_some_iff] at htype
  obtain ⟨-, read, hread, hlexemes⟩ := htype
  refine ValueType.listable_of_plain fun lexeme hlexeme => ?_
  rw [← hlexemes] at hlexeme
  obtain ⟨token, htoken, rfl⟩ := List.mem_map.mp hlexeme
  refine hmore token (readFilterMark_subset ?_)
  rw [hread]
  exact List.mem_append_left _ htoken

/-- Every line that is accepted inside a kernel keeps the draft sound. -/
theorem Sound.of_readLine (h : draft.Sound) {first : Token}
    (hplain : ∀ token ∈ first :: tokens, token.lexeme.Plain)
    (hfirst : first.lexeme ≠ .word "kernel") {warnings : List Diagnostic}
    (hread : readLine line first tokens ⟨draft, []⟩ = .ok () ⟨result, warnings⟩) :
    result.Sound := by
  rw [List.forall_mem_cons] at hplain
  obtain ⟨hword, hplain⟩ := hplain
  rcases readLine_cases hfirst hread with ⟨-, hread⟩ | ⟨-, name, hlexeme, hread⟩ | ⟨-, -, hread⟩ |
    ⟨-, text, hlexeme, hdirective, hread⟩ | ⟨-, hsets⟩
  · exact h.of_readParam hplain hread
  · rw [hlexeme] at hword
    refine h.of_readDefinition ?_ hplain hread
    exact hword
  · exact h.of_readStore hread
  · rw [hlexeme] at hword
    refine h.of_readCall ?_ hdirective hread
    exact hword
  · obtain ⟨hkernel, hscope⟩ := hsets.unchanged
    exact h.congr hkernel hscope

/-! ## Parameters of unknown type -/

theorem code_of_mem_paramWarnings {phrase : ParamPhrase} :
    ∀ warning ∈ paramWarnings phrase, warning.code = .untypedParam := by
  intro warning hwarning
  obtain ⟨span, -, rfl⟩ := List.mem_map.mp hwarning
  rfl

/-- The line of a parameter warns about its phrase, if it has one, and however it goes on. -/
theorem code_of_mem_readParam :
    ∀ warning ∈ ((readParam line tokens).left ⟨draft, []⟩).warnings,
      warning.code = .untypedParam := by
  cases hphrase : readParamPhrase line tokens with
  | error diagnostic =>
      have hrun : readParam line tokens ⟨draft, []⟩ = .error diagnostic ⟨draft, []⟩ :=
        Action.lift_bind_of_error hphrase
      rw [Action.left_of_error hrun]
      nofun
  | ok read =>
      obtain ⟨phrase, rest⟩ := read
      have hrun : readParam line tokens ⟨draft, []⟩ =
          LineState.onDraft (acceptParam line phrase rest) ⟨draft, paramWarnings phrase⟩ :=
        Action.lift_bind_of_ok hphrase
      have hleft : (readParam line tokens).left ⟨draft, []⟩ =
          (LineState.onDraft (acceptParam line phrase rest)).left ⟨draft, paramWarnings phrase⟩ := by
        unfold Action.left
        rw [hrun]
      rw [hleft, keeps_warnings_onDraft]
      exact code_of_mem_paramWarnings

/-- The only warnings of a line are about parameters of unknown type. -/
theorem code_of_mem_readLine {first : Token} :
    ∀ warning ∈ ((readLine line first tokens).left ⟨draft, []⟩).warnings,
      warning.code = .untypedParam := by
  have hnone (action : Action Draft Unit) :
      ∀ warning ∈ ((LineState.onDraft action).left ⟨draft, []⟩).warnings,
        warning.code = .untypedParam := by
    rw [keeps_warnings_onDraft]
    nofun
  -- no other line than that of a parameter gives warnings
  unfold readLine
  split
  · exact hnone _
  · split
    · exact hnone _
    split
    · exact hnone _
    split
    · exact code_of_mem_readParam
    split
    · exact hnone _
    split
    · exact hnone _
    · exact hnone _
  · nofun

/-- A new parameter of unknown type comes with a warning. -/
theorem warned_of_readLine {first : Token} (hfirst : first.lexeme ≠ .word "kernel")
    {warnings : List Diagnostic}
    (hread : readLine line first tokens ⟨draft, []⟩ = .ok () ⟨result, warnings⟩)
    {param : Parameter} (hparam : param ∈ result.kernel.params) (htype : param.type = none) :
    param ∈ draft.kernel.params ∨ warnings ≠ [] := by
  rcases readLine_cases hfirst hread with ⟨-, hread⟩ | ⟨-, name, -, hread⟩ | ⟨-, -, hread⟩ |
    ⟨-, text, -, -, hread⟩ | ⟨-, hsets⟩
  · -- only this line adds a parameter, and it warns about the place of the unknown type
    obtain ⟨phrase, hphrase, -, rfl, rfl⟩ := readParam_eq_ok_iff.mp hread
    rcases List.mem_append.mp hparam with hold | hnew
    · exact Or.inl hold
    · rw [List.mem_singleton.mp hnew] at htype
      obtain ⟨-, colon, more, -, -, hunknown⟩ := readParamPhrase_eq_ok_iff.mp hphrase
      rw [show phrase.type = none from htype] at hunknown
      obtain ⟨span, hspan⟩ := Option.isSome_iff_exists.mp (isSome_of_readParamType hunknown)
      refine Or.inr ?_
      unfold paramWarnings
      rw [hspan]
      exact List.cons_ne_nil _ _
  · obtain ⟨-, -, _, _, _, _, _, _, _, _, _, _, -, -, -, -, -, -, -, rfl⟩ :=
      readDefinition_eq_ok_iff.mp hread
    exact Or.inl hparam
  · obtain ⟨_, _, -, -, -, rfl⟩ := readStore_eq_ok_iff.mp hread
    exact Or.inl hparam
  · obtain ⟨_, _, -, -, rfl⟩ := readCall_eq_ok_iff.mp hread
    exact Or.inl hparam
  · rw [hsets.unchanged.1] at hparam
    exact Or.inl hparam

end Draft

end BufferPromotion
