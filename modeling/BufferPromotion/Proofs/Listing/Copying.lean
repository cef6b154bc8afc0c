import BufferPromotion.Proofs.Kernel.Copies
import BufferPromotion.Proofs.Listing.Soundness
import Mathlib.Data.List.Forall2

/-! # Printed lines are read as copies

While the lines of a kernel are read one after the other, the draft is a copy of the parameters
and operations whose lines have been read. The word of a value that has been read stands for the
rank of the value, and the word of any other value stands for nothing.
-/

set_option autoImplicit false

namespace BufferPromotion

variable {line : Span} {tokens : List Token}

/-! ## Phrases of printed lines -/

theorem exists_expectItems {lexemes after : List Lexeme}
    (hitems : ∀ lexeme ∈ lexemes, lexeme.IsItem) (hafter : ∀ lexeme ∈ after.head?, lexeme = .colon)
    (h : tokens.map (·.lexeme) = lexemes.intersperse .comma ++ after) :
    ∃ items rest, expectItems line tokens = .ok (items, rest) ∧
      items.map (·.token.lexeme) = lexemes ∧ rest.map (·.lexeme) = after := by
  cases lexemes with
  | nil =>
      refine ⟨[], tokens, expectItems_eq_ok_iff.mpr (Or.inl ⟨rfl, rfl, ?_⟩), rfl, h⟩
      intro token htoken
      have hmap : tokens.map (·.lexeme) = after := h
      refine hafter token.lexeme ?_
      rw [← hmap, List.head?_map]
      exact Option.mem_map_of_mem _ htoken
  | cons lexeme lexemes =>
      have hcomma : ∀ lexeme ∈ after.head?, lexeme ≠ .comma := by
        intro lexeme hlexeme heq
        rw [hafter lexeme hlexeme] at heq
        cases heq
      obtain ⟨items, rest, hread, hlexemes, hrest⟩ :=
        exists_items (List.cons_ne_nil _ _) hitems hcomma h
      exact ⟨items, rest, expectItems_eq_ok_iff.mpr (Or.inr hread), hlexemes, hrest⟩

theorem isColon_of_declared {type : Option ValueType} :
    ∀ lexeme ∈ (declaredLexemes type).head?, lexeme = .colon := by
  cases type with
  | none => nofun
  | some type =>
      intro lexeme hlexeme
      cases hlexeme
      rfl

namespace Draft

variable {draft : Draft}

/-- Items that are the words of values name them. -/
theorem names_of_lexemes {words : ValueId → String} {ids : ValueId → ValueId}
    {operands : List ValueId} {items : List Item}
    (hlexemes : items.map (·.token.lexeme) = operands.map fun id => .value (words id))
    (hwords : ∀ id ∈ operands, (words id).isEmpty = false ∧
      (draft.lookup (words id)).map (·.id) = some (ids id)) :
    List.Forall₂ draft.Names items (operands.map ids) := by
  have hbinds : ∀ id ∈ operands, draft.Binds (words id) (ids id) := fun id hid =>
    ⟨String.isEmpty_eq_false_iff.mp (hwords id hid).1, (hwords id hid).2⟩
  refine forall₂_names_iff.mpr ⟨operands.map words, hlexemes.trans List.map_map.symm, ?_⟩
  rw [List.forall₂_map_left_iff, List.forall₂_map_right_iff]
  exact List.forall₂_same.mpr hbinds

/-- The items of a printed operation are its operands and its field. -/
theorem exists_kindOfWord {node : Node} (hnode : node.Listable) (htype : node.type.isSome = true)
    {word : Word} (hword : word.text = node.kind.keyword) {operands : List Lexeme}
    {items : List Item} (hitems : items.map (·.token.lexeme) = operands ++ node.kind.fieldLexemes) :
    ∃ args, kindOfWord line word items = .ok (node.kind, args) ∧
      args.map (·.token.lexeme) = operands := by
  have hform := hnode.form
  obtain ⟨type, hsome⟩ := Option.isSome_iff_exists.mp htype
  rw [hsome] at hform
  cases hkind : node.kind with
  | extract field =>
      rw [hkind] at hitems hword
      obtain ⟨args, last, rfl, hargs, hlast⟩ := List.map_eq_append_iff.mp hitems
      obtain ⟨item, rfl, hitem⟩ := List.map_eq_singleton_iff.mp hlast
      refine ⟨args, kindOfWord_eq_ok_iff.mpr ⟨hword, ?_⟩, hargs⟩
      cases item with
      | value value => cases hitem
      | word field =>
          cases hitem
          exact ⟨field.span, rfl⟩
  | reinterpret | address | load =>
      rw [hkind] at hitems hword
      exact ⟨items, kindOfWord_eq_ok_iff.mpr ⟨hword, rfl⟩, hitems.trans (List.append_nil _)⟩
  | other name =>
      rw [hkind] at hitems hword hform
      exact ⟨items, kindOfWord_eq_ok_iff.mpr ⟨hword, hform.2, rfl⟩,
        hitems.trans (List.append_nil _)⟩
  | param | store =>
      rw [hkind] at hform
      exact absurd hform id

/-! ## Printed lines -/

theorem readFilterMark_of_lexemes {isFilter : Bool} {type : Option ValueType}
    (h : tokens.map (·.lexeme) = (if isFilter then [.word "filter"] else []) ++
      type.elim [.question] ValueType.lexemes) :
    (readFilterMark tokens).1 = isFilter ∧
      (readFilterMark tokens).2.map (·.lexeme) = type.elim [.question] ValueType.lexemes := by
  cases isFilter with
  | true =>
      obtain ⟨⟨lexeme, span⟩, rest, rfl, hfirst, hrest⟩ := List.map_eq_cons_iff.mp h
      cases hfirst
      exact ⟨rfl, hrest⟩
  | false =>
      -- no type starts with the mark of a filter
      have hplain : (readFilterMark tokens) = (false, tokens) := by
        unfold readFilterMark
        split
        · next text span rest =>
          refine if_neg ?_
          rintro rfl
          have hhead := congrArg List.head? h
          cases type with
          | none => cases hhead
          | some type => cases type <;> simp [ValueType.lexemes] at hhead
        · rfl
      rw [hplain]
      exact ⟨rfl, h⟩

theorem exists_readParamType {type : Option ValueType}
    (h : tokens.map (·.lexeme) = type.elim [.question] ValueType.lexemes) :
    ∃ unknown, readParamType line tokens = .ok ((type, unknown), []) ∧
      (type ≠ none → unknown = none) := by
  cases type with
  | none =>
      obtain ⟨⟨lexeme, span⟩, rfl, hfirst⟩ := List.map_eq_singleton_iff.mp h
      cases hfirst
      exact ⟨some span, rfl, fun hne => absurd rfl hne⟩
  | some type =>
      refine ⟨none, readParamType_eq_some_iff.mpr ⟨rfl, tokens, ?_, h⟩, fun _ => rfl⟩
      exact (List.append_nil _).symm

variable {kernel : Kernel} {first : Token}

/-- The line of a parameter adds the parameter, with a warning only if its type is unknown. -/
theorem readLine_param {param : Parameter}
    (h : (first :: tokens).map (·.lexeme) = kernel.paramLexemes param)
    (hword : (kernel.wordOf param.id).isEmpty = false)
    (hnew : draft.lookup (kernel.wordOf param.id) = none) :
    ∃ warnings, readLine line first tokens ⟨draft, []⟩ = .ok ()
        ⟨draft.addParameter (kernel.wordOf param.id) param.type param.isFilter line, warnings⟩ ∧
      (warnings ≠ [] → param.type = none) := by
  obtain ⟨(hfirst : first.lexeme = _), htokens⟩ := List.cons.inj h
  obtain ⟨⟨value, span⟩, rest, rfl, hvalue, hrest⟩ := List.map_eq_cons_iff.mp htokens
  obtain ⟨⟨sign, colon⟩, more, rfl, hcolon, hmore⟩ := List.map_eq_cons_iff.mp hrest
  cases hvalue
  cases hcolon
  obtain ⟨hmark, htype⟩ := readFilterMark_of_lexemes hmore
  obtain ⟨unknown, hunknown, hknown⟩ := @exists_readParamType line _ _ htype
  have hphrase : readParamPhrase line (⟨.value (kernel.wordOf param.id), span⟩ ::
      ⟨.colon, colon⟩ :: more) =
        .ok (⟨⟨kernel.wordOf param.id, span⟩, param.isFilter, param.type, unknown⟩, []) :=
    readParamPhrase_eq_ok_iff.mpr ⟨hword, colon, more, rfl, hmark, hunknown⟩
  refine ⟨paramWarnings ⟨⟨kernel.wordOf param.id, span⟩, param.isFilter, param.type, unknown⟩, ?_,
    fun hne => ?_⟩
  · unfold readLine
    rw [hfirst]
    exact readParam_eq_ok_iff.mpr ⟨_, hphrase, hnew, rfl, rfl⟩
  · by_contra hsome
    refine hne ?_
    unfold paramWarnings
    rw [hknown hsome]
    rfl

theorem exists_operationItems {op : Operation} {after : List Lexeme}
    (hafter : ∀ lexeme ∈ after.head?, lexeme = .colon)
    (h : tokens.map (·.lexeme) = kernel.itemLexemes op ++ after) :
    ∃ items rest, expectItems line tokens = .ok (items, rest) ∧
      items.map (·.token.lexeme) =
        (op.operands.map fun id => .value (kernel.wordOf id)) ++ op.kind.fieldLexemes ∧
      rest.map (·.lexeme) = after := by
  refine exists_expectItems (fun lexeme hlexeme => ?_) hafter h
  rcases List.mem_append.mp hlexeme with hoperand | hfield
  · obtain ⟨id, -, rfl⟩ := List.mem_map.mp hoperand
    trivial
  · cases hkind : op.kind with
    | extract field =>
        rw [hkind] at hfield
        rw [List.mem_singleton.mp hfield]
        trivial
    | param | reinterpret | address | load | store | other name =>
        rw [hkind] at hfield
        cases hfield

/-- The line of an operation with a result adds its copy. -/
theorem readLine_definition {op : Operation} (hnode : op.toNode.Listable)
    (htype : op.type.isSome = true)
    (h : (first :: tokens).map (·.lexeme) = kernel.operationLexemes op)
    (hword : (kernel.wordOf op.id).isEmpty = false)
    (hnew : draft.lookup (kernel.wordOf op.id) = none)
    (hoperands : ∀ id ∈ op.operands, (kernel.wordOf id).isEmpty = false ∧
      (draft.lookup (kernel.wordOf id)).map (·.id) = some (kernel.rank id)) :
    readLine line first tokens ⟨draft, []⟩ = .ok ()
      ⟨draft.addDefinition (kernel.wordOf op.id) (op.toNode.renumber kernel.rank) line, []⟩ := by
  obtain ⟨type, hsome⟩ := Option.isSome_iff_exists.mp htype
  unfold Kernel.operationLexemes at h
  rw [if_pos htype] at h
  obtain ⟨(hfirst : first.lexeme = _), htokens⟩ := List.cons.inj h
  obtain ⟨⟨sign, equals⟩, rest, rfl, hequals, hrest⟩ := List.map_eq_cons_iff.mp htokens
  obtain ⟨⟨keyword, span⟩, more, rfl, hkeyword, hmore⟩ := List.map_eq_cons_iff.mp hrest
  cases hequals
  cases hkeyword
  obtain ⟨items, rest, hitems, hlexemes, hrest⟩ :=
    @exists_operationItems line _ _ _ _ isColon_of_declared hmore
  obtain ⟨args, hkind, hargs⟩ :=
    @exists_kindOfWord line _ hnode htype ⟨op.kind.keyword, span⟩ rfl _ _ hlexemes
  have hnames := names_of_lexemes hargs hoperands
  have hcount : op.kind.accepts (op.operands.map kernel.rank).length = true := by
    rw [List.length_map]
    exact hnode.count
  have hresult : resultType line op.kind op.type = .ok type := by
    rw [hsome]
    rfl
  unfold readLine
  rw [hfirst]
  refine onDraft_eq_ok_iff.mpr ⟨readDefinition_eq_ok_iff.mpr ⟨hword, hnew, equals, _, more, items,
    rest, op.type, op.kind, args, type, op.operands.map kernel.rank, rfl, hitems, hrest, hkind,
    hresult, hnames, hcount, ?_⟩, rfl⟩
  rw [← hsome]
  rfl

/-- The line of an operation without a result adds its copy. -/
theorem readLine_effect {op : Operation} (hnode : op.toNode.Listable) (htype : op.type = none)
    (h : (first :: tokens).map (·.lexeme) = kernel.operationLexemes op)
    (hoperands : ∀ id ∈ op.operands, (kernel.wordOf id).isEmpty = false ∧
      (draft.lookup (kernel.wordOf id)).map (·.id) = some (kernel.rank id)) :
    readLine line first tokens ⟨draft, []⟩ =
      .ok () ⟨draft.addEffect (op.toNode.renumber kernel.rank) line, []⟩ := by
  unfold Kernel.operationLexemes at h
  rw [htype] at h
  obtain ⟨(hfirst : first.lexeme = _), htokens⟩ := List.cons.inj h
  obtain ⟨items, rest, hitems, hlexemes, hrest⟩ :=
    @exists_operationItems line _ _ _ _ (@isColon_of_declared none) htokens
  rw [List.map_eq_nil_iff.mp hrest] at hitems
  have hcopied : op.toNode.renumber kernel.rank = ⟨op.kind, none, op.operands.map kernel.rank⟩ := by
    rw [← htype]
    rfl
  have hform := hnode.form
  rw [htype] at hform
  cases hkind : op.kind with
  | store =>
      have hcount := hnode.count
      rw [hkind] at hlexemes hfirst hcopied hcount
      rw [hcopied]
      unfold readLine
      rw [hfirst]
      refine onDraft_eq_ok_iff.mpr ⟨readStore_eq_ok_iff.mpr ⟨items, _, hitems,
        names_of_lexemes (hlexemes.trans (List.append_nil _)) hoperands, ?_, rfl⟩, rfl⟩
      rw [List.length_map]
      exact hcount
  | other name =>
      rw [hkind] at hlexemes hfirst hcopied hform
      rw [hcopied]
      rw [show (NodeKind.other name).keyword = name from rfl] at hfirst
      have hname := hform.2
      simp only [directiveWords, List.mem_cons, List.not_mem_nil, or_false, not_or] at hname
      obtain ⟨-, hblock, hfilter, hparam, hbuffer, hstore⟩ := hname
      unfold readLine
      rw [hfirst]
      dsimp only
      rw [if_neg hblock, if_neg hfilter, if_neg hparam, if_neg hbuffer, if_neg hstore]
      exact onDraft_eq_ok_iff.mpr ⟨readCall_eq_ok_iff.mpr ⟨items, _, hitems,
        names_of_lexemes (hlexemes.trans (List.append_nil _)) hoperands, rfl⟩, rfl⟩
  | param | extract field | reinterpret | address | load =>
      rw [hkind] at hform
      exact absurd hform id

/-! ## Drafts that copy a kernel -/

/-- A sound draft whose kernel copies some of the parameters and operations of a kernel. -/
structure Copies (draft : Draft) (kernel : Kernel) (params : List Parameter)
    (ops : List Operation) : Prop where
  sound : draft.Sound
  copies : kernel.Copies params ops draft.kernel

section Copies

variable {params : List Parameter} {ops : List Operation} (hkernel : kernel.Listable)

/-- The word of a value that has been read stands for its copy. -/
theorem Copies.lookup_word (h : draft.Copies kernel params ops) {id : ValueId}
    (hid : ShownIn params ops id) :
    (draft.lookup (kernel.wordOf id)).map (·.id) = some (kernel.rank id) :=
  (h.sound.lookup _ _).mpr (h.copies.names id hid)

include hkernel

theorem isEmpty_wordOf {id : ValueId} (hid : kernel.Shows id) :
    (kernel.wordOf id).isEmpty = false := by
  have hne := (hkernel.words id hid).nonempty
  rw [Ne, String.toList_eq_nil_iff, ← String.isEmpty_iff] at hne
  exact Bool.eq_false_iff.mpr hne

/-- The word of a value that has not been read stands for nothing. -/
theorem Copies.lookup_new (h : draft.Copies kernel params ops) (hparams : params ⊆ kernel.params)
    (hops : ops ⊆ kernel.operations) {id : ValueId} (hshown : kernel.Shows id)
    (hid : ¬ ShownIn params ops id) : draft.lookup (kernel.wordOf id) = none := by
  cases hfound : draft.lookup (kernel.wordOf id) with
  | none => rfl
  | some definition =>
      have hname : draft.kernel.givenName? definition.id = some (kernel.wordOf id) :=
        (h.sound.lookup _ _).mp (by rw [hfound]; rfl)
      have hcopy : draft.kernel.Shows definition.id := by
        rw [← h.sound.named.shown, hname]
        rfl
      -- the word stands for the copy of a value that has been read, and that has another word
      obtain ⟨other, hother, hrank⟩ := h.copies.exists_of_shows hcopy
      rw [← hrank, h.copies.names other hother] at hname
      have hsame := hkernel.distinct other id (hother.mono hparams hops) hshown
        (Option.some.inj hname)
      exact absurd (hsame ▸ hother) hid

omit hkernel in
theorem plain_of_lexemes {lexemes : List Lexeme} (hplain : ∀ lexeme ∈ lexemes, lexeme.Plain)
    (h : tokens.map (·.lexeme) = lexemes) : ∀ token ∈ tokens, token.lexeme.Plain := by
  intro token htoken
  refine hplain token.lexeme ?_
  rw [← h]
  exact List.mem_map_of_mem htoken

/-- The next parameter of a kernel is copied when its line is read. -/
theorem Copies.next_param (h : draft.Copies kernel params []) {param : Parameter}
    {rest : List Parameter} (hparams : kernel.params = params ++ param :: rest)
    (hline : (first :: tokens).map (·.lexeme) = kernel.paramLexemes param) :
    ∃ warnings copied, readLine line first tokens ⟨draft, []⟩ = .ok () ⟨copied, warnings⟩ ∧
      copied.Copies kernel (params ++ [param]) [] ∧ (warnings ≠ [] → param.type = none) := by
  have hparam : param ∈ kernel.params := by
    rw [hparams]
    exact List.mem_append_right _ List.mem_cons_self
  have hshown : kernel.Shows param.id := Or.inl (List.mem_map_of_mem hparam)
  -- the parameter is the next value in the order, so its copy has the next id
  have horder : kernel.order = params.map (·.id) ++ List.map (·.id) ([] : List Operation) ++
      param.id :: (rest.map (·.id) ++ kernel.operations.map (·.id)) := by
    unfold Kernel.order
    rw [hparams, List.map_append, List.append_assoc, List.map_nil, List.append_nil]
    rfl
  have hnew : draft.lookup (kernel.wordOf param.id) = none := by
    refine h.lookup_new hkernel ?_ (List.nil_subset _) hshown
      fun hid => hkernel.built.not_mem_of_order horder hid.mem_ids
    rw [hparams]
    exact List.subset_append_left _ _
  obtain ⟨warnings, hread, hwarned⟩ :=
    readLine_param hline (isEmpty_wordOf hkernel hshown) hnew
  have hplain := plain_of_lexemes (hkernel.plain_paramLexemes hparam) hline
  have hfirst : first.lexeme = .word "param" := (List.cons.inj hline).1
  refine ⟨warnings, _, hread, ⟨h.sound.of_readLine hplain ?_ hread, ?_⟩, hwarned⟩
  · rw [hfirst]
    decide
  · exact h.copies.addParameter hkernel.built horder

/-- The next operation of a kernel is copied when its line is read. -/
theorem Copies.next_operation (h : draft.Copies kernel kernel.params ops) {op : Operation}
    {rest : List Operation} (hops : kernel.operations = ops ++ op :: rest)
    (hline : (first :: tokens).map (·.lexeme) = kernel.operationLexemes op) :
    ∃ copied, readLine line first tokens ⟨draft, []⟩ = .ok () ⟨copied, []⟩ ∧
      copied.Copies kernel kernel.params (ops ++ [op]) := by
  have hop : op ∈ kernel.operations := by
    rw [hops]
    exact List.mem_append_right _ List.mem_cons_self
  have hnode := hkernel.nodes op hop
  have horder := Kernel.order_of_operations hops
  have hoperands : ∀ id ∈ op.operands, (kernel.wordOf id).isEmpty = false ∧
      (draft.lookup (kernel.wordOf id)).map (·.id) = some (kernel.rank id) := fun id hid =>
    ⟨isEmpty_wordOf hkernel (hkernel.shows_operand hop hid),
      h.lookup_word (hkernel.operands ops op rest hops id hid)⟩
  have hplain := plain_of_lexemes (hkernel.plain_operationLexemes hop) hline
  have hfirst : first.lexeme ≠ .word "kernel" := by
    obtain ⟨head, others, hlexemes, hhead⟩ := kernel.exists_head_operationLexemes hnode
    have heq : first.lexeme = head := (List.cons.inj (hline.trans hlexemes)).1
    rw [heq]
    exact hhead
  -- a result has a new word, an operation without a result leaves the scope as it is
  cases htype : op.type with
  | some type =>
      have hsome : op.type.isSome = true := by
        rw [htype]
        rfl
      have hshown : kernel.Shows op.id := Or.inr ⟨op, hop, rfl, hsome⟩
      have hnew : draft.lookup (kernel.wordOf op.id) = none := by
        refine h.lookup_new hkernel (List.Subset.refl _) ?_ hshown
          fun hid => hkernel.built.not_mem_of_order horder hid.mem_ids
        rw [hops]
        exact List.subset_append_left _ _
      have hread : readLine line first tokens ⟨draft, []⟩ = _ :=
        readLine_definition hnode hsome hline (isEmpty_wordOf hkernel hshown) hnew hoperands
      exact ⟨_, hread, h.sound.of_readLine hplain hfirst hread,
        h.copies.appendNamed hkernel.built horder⟩
  | none =>
      have hread : readLine line first tokens ⟨draft, []⟩ = _ :=
        readLine_effect hnode htype hline hoperands
      exact ⟨_, hread, h.sound.of_readLine hplain hfirst hread,
        h.copies.append hkernel.built horder htype⟩

end Copies

end Draft

end BufferPromotion
