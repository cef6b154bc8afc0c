import BufferPromotion.Proofs.Kernel.Validity
import BufferPromotion.Proofs.Listing.Copying

/-! # The grammar of definitions

A line that starts with a value is accepted if it has one of five forms, and in no other case. The
forms are said here by the lexemes of the line alone, without the reader: `Draft.Says` lists them
with the node that each of them stands for. That the reader accepts these lines and no others, and
what an accepted line does to the draft, is `definition_lines_are_exact`.
-/

set_option autoImplicit false

namespace BufferPromotion

namespace Draft

variable {draft : Draft} {line : Span} {tokens : List Token}

/-! ## The grammar -/

/-- The node that a word and its items say, with the type that the line declares, if it does. Only
an extraction has to declare the type of its result. -/
inductive Says (draft : Draft) : String → List Lexeme → Option ValueType → Node → Prop where
  | extract {name field : String} {type : ValueType} {base : ValueId}
      (hbase : draft.Binds name base) :
      Says draft "extract" [.value name, .word field] (some type)
        ⟨.extract field, some type, [base]⟩
  | bitcast {name : String} {declared : Option ValueType} {source : ValueId}
      (hsource : draft.Binds name source) :
      Says draft "bitcast" [.value name] declared
        ⟨.reinterpret, some (declared.getD .pointer), [source]⟩
  | lea {names : List String} {declared : Option ValueType} {ids : List ValueId}
      (hcount : names.length = 2 ∨ names.length = 3) (hids : List.Forall₂ draft.Binds names ids) :
      Says draft "lea" (names.map .value) declared
        ⟨.address, some (declared.getD .pointer), ids⟩
  | load {name : String} {declared : Option ValueType} {pointer : ValueId}
      (hpointer : draft.Binds name pointer) :
      Says draft "load" [.value name] declared ⟨.load, some (declared.getD .scalar), [pointer]⟩
  | other {word : String} {names : List String} {declared : Option ValueType} {ids : List ValueId}
      (hword : word ∉ operationWords) (hids : List.Forall₂ draft.Binds names ids) :
      Says draft word (names.map .value) declared
        ⟨.other word, some (declared.getD .scalar), ids⟩

/-- Items of the grammar are values and words. -/
theorem Says.isItem {word : String} {items : List Lexeme} {declared : Option ValueType}
    {node : Node} (h : draft.Says word items declared node) : ∀ item ∈ items, item.IsItem := by
  have hvalues : ∀ names : List String, ∀ item ∈ names.map Lexeme.value, item.IsItem := by
    intro names item hitem
    obtain ⟨name, -, rfl⟩ := List.mem_map.mp hitem
    trivial
  cases h with
  | extract hbase =>
      intro item hitem
      rcases List.mem_pair.mp hitem with rfl | rfl <;> trivial
  | bitcast hsource => exact hvalues [_]
  | lea hcount hids => exact hvalues _
  | load hpointer => exact hvalues [_]
  | other hword hids => exact hvalues _

/-! ## The reader and the grammar -/

/-- One operand has one name. -/
theorem binds_of_length_eq_one {names : List String} {ids : List ValueId}
    (h : List.Forall₂ draft.Binds names ids) (hlength : ids.length = 1) :
    ∃ name id, names = [name] ∧ ids = [id] ∧ draft.Binds name id := by
  obtain ⟨id, rfl⟩ := List.length_eq_one_iff.mp hlength
  cases h with
  | cons hname hrest =>
      cases hrest
      exact ⟨_, id, rfl, rfl, hname⟩

/-- The grammar says a node if and only if the reader makes it out of the word and the items. -/
theorem says_iff {word : Word} {items : List Item} {declared : Option ValueType} {node : Node} :
    draft.Says word.text (items.map (·.token.lexeme)) declared node ↔
      ∃ kind args type ids, kindOfWord line word items = .ok (kind, args) ∧
        resultType line kind declared = .ok type ∧ List.Forall₂ draft.Names args ids ∧
        kind.accepts ids.length = true ∧ node = ⟨kind, some type, ids⟩ := by
  simp only [kindOfWord_eq_ok_iff, resultType_eq_ok_iff, forall₂_names_iff]
  constructor
  · intro h
    generalize htext : word.text = text at h
    generalize hlexemes : items.map (·.token.lexeme) = lexemes at h
    cases h with
    | @extract name field type base hbase =>
        obtain ⟨item, last, rfl, hitem, hlast⟩ := List.map_eq_cons_iff.mp hlexemes
        obtain ⟨field, rfl, hfield⟩ := List.map_eq_singleton_iff.mp hlast
        cases field with
        | value value => cases hfield
        | word word =>
            cases hfield
            exact ⟨.extract _, [item], type, [base], ⟨rfl, word.span, rfl⟩, rfl,
              ⟨[name], congrArg ([·]) hitem, .cons hbase .nil⟩, rfl, rfl⟩
    | @bitcast name declared source hsource =>
        exact ⟨.reinterpret, items, _, [source], ⟨rfl, rfl⟩, rfl, ⟨[name], hlexemes, .cons hsource .nil⟩,
          rfl, rfl⟩
    | @lea names declared ids hcount hids =>
        refine ⟨.address, items, _, ids, ⟨rfl, rfl⟩, rfl, ⟨names, hlexemes, hids⟩, ?_, rfl⟩
        rw [← hids.length_eq]
        rcases hcount with hcount | hcount <;> rw [hcount] <;> rfl
    | @load name declared pointer hpointer =>
        exact ⟨.load, items, _, [pointer], ⟨rfl, rfl⟩, rfl, ⟨[name], hlexemes, .cons hpointer .nil⟩,
          rfl, rfl⟩
    | @other word names declared ids hword hids =>
        exact ⟨.other _, items, _, ids, ⟨rfl, hword, rfl⟩, rfl, ⟨names, hlexemes, hids⟩, rfl, rfl⟩
  · rintro ⟨kind, args, type, ids, hkind, htype, ⟨names, hnames, hids⟩, hcount, rfl⟩
    rw [NodeKind.accepts_iff] at hcount
    cases kind with
    | extract field =>
        obtain ⟨htext, span, rfl⟩ := hkind
        obtain ⟨name, base, rfl, rfl, hbase⟩ :=
          binds_of_length_eq_one hids (Nat.le_antisymm (hcount.2 1 rfl) hcount.1)
        rw [htext, List.map_append, hnames, htype]
        exact .extract hbase
    | reinterpret =>
        obtain ⟨htext, rfl⟩ := hkind
        obtain ⟨name, source, rfl, rfl, hsource⟩ :=
          binds_of_length_eq_one hids (Nat.le_antisymm (hcount.2 1 rfl) hcount.1)
        rw [htext, hnames, ← htype]
        exact .bitcast hsource
    | address =>
        obtain ⟨htext, rfl⟩ := hkind
        rw [htext, hnames, ← htype]
        refine .lea ?_ hids
        have hmost := hcount.2 3 rfl
        have hleast : 2 ≤ ids.length := hcount.1
        have hlength := hids.length_eq
        omega
    | load =>
        obtain ⟨htext, rfl⟩ := hkind
        obtain ⟨name, pointer, rfl, rfl, hpointer⟩ :=
          binds_of_length_eq_one hids (Nat.le_antisymm (hcount.2 1 rfl) hcount.1)
        rw [htext, hnames, ← htype]
        exact .load hpointer
    | other name =>
        obtain ⟨htext, hword, rfl⟩ := hkind
        rw [htext, hnames, ← htype]
        exact .other hword hids
    | param | store => exact absurd hkind id

/-! ## Lines -/

/-- The lexemes of items that have been read, and of what is left. -/
theorem lexemes_of_items {items : List Item} {rest : List Token} (h : Items tokens items rest) :
    items ≠ [] ∧ tokens.map (·.lexeme) =
      (items.map (·.token.lexeme)).intersperse .comma ++ rest.map (·.lexeme) := by
  induction h with
  | last item hrest => exact ⟨List.cons_ne_nil _ _, rfl⟩
  | @cons item comma more rest items h ih =>
      refine ⟨List.cons_ne_nil _ _, ?_⟩
      obtain ⟨second, others, rfl⟩ := List.exists_cons_of_ne_nil ih.1
      rw [List.map_cons, List.map_cons, ih.2]
      simp only [List.map_cons, List.intersperse_cons_cons]
      rfl

/-- A list of items and a type, if there is one, are read to the end from their lexemes. -/
theorem exists_expectItems_iff {lexemes : List Lexeme} {declared : Option ValueType} :
    (∃ items rest, expectItems line tokens = .ok (items, rest) ∧
        items.map (·.token.lexeme) = lexemes ∧ rest.map (·.lexeme) = declaredLexemes declared) ↔
      (∀ lexeme ∈ lexemes, lexeme.IsItem) ∧
        tokens.map (·.lexeme) = lexemes.intersperse .comma ++ declaredLexemes declared := by
  constructor
  · rintro ⟨items, rest, hitems, rfl, hrest⟩
    constructor
    · intro lexeme hlexeme
      obtain ⟨item, -, rfl⟩ := List.mem_map.mp hlexeme
      cases item <;> trivial
    · rw [← hrest]
      rcases expectItems_eq_ok_iff.mp hitems with ⟨rfl, rfl, -⟩ | hitems
      · rfl
      · exact (lexemes_of_items hitems).2
  · rintro ⟨hitems, hlexemes⟩
    exact exists_expectItems hitems isColon_of_declared hlexemes

/-- One draft has exactly one definition more than another. -/
structure Gains (draft result : Draft) (name : String) (node : Node) (line : Span) : Prop where
  nodes : result.kernel.nodes = draft.kernel.nodes.push node
  schedule : result.kernel.schedule = draft.kernel.schedule ++ [draft.kernel.nextId]
  operation : result.kernel.operation? draft.kernel.nextId = some ⟨node, draft.kernel.nextId⟩
  params : result.kernel.params = draft.kernel.params
  lookup : ∀ other, result.lookup other =
    if other = name then some ⟨draft.kernel.nextId, line⟩ else draft.lookup other
  givenName : ∀ id, result.kernel.givenName? id =
    if id = draft.kernel.nextId then some name else draft.kernel.givenName? id

theorem gains_addDefinition (draft : Draft) (name : String) (node : Node) (line : Span) :
    draft.Gains (draft.addDefinition name node line) name node line where
  nodes := rfl
  schedule := rfl
  operation := by
    show (draft.kernel.nodes.push node)[draft.kernel.nodes.size]?.map _ = _
    rw [Array.getElem?_push_size]
    rfl
  params := rfl
  lookup other := by
    show List.lookup other ((name, _) :: draft.scope) = _
    rw [List.lookup_cons]
    split
    · next heq => rw [if_pos (beq_iff_eq.mp heq)]
    · next hne => exact (if_neg (beq_eq_false_iff_ne.mp hne)).symm
  givenName id := Kernel.givenName?_withName

/-- **A line that starts with a value is accepted exactly by the grammar of definitions.** It never
gives a warning. It is read if and only if its value has a name that is new, and the rest of the
line, to its end, is `=`, a word, items with commas between them, and perhaps a type, which together
say a node. Then exactly this node comes at the end of the schedule, and the name stands for it from
now on. -/
theorem definition_lines_are_exact (draft : Draft) (line span : Span) (name : String)
    (tokens : List Token) :
    ((readLine line ⟨.value name, span⟩ tokens).left ⟨draft, []⟩).warnings = [] ∧
      (∀ result, readLine line ⟨.value name, span⟩ tokens ⟨draft, []⟩ = .ok () ⟨result, []⟩ ↔
        name ≠ "" ∧ draft.lookup name = none ∧
          ∃ word items declared node,
            tokens.map (·.lexeme) =
              .equals :: .word word :: (items.intersperse .comma ++ declaredLexemes declared) ∧
            draft.Says word items declared node ∧
            result = draft.addDefinition name node line) ∧
      ∀ node, draft.Gains (draft.addDefinition name node line) name node line := by
  refine ⟨keeps_warnings_onDraft _ _, fun result => ?_,
    fun node => draft.gains_addDefinition name node line⟩
  have hline : readLine line ⟨.value name, span⟩ tokens ⟨draft, []⟩ = .ok () ⟨result, []⟩ ↔
      readDefinition line ⟨name, span⟩ tokens draft = .ok () result :=
    onDraft_eq_ok_iff.trans (and_iff_left rfl)
  rw [hline, readDefinition_eq_ok_iff, String.isEmpty_eq_false_iff]
  refine and_congr_right fun _ => and_congr_right fun _ => ?_
  constructor
  · rintro ⟨equals, word, more, items, rest, declared, kind, args, type, ids, rfl, hitems, hrest,
      hkind, htype, hids, hcount, rfl⟩
    have hsaid := says_iff.mpr ⟨kind, args, type, ids, hkind, htype, hids, hcount, rfl⟩
    have hmore := (exists_expectItems_iff.mp ⟨items, rest, hitems, rfl, hrest⟩).2
    refine ⟨word.text, items.map (·.token.lexeme), declared, _, ?_, hsaid, rfl⟩
    rw [List.map_cons, List.map_cons, hmore]
  · rintro ⟨text, lexemes, declared, node, htokens, hsaid, rfl⟩
    obtain ⟨⟨sign, equals⟩, others, rfl, hequals, hothers⟩ := List.map_eq_cons_iff.mp htokens
    obtain ⟨⟨first, place⟩, more, rfl, hword, hmore⟩ := List.map_eq_cons_iff.mp hothers
    cases hequals
    cases hword
    obtain ⟨items, rest, hitems, rfl, hrest⟩ :=
      (@exists_expectItems_iff line _ _ _).mpr ⟨hsaid.isItem, hmore⟩
    obtain ⟨kind, args, type, ids, hkind, htype, hids, hcount, rfl⟩ :=
      (@says_iff draft line ⟨text, place⟩ _ _ _).mp hsaid
    exact ⟨equals, ⟨text, place⟩, more, items, rest, declared, kind, args, type, ids, rfl, hitems,
      hrest, hkind, htype, hids, hcount, rfl⟩

end Draft

end BufferPromotion
