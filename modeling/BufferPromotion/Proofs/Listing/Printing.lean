import BufferPromotion.Listing.Printer
import BufferPromotion.Proofs.Kernel.Shown
import BufferPromotion.Proofs.Listing.Lines

/-! # Printed lines as lexemes

A kernel can be listed if its names are words, if its operations have forms that a line can say,
and if values are shown by different names and used only after their lines. The lines of such a
kernel are printed from plain lexemes, spaced as the lexer wants them.
-/

set_option autoImplicit false

namespace BufferPromotion

/-- The text of the lexemes of a line. -/
def lineText : List Lexeme → List Char
  | [] => []
  | first :: rest => first.text.toList ++ rest.flatMap Lexeme.spaced

/-! ## What a listing can say -/

namespace ValueType

/-- The name of a struct has to be a word. -/
def Listable : ValueType → Prop
  | struct name => IsWord name
  | _ => True

/-- The lexemes of a type. -/
def lexemes : ValueType → List Lexeme
  | scalar => [.word "scalar"]
  | pointer => [.word "ptr"]
  | struct name => [.word "struct", .word name]

theorem plain_of_mem_lexemes {type : ValueType} (h : type.Listable) :
    ∀ lexeme ∈ type.lexemes, lexeme.Plain := by
  cases type with
  | scalar | pointer =>
      intro lexeme hlexeme
      rw [List.mem_singleton.mp hlexeme]
      decide
  | struct name =>
      intro lexeme hlexeme
      rcases List.mem_cons.mp hlexeme with rfl | hlexeme
      · decide
      · rw [List.mem_singleton.mp hlexeme]
        exact h

end ValueType

/-- The lexemes by which a line ends that may declare a type. -/
def declaredLexemes (type : Option ValueType) : List Lexeme :=
  type.elim [] fun type => .colon :: type.lexemes

/-- The words that a line without a result cannot start with, because they mean something
else there. -/
def directiveWords : List String := ["kernel", "block", "filter", "param", "buffer", "store"]

/-- The words that do not stand for an unknown operation with a result. -/
def operationWords : List String := ["extract", "bitcast", "lea", "load", "store", "param"]

/-- The field of an extraction, as an item after its operand. -/
def NodeKind.fieldLexemes : NodeKind → List Lexeme
  | extract field => [.word field]
  | _ => []

/-- A line of a listing can say the node. -/
structure Node.Listable (node : Node) : Prop where
  count : node.kind.accepts node.operands.length = true
  type : ∀ type, node.type = some type → type.Listable
  form :
    match node.kind, node.type with
    | .extract field, some _ => IsWord field
    | .reinterpret, some _ | .address, some _ | .load, some _ | .store, none => True
    | .other name, some _ => IsWord name ∧ name ∉ operationWords
    | .other name, none => IsWord name ∧ name ∉ directiveWords
    | _, _ => False

namespace Kernel

/-- A listing can say the kernel. -/
structure Listable (kernel : Kernel) : Prop where
  built : kernel.Built
  name : IsWord kernel.name
  paramType : ∀ param ∈ kernel.params, ∀ type, param.type = some type → type.Listable
  nodes : ∀ op ∈ kernel.operations, op.toNode.Listable
  words : ∀ id, kernel.Shows id → IsWord (kernel.wordOf id)
  distinct : ∀ id other, kernel.Shows id → kernel.Shows other →
    kernel.wordOf id = kernel.wordOf other → id = other
  /-- Operands are shown before they are used. -/
  operands : ∀ before op after, kernel.operations = before ++ op :: after →
    ∀ operand ∈ op.operands, ShownIn kernel.params before operand

/-! ## The lexemes of lines -/

/-- The lexemes of a parameter. -/
def paramLexemes (kernel : Kernel) (param : Parameter) : List Lexeme :=
  .word "param" :: .value (kernel.wordOf param.id) :: .colon ::
    ((if param.isFilter then [.word "filter"] else []) ++
      param.type.elim [.question] ValueType.lexemes)

/-- The items of an operation, with commas between them. -/
def itemLexemes (kernel : Kernel) (op : Operation) : List Lexeme :=
  ((op.operands.map fun id => Lexeme.value (kernel.wordOf id)) ++ op.kind.fieldLexemes).intersperse
    .comma

/-- The lexemes of an operation. -/
def operationLexemes (kernel : Kernel) (op : Operation) : List Lexeme :=
  (if op.type.isSome then [.value (kernel.wordOf op.id), .equals] else []) ++
    .word op.kind.keyword :: (kernel.itemLexemes op ++ declaredLexemes op.type)

/-- The line of an operation is not taken for one that opens a kernel. -/
theorem exists_head_operationLexemes (kernel : Kernel) {op : Operation} (h : op.toNode.Listable) :
    ∃ first rest, kernel.operationLexemes op = first :: rest ∧ first ≠ .word "kernel" := by
  have hform := h.form
  unfold operationLexemes
  cases htype : op.type with
  | some type => exact ⟨_, _, rfl, nofun⟩
  | none =>
      rw [htype] at hform
      refine ⟨_, _, rfl, fun heq => ?_⟩
      cases hkind : op.kind with
      | store =>
          rw [hkind] at heq
          exact absurd heq (by decide)
      | other name =>
          rw [hkind] at heq hform
          cases heq
          exact absurd hform.2 (by decide)
      | param | extract field | reinterpret | address | load =>
          rw [hkind] at hform
          exact hform

/-! ## Printed lines -/

end Kernel

theorem ValueType.flatMap_spaced_lexemes (type : ValueType) :
    type.lexemes.flatMap Lexeme.spaced = ' ' :: type.text.toList := by
  cases type with
  | scalar | pointer => rfl
  | struct name =>
      show _ = ' ' :: (toString "struct " ++ toString name).toList
      rw [String.toList_append]
      show [' ', 's', 't', 'r', 'u', 'c', 't'] ++ ((' ' :: name.toList) ++ []) = _
      rw [List.append_nil]
      rfl

namespace Kernel

theorem toList_paramLine (kernel : Kernel) (param : Parameter) :
    (kernel.paramLine param).toList = lineText (kernel.paramLexemes param) := by
  have htype : (param.type.elim [.question] ValueType.lexemes).flatMap Lexeme.spaced =
      ' ' :: (param.type.elim "?" ValueType.text).toList := by
    cases param.type with
    | none => rfl
    | some type => exact type.flatMap_spaced_lexemes
  -- the mark of a filter ends with a blank, a lexeme starts with one
  have hmark : ((if param.isFilter then [.word "filter"] else []) : List Lexeme).flatMap
      Lexeme.spaced ++ [' '] = ' ' :: (if param.isFilter then "filter " else "").toList := by
    cases param.isFilter <;> rfl
  unfold paramLine
  rw [shownName_eq]
  simp only [String.toList_append]
  show _ = "param".toList ++ ((' ' :: ("%" ++ kernel.wordOf param.id).toList) ++ ([' ', ':'] ++
    List.flatMap Lexeme.spaced (_ ++ _)))
  rw [List.flatMap_append, htype, String.toList_append, List.append_cons, hmark]
  simp

theorem flatMap_spaced_intersperse (first : Lexeme) (rest : List Lexeme)
    (hrest : ∀ lexeme ∈ first :: rest, lexeme.spaced = ' ' :: lexeme.text.toList) :
    ((first :: rest).intersperse Lexeme.comma).flatMap Lexeme.spaced =
      ' ' :: (String.intercalate ", " ((first :: rest).map Lexeme.text)).toList := by
  induction rest generalizing first with
  | nil =>
      rw [List.intersperse_singleton, List.flatMap_singleton, hrest first List.mem_cons_self,
        List.map_singleton, String.intercalate_singleton]
  | cons second rest ih =>
      rw [List.intersperse_cons_cons, List.flatMap_cons, List.flatMap_cons,
        hrest first List.mem_cons_self,
        ih second fun lexeme hlexeme => hrest lexeme (List.mem_cons_of_mem _ hlexeme)]
      simp only [List.map_cons, String.intercalate_cons_cons, String.toList_append]
      simp [Lexeme.spaced]

theorem fieldLexemes_eq (op : Operation) :
    (op.kind.fieldLexemes = [] ∧ fieldText op = "") ∨
      ∃ field, op.kind = .extract field ∧ op.kind.fieldLexemes = [.word field] ∧
        fieldText op = ", " ++ field := by
  unfold NodeKind.fieldLexemes fieldText
  cases op.kind with
  | extract field => exact Or.inr ⟨field, rfl, rfl, rfl⟩
  | param | reinterpret | address | load | store | other name => exact Or.inl ⟨rfl, rfl⟩

theorem flatMap_spaced_itemLexemes (kernel : Kernel) {op : Operation} (h : op.toNode.Listable) :
    (kernel.itemLexemes op).flatMap Lexeme.spaced =
      (kernel.operandsText op).toList ++ (fieldText op).toList := by
  have htext : (op.operands.map fun id => Lexeme.value (kernel.wordOf id)).map Lexeme.text =
      op.operands.map kernel.shownName := by
    rw [List.map_map]
    exact List.map_congr_left fun id _ => (kernel.shownName_eq id).symm
  have hspaced : ∀ lexeme ∈ (op.operands.map fun id => Lexeme.value (kernel.wordOf id)) ++
      op.kind.fieldLexemes, lexeme.spaced = ' ' :: lexeme.text.toList := by
    intro lexeme hlexeme
    rcases List.mem_append.mp hlexeme with hlexeme | hlexeme
    · obtain ⟨id, -, rfl⟩ := List.mem_map.mp hlexeme
      rfl
    · rcases fieldLexemes_eq op with ⟨hnil, -⟩ | ⟨field, -, hfield, -⟩
      · rw [hnil] at hlexeme
        cases hlexeme
      · rw [hfield] at hlexeme
        rw [List.mem_singleton.mp hlexeme]
        rfl
  -- without operands nothing is printed, otherwise a blank and the items with commas
  cases hoperands : op.operands with
  | nil =>
      -- only an extraction has an item that is no operand, and it has an operand
      have hcount := h.count
      rw [hoperands] at hcount
      rcases fieldLexemes_eq op with ⟨hnil, hempty⟩ | ⟨field, hkind, -, -⟩
      · unfold itemLexemes operandsText
        rw [hoperands, hnil, hempty]
        rfl
      · rw [hkind] at hcount
        cases hcount
  | cons first rest =>
      have hne : op.operands.map kernel.shownName ≠ [] := by
        rw [hoperands]
        exact List.cons_ne_nil _ _
      have hprinted : (kernel.operandsText op).toList =
          ' ' :: (String.intercalate ", " (op.operands.map kernel.shownName)).toList := by
        unfold operandsText
        rw [hoperands, if_neg (by exact Bool.false_ne_true), String.toList_append]
        rfl
      have hjoined : (kernel.itemLexemes op).flatMap Lexeme.spaced =
          ' ' :: (String.intercalate ", " ((op.operands.map kernel.shownName) ++
            op.kind.fieldLexemes.map Lexeme.text)).toList := by
        rw [← htext, ← List.map_append]
        unfold itemLexemes
        rw [hoperands] at hspaced ⊢
        exact flatMap_spaced_intersperse _ _ hspaced
      rw [hjoined, hprinted]
      rcases fieldLexemes_eq op with ⟨hnil, hempty⟩ | ⟨field, -, hfield, hcomma⟩
      · rw [hnil, hempty, List.map_nil, List.append_nil]
        exact (List.append_nil _).symm
      · rw [hfield, hcomma, List.map_singleton,
          String.intercalate_append_of_ne_nil hne (List.cons_ne_nil _ _),
          String.intercalate_singleton, String.append_assoc, String.toList_append]
        rfl

theorem toList_operationLine {kernel : Kernel} {op : Operation} (h : op.toNode.Listable) :
    (kernel.operationLine op).toList = lineText (kernel.operationLexemes op) := by
  have htype : (declaredLexemes op.type).flatMap Lexeme.spaced = (typeText op).toList := by
    unfold declaredLexemes typeText
    cases op.type with
    | none => rfl
    | some type =>
        show [' ', ':'] ++ type.lexemes.flatMap Lexeme.spaced = (" : " ++ type.text).toList
        rw [type.flatMap_spaced_lexemes, String.toList_append]
        rfl
  have hitems := kernel.flatMap_spaced_itemLexemes h
  -- the keyword is the first lexeme of the line, unless a result comes before it
  unfold operationLine
  simp only [String.toList_append, List.append_assoc, ← htype]
  unfold operationLexemes resultText
  cases op.type with
  | none =>
      show _ = op.kind.keyword.toList ++ _
      rw [List.flatMap_append, hitems]
      simp
  | some type =>
      show _ = (Lexeme.value _).text.toList ++ List.flatMap Lexeme.spaced (.equals :: .word _ :: _)
      rw [List.flatMap_cons, List.flatMap_cons, List.flatMap_append, hitems, shownName_eq]
      simp [Lexeme.spaced, Lexeme.text]

/-! ## The lexemes are plain -/

theorem isWord_keyword {node : Node} (h : node.Listable) : IsWord node.kind.keyword := by
  have hform := h.form
  cases hkind : node.kind with
  | param =>
      rw [hkind] at hform
      cases hform
  | extract field => exact (by decide : IsWord "extract")
  | reinterpret | address | load | store => decide
  | other name =>
      rw [hkind] at hform
      cases htype : node.type with
      | none =>
          rw [htype] at hform
          exact hform.1
      | some type =>
          rw [htype] at hform
          exact hform.1

theorem Listable.plain_paramLexemes {kernel : Kernel} (h : kernel.Listable) {param : Parameter}
    (hparam : param ∈ kernel.params) : ∀ lexeme ∈ kernel.paramLexemes param, lexeme.Plain := by
  have hword : IsWord (kernel.wordOf param.id) :=
    h.words param.id (Or.inl (List.mem_map_of_mem hparam))
  intro lexeme hlexeme
  unfold paramLexemes at hlexeme
  simp only [List.mem_cons, List.mem_append] at hlexeme
  rcases hlexeme with rfl | rfl | rfl | hmark | htype
  · decide
  · exact hword.chars
  · trivial
  · split at hmark
    · rw [List.mem_singleton.mp hmark]
      decide
    · cases hmark
  · cases hparamType : param.type with
    | none =>
        rw [hparamType] at htype
        rw [List.mem_singleton.mp htype]
        trivial
    | some type =>
        rw [hparamType] at htype
        exact type.plain_of_mem_lexemes (h.paramType param hparam type hparamType) lexeme htype

theorem mem_intersperse {α : Type} {separator x : α} {xs : List α}
    (h : x ∈ xs.intersperse separator) : x = separator ∨ x ∈ xs := by
  induction xs with
  | nil => cases h
  | cons first rest ih =>
      cases rest with
      | nil => exact Or.inr h
      | cons second rest =>
          rw [List.intersperse_cons_cons, List.mem_cons, List.mem_cons] at h
          rcases h with rfl | rfl | h
          · exact Or.inr List.mem_cons_self
          · exact Or.inl rfl
          · rcases ih h with h | h
            · exact Or.inl h
            · exact Or.inr (List.mem_cons_of_mem _ h)

theorem Listable.shows_operand {kernel : Kernel} (h : kernel.Listable) {op : Operation}
    (hop : op ∈ kernel.operations) {operand : ValueId} (hoperand : operand ∈ op.operands) :
    kernel.Shows operand := by
  obtain ⟨before, after, hops⟩ := List.append_of_mem hop
  rcases h.operands before op after hops operand hoperand with hparam | ⟨earlier, hearlier, heq⟩
  · exact Or.inl hparam
  · refine Or.inr ⟨earlier, ?_, heq⟩
    rw [hops]
    exact List.mem_append_left _ hearlier

theorem Listable.plain_operationLexemes {kernel : Kernel} (h : kernel.Listable) {op : Operation}
    (hop : op ∈ kernel.operations) : ∀ lexeme ∈ kernel.operationLexemes op, lexeme.Plain := by
  have hnode := h.nodes op hop
  intro lexeme hlexeme
  unfold operationLexemes at hlexeme
  simp only [List.mem_cons, List.mem_append] at hlexeme
  rcases hlexeme with hresult | rfl | hitem | htype
  · split at hresult
    · next hsome =>
      rcases List.mem_cons.mp hresult with rfl | hequals
      · exact (h.words op.id (Or.inr ⟨op, hop, rfl, hsome⟩)).chars
      · rw [List.mem_singleton.mp hequals]
        trivial
    · cases hresult
  · exact isWord_keyword hnode
  · rcases mem_intersperse hitem with rfl | hitem
    · trivial
    · rcases List.mem_append.mp hitem with hoperand | hfield
      · obtain ⟨operand, hmem, rfl⟩ := List.mem_map.mp hoperand
        exact (h.words operand (h.shows_operand hop hmem)).chars
      · rcases fieldLexemes_eq op with ⟨hnil, -⟩ | ⟨field, hkind, heq, -⟩
        · rw [hnil] at hfield
          cases hfield
        · rw [heq] at hfield
          rw [List.mem_singleton.mp hfield]
          have hform := hnode.form
          rw [hkind] at hform
          cases hsome : op.type with
          | none =>
              rw [hsome] at hform
              cases hform
          | some type =>
              rw [hsome] at hform
              exact hform
  · unfold declaredLexemes at htype
    cases hsome : op.type with
    | none =>
        rw [hsome] at htype
        cases htype
    | some type =>
        rw [hsome] at htype
        rcases List.mem_cons.mp htype with rfl | htype
        · trivial
        · exact type.plain_of_mem_lexemes (hnode.type type hsome) lexeme htype

end Kernel

end BufferPromotion
