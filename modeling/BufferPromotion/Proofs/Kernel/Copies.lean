import BufferPromotion.Proofs.Kernel.Shown

/-! # Copies of a kernel

A kernel is copied by adding its parameters and then its operations to an empty kernel. The copy
of a value has the position of the value in the listing as its id; apart from the ids, a copy says
what the kernel says.
-/

set_option autoImplicit false

namespace BufferPromotion

/-- A node that works on other numbers. -/
def Node.renumber (number : ValueId → ValueId) (node : Node) : Node :=
  { node with operands := node.operands.map number }

/-- An operation with another number that works on other numbers. -/
def Operation.renumber (number : ValueId → ValueId) (op : Operation) : Operation :=
  ⟨op.toNode.renumber number, number op.id⟩

theorem Operation.base_renumber {number : ValueId → ValueId} (op : Operation) :
    (op.renumber number).base = op.base.map number := by
  unfold Node.base
  show (if op.kind.isProjection then (op.operands.map number).head? else none) = _
  rw [List.head?_map]
  split <;> rfl

theorem Operation.renumber_self (op : Operation) : op.renumber (fun id => id) = op := by
  unfold Operation.renumber Node.renumber
  rw [List.map_id']

namespace Kernel

/-- The position of a value in the listing. -/
def rank (kernel : Kernel) (id : ValueId) : ValueId := kernel.order.idxOf id

/-- The copy of a parameter. -/
def copiedParam (kernel : Kernel) (param : Parameter) : Parameter :=
  { param with id := kernel.rank param.id, name := kernel.wordOf param.id }

/-- A copy of some of the parameters and operations of a kernel. -/
structure Copies (kernel : Kernel) (params : List Parameter) (ops : List Operation)
    (copy : Kernel) : Prop where
  built : copy.Built
  name : copy.name = kernel.name
  names : ∀ id, ShownIn params ops id → copy.givenName? (kernel.rank id) = some (kernel.wordOf id)
  params : copy.params = params.map kernel.copiedParam
  operations : copy.operations = ops.map (Operation.renumber kernel.rank)
  order : copy.order = List.range copy.size

/-! ## Ranks -/

section Rank

variable {kernel : Kernel} {done rest : List ValueId} {id : ValueId}

theorem rank_lt_length (horder : kernel.order = done ++ rest) (hid : id ∈ done) :
    kernel.rank id < done.length := by
  unfold rank
  rw [horder, List.idxOf_append_of_mem hid]
  exact List.idxOf_lt_length_of_mem hid

theorem rank_eq_length (h : kernel.Built) (horder : kernel.order = done ++ id :: rest) :
    kernel.rank id = done.length := by
  unfold rank
  rw [horder, List.idxOf_append_of_notMem (h.not_mem_of_order horder), List.idxOf_cons_self,
    Nat.add_zero]

theorem rank_inj (hid : id ∈ kernel.order) {other : ValueId} :
    kernel.rank id = kernel.rank other ↔ id = other :=
  List.idxOf_inj hid

end Rank

/-! ## Copying step by step -/

section Steps

variable {kernel copy : Kernel} {params : List Parameter} {ops : List Operation}

theorem copies_empty (kernel : Kernel) : kernel.Copies [] [] (empty kernel.name) where
  built := .empty kernel.name
  name := rfl
  names := by
    rintro id (hparam | ⟨op, hop, -⟩)
    · exact absurd hparam List.not_mem_nil
    · exact absurd hop List.not_mem_nil
  params := rfl
  operations := rfl
  order := rfl

theorem Copies.size_eq (h : kernel.Copies params ops copy) :
    copy.size = (params.map (·.id) ++ ops.map (·.id)).length := by
  have hlength : copy.order.length = copy.size := by rw [h.order, List.length_range]
  rw [← hlength]
  unfold Kernel.order
  rw [h.params, h.operations]
  simp only [List.length_append, List.length_map]

/-- A copy shows the copies of shown values only. -/
theorem Copies.exists_of_shows (h : kernel.Copies params ops copy) {value : ValueId}
    (hvalue : copy.Shows value) : ∃ id, ShownIn params ops id ∧ kernel.rank id = value := by
  unfold Shows ShownIn at hvalue
  rw [h.params, h.operations] at hvalue
  rcases hvalue with hparam | ⟨op, hop, rfl, hresult⟩
  · obtain ⟨copied, hcopied, rfl⟩ := List.mem_map.mp hparam
    obtain ⟨param, hmem, rfl⟩ := List.mem_map.mp hcopied
    exact ⟨param.id, Or.inl (List.mem_map_of_mem hmem), rfl⟩
  · obtain ⟨original, hmem, rfl⟩ := List.mem_map.mp hop
    exact ⟨original.id, Or.inr ⟨original, hmem, rfl, hresult⟩, rfl⟩

/-- The copy of the next value has the next id. -/
theorem Copies.rank_eq_nextId (h : kernel.Copies params ops copy) (hbuilt : kernel.Built)
    {id : ValueId} {rest : List ValueId}
    (horder : kernel.order = params.map (·.id) ++ ops.map (·.id) ++ id :: rest) :
    kernel.rank id = copy.nextId := by
  rw [rank_eq_length hbuilt horder]
  exact h.size_eq.symm

theorem Copies.rank_ne_nextId (h : kernel.Copies params ops copy) {id : ValueId}
    {rest : List ValueId} (horder : kernel.order = params.map (·.id) ++ ops.map (·.id) ++ rest)
    (hid : ShownIn params ops id) : kernel.rank id ≠ copy.nextId := by
  have hlt := rank_lt_length horder hid.mem_ids
  rw [← h.size_eq] at hlt
  exact Nat.ne_of_lt hlt

theorem Copies.order_addParameter (h : kernel.Copies params [] copy) (name : String)
    (type : Option ValueType) (isFilter : Bool) :
    (copy.addParameter name type isFilter).order =
      List.range (copy.addParameter name type isFilter).size := by
  -- no operation has been copied yet, so the new parameter comes last
  have hparams : copy.params.map (·.id) = List.range copy.size := by
    rw [← h.order]
    unfold Kernel.order
    rw [h.operations]
    exact (List.append_nil _).symm
  rw [h.built.order_addParameter, Kernel.size_addParameter, List.range_succ, hparams, h.operations]
  rfl

theorem Copies.addParameter (h : kernel.Copies params [] copy) (hbuilt : kernel.Built)
    {param : Parameter} {rest : List ValueId}
    (horder : kernel.order = params.map (·.id) ++ List.map (·.id) ([] : List Operation) ++
      param.id :: rest) :
    kernel.Copies (params ++ [param]) []
      ((copy.addParameter (kernel.wordOf param.id) param.type param.isFilter).withName copy.nextId
        (kernel.wordOf param.id)) := by
  have hrank := h.rank_eq_nextId hbuilt horder
  have hops : (copy.addParameter (kernel.wordOf param.id) param.type param.isFilter).operations =
      [] := by
    rw [h.built.operations_addParameter]
    exact h.operations
  refine ⟨(h.built.addParameter _ _ _).withName _ _, h.name, ?_, ?_, hops, ?_⟩
  · -- the copies so far have smaller ids, so the new name is not theirs
    intro id hid
    rw [givenName?_withName]
    rcases hid with hid | ⟨op, hop, -⟩
    · rw [List.map_append, List.mem_append] at hid
      rcases hid with hold | hnew
      · have hne := h.rank_ne_nextId horder (Or.inl hold)
        rw [if_neg hne, givenName?_addParameter, if_neg hne]
        exact h.names id (Or.inl hold)
      · rw [List.mem_singleton.mp hnew, if_pos hrank]
    · exact absurd hop List.not_mem_nil
  · show copy.params ++ [⟨copy.nextId, _, _, _⟩] = _
    rw [h.params, List.map_append, List.map_singleton, ← hrank]
    rfl
  · exact h.order_addParameter _ _ _

theorem Copies.operations_append (h : kernel.Copies params ops copy) (hbuilt : kernel.Built)
    {op : Operation} {rest : List ValueId}
    (horder : kernel.order = params.map (·.id) ++ ops.map (·.id) ++ op.id :: rest) :
    (copy.append (op.toNode.renumber kernel.rank)).operations =
      (ops ++ [op]).map (Operation.renumber kernel.rank) := by
  rw [h.built.operations_append, h.operations, List.map_append, List.map_singleton,
    ← h.rank_eq_nextId hbuilt horder]
  rfl

theorem Copies.order_append (h : kernel.Copies params ops copy) (node : Node) :
    (copy.append node).order = List.range (copy.append node).size := by
  rw [h.built.order_append, h.order, Kernel.size_append, List.range_succ]
  rfl

/-- An operation without a result leaves the names as they are. -/
theorem Copies.append (h : kernel.Copies params ops copy) (hbuilt : kernel.Built)
    {op : Operation} {rest : List ValueId}
    (horder : kernel.order = params.map (·.id) ++ ops.map (·.id) ++ op.id :: rest)
    (htype : op.type = none) :
    kernel.Copies params (ops ++ [op]) (copy.append (op.toNode.renumber kernel.rank)) := by
  refine ⟨h.built.append _, h.name, ?_, h.params, h.operations_append hbuilt horder,
    h.order_append _⟩
  rintro id (hparam | ⟨other, hother, rfl, hsome⟩)
  · exact h.names id (Or.inl hparam)
  · rcases List.mem_append.mp hother with hold | hnew
    · exact h.names other.id (Or.inr ⟨other, hold, rfl, hsome⟩)
    · rw [List.mem_singleton.mp hnew, htype] at hsome
      cases hsome

/-- The result of an operation gets the word of the original. -/
theorem Copies.appendNamed (h : kernel.Copies params ops copy) (hbuilt : kernel.Built)
    {op : Operation} {rest : List ValueId}
    (horder : kernel.order = params.map (·.id) ++ ops.map (·.id) ++ op.id :: rest) :
    kernel.Copies params (ops ++ [op])
      ((copy.append (op.toNode.renumber kernel.rank)).withName copy.nextId
        (kernel.wordOf op.id)) := by
  refine ⟨(h.built.append _).withName _ _, h.name, fun id hid => ?_, h.params,
    h.operations_append hbuilt horder, h.order_append _⟩
  rw [givenName?_withName]
  -- either the value has been copied before, or it is the result of the operation
  by_cases hold : ShownIn params ops id
  · rw [if_neg (h.rank_ne_nextId horder hold)]
    exact h.names id hold
  · rcases hid with hparam | ⟨other, hother, rfl, hsome⟩
    · exact absurd (Or.inl hparam) hold
    · rcases List.mem_append.mp hother with hbefore | hnew
      · exact absurd (Or.inr ⟨other, hbefore, rfl, hsome⟩) hold
      · rw [List.mem_singleton.mp hnew, if_pos (h.rank_eq_nextId hbuilt horder)]

/-- A copy has the ranks of the values of a kernel. -/
theorem Copies.order_eq_map (h : kernel.Copies kernel.params kernel.operations copy) :
    copy.order = kernel.order.map kernel.rank := by
  unfold Kernel.order
  rw [h.params, h.operations, List.map_append]
  simp only [List.map_map]
  rfl

end Steps

end Kernel

end BufferPromotion
