import BufferPromotion.Proofs.Kernel.Built

/-! # Values that are shown

A listing gives words to parameters and to the results of operations: the name of the value, or
its id if it has none. An operation without a result has a number but no word.
-/

set_option autoImplicit false

namespace BufferPromotion

/-- Whether some parameters and operations have a value to show: a parameter, or the result of
an operation. -/
def ShownIn (params : List Parameter) (ops : List Operation) (id : ValueId) : Prop :=
  id ∈ params.map (·.id) ∨ ∃ op ∈ ops, op.id = id ∧ op.type.isSome = true

theorem ShownIn.mem_ids {params : List Parameter} {ops : List Operation} {id : ValueId}
    (h : ShownIn params ops id) : id ∈ params.map (·.id) ++ ops.map (·.id) := by
  rcases h with hparam | ⟨op, hop, rfl, -⟩
  · exact List.mem_append_left _ hparam
  · exact List.mem_append_right _ (List.mem_map_of_mem hop)

theorem ShownIn.mono {params params' : List Parameter} {ops ops' : List Operation} {id : ValueId}
    (h : ShownIn params ops id) (hparams : params ⊆ params') (hops : ops ⊆ ops') :
    ShownIn params' ops' id := by
  rcases h with hparam | ⟨op, hop, hresult⟩
  · exact Or.inl (List.map_subset _ hparams hparam)
  · exact Or.inr ⟨op, hops hop, hresult⟩

namespace Kernel

/-- The word by which a value is shown. -/
def wordOf (kernel : Kernel) (id : ValueId) : String := (kernel.givenName? id).getD (toString id)

theorem shownName_eq (kernel : Kernel) (id : ValueId) :
    kernel.shownName id = "%" ++ kernel.wordOf id := by
  unfold shownName wordOf valueIdText
  cases kernel.givenName? id <;> rfl

/-- Whether a kernel shows a value. -/
def Shows (kernel : Kernel) (id : ValueId) : Prop := ShownIn kernel.params kernel.operations id

/-- The parameters and operations in the order of a listing: parameters first, then the schedule. -/
def order (kernel : Kernel) : List ValueId :=
  kernel.params.map (·.id) ++ kernel.operations.map (·.id)

theorem order_of_operations {kernel : Kernel} {before after : List Operation} {op : Operation}
    (h : kernel.operations = before ++ op :: after) :
    kernel.order =
      kernel.params.map (·.id) ++ before.map (·.id) ++ op.id :: after.map (·.id) := by
  unfold order
  rw [h, List.map_append, List.append_assoc]
  rfl

/-! ## Steps of the builder -/

theorem getElem?_insert_value {α : Type} (map : ValueMap α) (id other : ValueId) (value : α) :
    (map.insert id value)[other]? = if other = id then some value else map[other]? := by
  rw [Std.ExtTreeMap.getElem?_insert]
  simp only [Std.LawfulEqCmp.compare_eq_iff_eq]
  by_cases hid : id = other
  · rw [if_pos hid, if_pos hid.symm]
  · rw [if_neg hid, if_neg (Ne.symm hid)]

theorem map_insert_value {α β : Type} {f : α → β} (map : ValueMap α) (id : ValueId) (value : α) :
    (map.insert id value).map (fun _ => f) = (map.map fun _ => f).insert id (f value) := by
  apply Std.ExtTreeMap.ext_getElem?
  intro other
  simp only [Std.ExtTreeMap.getElem?_map, getElem?_insert_value]
  split <;> rfl

theorem givenName?_withName {kernel : Kernel} {id other : ValueId} {name : String} :
    (kernel.withName id name).givenName? other =
      if other = id then some name else kernel.givenName? other :=
  getElem?_insert_value kernel.names id other name

theorem givenName?_addParameter {kernel : Kernel} {name : String} {type : Option ValueType}
    {isFilter : Bool} {id : ValueId} :
    (kernel.addParameter name type isFilter).givenName? id =
      if id = kernel.nextId then some name else kernel.givenName? id :=
  givenName?_withName

namespace Built

variable {kernel : Kernel}

theorem shows_addParameter (h : kernel.Built) {name : String} {type : Option ValueType}
    {isFilter : Bool} {id : ValueId} :
    (kernel.addParameter name type isFilter).Shows id ↔ kernel.Shows id ∨ id = kernel.nextId := by
  unfold Shows ShownIn
  rw [h.operations_addParameter name type isFilter]
  show id ∈ List.map _ (kernel.params ++ [_]) ∨ _ ↔ _
  rw [List.map_append, List.mem_append, List.map_singleton, List.mem_singleton, or_right_comm]

theorem shows_append (h : kernel.Built) {node : Node} {id : ValueId} :
    (kernel.append node).Shows id ↔
      kernel.Shows id ∨ (id = kernel.nextId ∧ node.type.isSome = true) := by
  -- the last operation is shown if it has a result, the others are shown as before
  have hnew : (∃ op ∈ kernel.operations ++ [⟨node, kernel.nextId⟩],
      op.id = id ∧ op.type.isSome = true) ↔
        (∃ op ∈ kernel.operations, op.id = id ∧ op.type.isSome = true) ∨
          (id = kernel.nextId ∧ node.type.isSome = true) := by
    simp only [List.mem_append, List.mem_singleton, or_and_right, exists_or, exists_eq_left]
    rw [eq_comm]
  unfold Shows ShownIn
  rw [h.operations_append node, hnew, ← or_assoc]
  rfl

theorem lt_size_of_mem_order (h : kernel.Built) {id : ValueId} (hid : id ∈ kernel.order) :
    id < kernel.size := by
  unfold order at hid
  rw [h.map_id_operations] at hid
  exact h.lt_size id hid

theorem not_shows_nextId (h : kernel.Built) : ¬ kernel.Shows kernel.nextId :=
  fun hshown => Nat.lt_irrefl _ (h.lt_size_of_mem_order hshown.mem_ids)

theorem nextId_not_mem_order (h : kernel.Built) : kernel.nextId ∉ kernel.order :=
  fun hmem => Nat.lt_irrefl _ (h.lt_size_of_mem_order hmem)

theorem param_ne_nextId (h : kernel.Built) {param : Parameter} (hparam : param ∈ kernel.params) :
    param.id ≠ kernel.nextId := by
  intro hid
  exact h.not_shows_nextId (hid ▸ Or.inl (List.mem_map_of_mem hparam))

theorem order_addParameter (h : kernel.Built) (name : String) (type : Option ValueType)
    (isFilter : Bool) :
    (kernel.addParameter name type isFilter).order =
      kernel.params.map (·.id) ++ kernel.nextId :: kernel.operations.map (·.id) := by
  unfold order
  rw [h.operations_addParameter name type isFilter]
  show List.map _ (kernel.params ++ [_]) ++ _ = _
  rw [List.map_append, List.map_singleton, List.append_assoc]
  rfl

theorem order_append (h : kernel.Built) (node : Node) :
    (kernel.append node).order = kernel.order ++ [kernel.nextId] := by
  unfold order
  rw [h.operations_append node, List.map_append, List.map_singleton, List.append_assoc]
  rfl

/-- No value is defined twice. -/
theorem nodup_order (h : kernel.Built) : kernel.order.Nodup := by
  induction h with
  | empty name => exact List.nodup_nil
  | addParameter h name type isFilter ih =>
      -- a late parameter comes between the parameters and the operations
      rw [h.order_addParameter, List.perm_middle.nodup_iff, List.nodup_cons]
      exact ⟨h.nextId_not_mem_order, ih⟩
  | append h node ih =>
      rw [h.order_append, (List.perm_append_singleton _ _).nodup_iff, List.nodup_cons]
      exact ⟨h.nextId_not_mem_order, ih⟩
  | withName h id name ih => exact ih

/-- A value is not among those before it. -/
theorem not_mem_of_order (h : kernel.Built) {done rest : List ValueId} {id : ValueId}
    (horder : kernel.order = done ++ id :: rest) : id ∉ done := by
  have hnodup := h.nodup_order
  rw [horder] at hnodup
  exact fun hid => (List.nodup_append.mp hnodup).2.2 id hid id List.mem_cons_self rfl

end Built

end Kernel

end BufferPromotion
