import BufferPromotion.Kernel.Chain
import BufferPromotion.Proofs.Kernel.Copies
import BufferPromotion.Proofs.Kernel.Derivation
import BufferPromotion.Proofs.Kernel.Validity

/-! # Chains in a valid kernel

In a valid kernel the operands of an operation have smaller ranks than its result. So properties
of values can be proved along the schedule (`order_induction`), and a chain is never cut off: the
chain of a result is the operation and the chain of its base (`chain_operation`). Parameter, buffer
and path of a value are then found one step at a time.
-/

set_option autoImplicit false

namespace BufferPromotion

namespace Kernel

variable {kernel : Kernel}

/-! ## Nodes -/

namespace Built

/-- Every node is that of a parameter or of a scheduled operation. -/
theorem length_order (h : kernel.Built) : kernel.order.length = kernel.size := by
  induction h with
  | empty name => rfl
  | @addParameter kernel h name type isFilter ih =>
      rw [size_addParameter, ← ih, h.order_addParameter, List.perm_middle.length_eq]
      rfl
  | @append kernel h node ih =>
      rw [size_append, ← ih, h.order_append, List.length_append]
      rfl
  | withName h id name ih => exact ih

theorem operation?_param (h : kernel.Built) {param : Parameter} (hparam : param ∈ kernel.params) :
    kernel.operation? param.id = some ⟨⟨.param, param.type, []⟩, param.id⟩ := by
  unfold operation?
  rw [h.node_of_param hparam]
  rfl

/-- A parameter is the only one with its id. -/
theorem eq_of_id_eq (h : kernel.Built) {param other : Parameter} (hparam : param ∈ kernel.params)
    (hother : other ∈ kernel.params) (hid : param.id = other.id) : param = other :=
  List.inj_on_of_nodup_map (List.nodup_append.mp h.nodup_order).1 hparam hother hid

theorem param?_id (h : kernel.Built) {param : Parameter} (hparam : param ∈ kernel.params) :
    kernel.param? param.id = some param := by
  unfold param?
  cases hfind : kernel.params.find? (·.id == param.id) with
  | none =>
      rw [List.find?_eq_none] at hfind
      exact absurd (beq_self_eq_true param.id) (hfind param hparam)
  | some other =>
      have hid : other.id = param.id := by simpa using List.find?_some hfind
      rw [h.eq_of_id_eq (List.mem_of_find?_eq_some hfind) hparam hid]

end Built

/-- A value that is not in the listing has no node. -/
theorem operation?_eq_none_of_not_mem (hbuilt : kernel.Built) {id : ValueId}
    (hid : id ∉ kernel.order) : kernel.operation? id = none := by
  have hrange : kernel.order.Perm (List.range kernel.size) := by
    refine (List.Subperm.perm_of_length_le ?_ ?_)
    · exact List.subperm_of_subset hbuilt.nodup_order fun other hother =>
        List.mem_range.mpr (hbuilt.lt_size_of_mem_order hother)
    · rw [List.length_range, hbuilt.length_order]
  rw [hrange.mem_iff, List.mem_range] at hid
  unfold operation?
  rw [Array.getElem?_eq_none (Nat.not_lt.mp hid)]
  rfl

/-- A node is that of a parameter or of a scheduled operation. -/
theorem param_or_mem_operations (hbuilt : kernel.Built) {id : ValueId} {op : Operation}
    (hop : kernel.operation? id = some op) :
    (∃ param ∈ kernel.params, param.id = id ∧ op = ⟨⟨.param, param.type, []⟩, param.id⟩) ∨
      op ∈ kernel.operations := by
  by_cases hid : id ∈ kernel.order
  · rcases List.mem_append.mp hid with hparam | hscheduled
    · obtain ⟨param, hmem, rfl⟩ := List.mem_map.mp hparam
      rw [hbuilt.operation?_param hmem] at hop
      exact Or.inl ⟨param, hmem, rfl, (Option.some.inj hop).symm⟩
    · obtain ⟨scheduled, hmem, rfl⟩ := List.mem_map.mp hscheduled
      rw [operation?_of_mem hmem] at hop
      exact Or.inr (Option.some.inj hop ▸ hmem)
  · rw [operation?_eq_none_of_not_mem hbuilt hid] at hop
    cases hop

/-- A node with a base is that of a scheduled operation. -/
theorem mem_operations_of_base (hbuilt : kernel.Built) {id base : ValueId} {op : Operation}
    (hop : kernel.operation? id = some op) (hbase : op.base = some base) :
    op ∈ kernel.operations := by
  rcases param_or_mem_operations hbuilt hop with ⟨param, -, -, rfl⟩ | hmem
  · -- a parameter has no base
    cases hbase
  · exact hmem

/-- The nodes on the way back from a node are this node, and those on the way back from its
base. -/
theorem chainWithin_succ {fuel : Nat} {id : ValueId} {op : Operation}
    (hop : kernel.operation? id = some op) :
    kernel.chainWithin (fuel + 1) id = op :: op.base.elim [] (kernel.chainWithin fuel) := by
  rw [chainWithin, hop]
  dsimp only
  cases op.base <;> rfl

/-! ## Along the schedule -/

section Valid

variable (hvalid : kernel.check = .ok ())

include hvalid

/-- A scheduled operation is not a parameter. -/
theorem kind_ne_param {op : Operation} (hop : op ∈ kernel.operations) : op.kind ≠ .param := by
  obtain ⟨before, after, hops⟩ := List.append_of_mem hop
  exact (check_eq_ok_iff.mp hvalid before op after hops).result.operation

theorem param_id_ne {param : Parameter} (hparam : param ∈ kernel.params) {op : Operation}
    (hop : op ∈ kernel.operations) : param.id ≠ op.id := by
  obtain ⟨before, after, hops⟩ := List.append_of_mem hop
  have hfits := check_eq_ok_iff.mp hvalid before op after hops
  intro hid
  exact hfits.notParam (hid ▸ List.mem_map_of_mem hparam)

/-- What holds of the parameters, and of a result as soon as it holds of the operands, holds of
all values of a valid kernel. -/
theorem order_induction {motive : ValueId → Prop}
    (parameter : ∀ param ∈ kernel.params, motive param.id)
    (result : ∀ op ∈ kernel.operations, (∀ operand ∈ op.operands, motive operand) → motive op.id) :
    ∀ id ∈ kernel.order, motive id := by
  -- the induction is on the part of the schedule that has been passed
  have hprefix : ∀ before after : List Operation, kernel.operations = before ++ after →
      ∀ op ∈ before, motive op.id := by
    intro before
    induction before using List.reverseRecOn with
    | nil => exact fun _ _ op hop => absurd hop List.not_mem_nil
    | append_singleton before last ih =>
        intro after hops op hop
        rw [List.append_assoc] at hops
        have hbefore := ih ([last] ++ after) hops
        rcases List.mem_append.mp hop with hold | hlast
        · exact hbefore op hold
        · rw [List.mem_singleton.mp hlast]
          have hmem : last ∈ kernel.operations := by
            rw [hops]
            exact List.mem_append_right _ List.mem_cons_self
          refine result last hmem fun operand hoperand => ?_
          rcases (check_eq_ok_iff.mp hvalid before last after hops).defined operand hoperand with
            hparam | hearlier
          · obtain ⟨param, hmem, rfl⟩ := List.mem_map.mp hparam
            exact parameter param hmem
          · obtain ⟨earlier, hmem, rfl⟩ := List.mem_map.mp hearlier
            exact hbefore earlier hmem
  intro id hid
  rcases List.mem_append.mp hid with hparam | hscheduled
  · obtain ⟨param, hmem, rfl⟩ := List.mem_map.mp hparam
    exact parameter param hmem
  · obtain ⟨op, hmem, rfl⟩ := List.mem_map.mp hscheduled
    exact hprefix kernel.operations [] (List.append_nil _).symm op hmem

theorem rank_operand_lt (hbuilt : kernel.Built) {op : Operation} (hop : op ∈ kernel.operations)
    {operand : ValueId} (hoperand : operand ∈ op.operands) :
    kernel.rank operand < kernel.rank op.id := by
  obtain ⟨before, after, hops⟩ := List.append_of_mem hop
  have horder := order_of_operations hops
  rw [rank_eq_length hbuilt horder]
  refine rank_lt_length horder (List.mem_append.mpr ?_)
  exact (check_eq_ok_iff.mp hvalid before op after hops).defined operand hoperand

/-! ## Chains -/

/-- As many nodes as the rank of a value, and one more, are enough for its chain. -/
theorem chainWithin_succ_of_rank_lt (hbuilt : kernel.Built) :
    ∀ id ∈ kernel.order, ∀ fuel, kernel.rank id < fuel →
      kernel.chainWithin (fuel + 1) id = kernel.chainWithin fuel id := by
  refine order_induction hvalid ?_ ?_
  · intro param hparam fuel hfuel
    obtain ⟨fuel, rfl⟩ := Nat.exists_eq_succ_of_ne_zero (Nat.ne_zero_of_lt hfuel)
    rw [chainWithin_succ (hbuilt.operation?_param hparam),
      chainWithin_succ (hbuilt.operation?_param hparam)]
    rfl
  · intro op hop ih fuel hfuel
    obtain ⟨fuel, rfl⟩ := Nat.exists_eq_succ_of_ne_zero (Nat.ne_zero_of_lt hfuel)
    rw [chainWithin_succ (operation?_of_mem hop), chainWithin_succ (operation?_of_mem hop)]
    cases hbase : op.base with
    | none => rfl
    | some base =>
        -- the base has a smaller rank, so the fuel that is left is enough for it
        have hmem := Node.mem_operands_of_base hbase
        have hlt : kernel.rank base < fuel :=
          Nat.lt_of_lt_of_le (rank_operand_lt hvalid hbuilt hop hmem) (Nat.le_of_lt_succ hfuel)
        rw [Option.elim_some, Option.elim_some, ih base hmem fuel hlt]

/-- The chain of a result is the operation, followed by the chain of its base. -/
theorem chain_operation (hbuilt : kernel.Built) {op : Operation} (hop : op ∈ kernel.operations) :
    kernel.chain op.id = op :: op.base.elim [] kernel.chain := by
  have hmem : op.id ∈ kernel.order := List.mem_append_right _ (List.mem_map_of_mem hop)
  have hrank : kernel.rank op.id < kernel.size := by
    rw [← hbuilt.length_order]
    exact List.idxOf_lt_length_of_mem hmem
  unfold chain
  rw [← chainWithin_succ_of_rank_lt hvalid hbuilt op.id hmem kernel.size hrank,
    chainWithin_succ (operation?_of_mem hop)]

end Valid

theorem chain_param (hbuilt : kernel.Built) {param : Parameter} (hparam : param ∈ kernel.params) :
    kernel.chain param.id = [⟨⟨.param, param.type, []⟩, param.id⟩] := by
  have hnode := hbuilt.operation?_param hparam
  obtain ⟨fuel, hfuel⟩ := Nat.exists_eq_succ_of_ne_zero
    (Nat.ne_zero_of_lt (lt_size_of_operation? hnode))
  unfold chain
  rw [hfuel, chainWithin_succ hnode]
  rfl

theorem chain_eq_nil {id : ValueId} (hnode : kernel.operation? id = none) :
    kernel.chain id = [] := by
  unfold chain
  cases kernel.size with
  | zero => rfl
  | succ fuel => rw [chainWithin, hnode]

/-! ## The parameter of a value -/

theorem rootParam_param (hbuilt : kernel.Built) {param : Parameter}
    (hparam : param ∈ kernel.params) : kernel.rootParam param.id = some param := by
  unfold rootParam
  rw [chain_param hbuilt hparam]
  exact hbuilt.param?_id hparam

/-- A result comes from the parameter that its base comes from. -/
theorem rootParam_operation (hbuilt : kernel.Built) (hvalid : kernel.check = .ok ())
    {op : Operation} (hop : op ∈ kernel.operations) :
    kernel.rootParam op.id = op.base.bind kernel.rootParam := by
  have hkind := kind_ne_param hvalid hop
  unfold rootParam
  rw [chain_operation hvalid hbuilt hop, List.find?_cons_of_neg (by simpa using hkind)]
  cases op.base <;> rfl

/-! ## The buffer of a value -/

theorem bufferStart_param (hbuilt : kernel.Built) {param : Parameter}
    (hparam : param ∈ kernel.params) :
    kernel.bufferStart param.id =
      if param.type.any ValueType.isPointer then some param.id else none := by
  unfold bufferStart
  rw [chain_param hbuilt hparam]
  rfl

/-- A derived pointer stays in the buffer of its base. -/
theorem bufferStart_of_isDerivation (hbuilt : kernel.Built) (hvalid : kernel.check = .ok ())
    {op : Operation} (hop : op ∈ kernel.operations) (hkind : op.kind.isDerivation = true) :
    kernel.bufferStart op.id = op.base.bind kernel.bufferStart := by
  unfold bufferStart
  rw [chain_operation hvalid hbuilt hop, List.find?_cons_of_neg (by simp [hkind])]
  cases op.base <;> rfl

/-- An extracted pointer starts a buffer. -/
theorem bufferStart_extract (hbuilt : kernel.Built) (hvalid : kernel.check = .ok ())
    {op : Operation} (hop : op ∈ kernel.operations) {field : String}
    (hkind : op.kind = .extract field) :
    kernel.bufferStart op.id = if op.givesPointer then some op.id else none := by
  unfold bufferStart
  rw [chain_operation hvalid hbuilt hop, List.find?_cons_of_pos (by rw [hkind]; rfl)]
  simp only [Option.bind_eq_bind, Option.bind_some, hkind]

/-- Operations that project nothing point into no buffer. -/
theorem bufferStart_of_not_isProjection (hbuilt : kernel.Built) (hvalid : kernel.check = .ok ())
    {op : Operation} (hop : op ∈ kernel.operations) (hkind : op.kind.isProjection = false) :
    kernel.bufferStart op.id = none := by
  have hparam := kind_ne_param hvalid hop
  unfold bufferStart
  rw [chain_operation hvalid hbuilt hop]
  cases h : op.kind with
  | param => exact absurd h hparam
  | extract field | reinterpret | address =>
      rw [h] at hkind
      cases hkind
  | load | store | other name =>
      rw [List.find?_cons_of_pos (by rw [h]; rfl)]
      simp only [Option.bind_eq_bind, Option.bind_some, h]

/-! ## The path to a value -/

theorem memberPath_param (hbuilt : kernel.Built) {param : Parameter}
    (hparam : param ∈ kernel.params) : kernel.memberPath param.id = some [param.name] := by
  unfold memberPath
  rw [chain_param hbuilt hparam]
  unfold pathOf
  simp [hbuilt.param?_id hparam]

/-- The path to an extracted value is that to its base, followed by the field. -/
theorem memberPath_extract (hbuilt : kernel.Built) (hvalid : kernel.check = .ok ())
    {op : Operation} (hop : op ∈ kernel.operations) {field : String}
    (hkind : op.kind = .extract field) :
    kernel.memberPath op.id = (op.base.bind kernel.memberPath).map (· ++ [field]) := by
  unfold memberPath
  rw [chain_operation hvalid hbuilt hop, pathOf, hkind]
  cases op.base <;> rfl

/-- A result that is not extracted has no path. -/
theorem memberPath_of_kind_ne_extract (hbuilt : kernel.Built) (hvalid : kernel.check = .ok ())
    {op : Operation} (hop : op ∈ kernel.operations) (hkind : ∀ field, op.kind ≠ .extract field) :
    kernel.memberPath op.id = none := by
  have hparam := kind_ne_param hvalid hop
  unfold memberPath
  rw [chain_operation hvalid hbuilt hop, pathOf]
  cases h : op.kind with
  | param => exact absurd h hparam
  | extract field => exact absurd h (hkind field)
  | reinterpret | address | load | store | other name => rfl

theorem memberPath_ne_nil {id : ValueId} {path : List String}
    (h : kernel.memberPath id = some path) : path ≠ [] := by
  unfold memberPath at h
  cases hchain : kernel.chain id with
  | nil => simp [hchain, pathOf] at h
  | cons op rest =>
      rw [hchain, pathOf] at h
      split at h
      · obtain ⟨param, -, rfl⟩ := Option.map_eq_some_iff.mp h
        exact List.cons_ne_nil _ _
      · obtain ⟨before, -, rfl⟩ := Option.map_eq_some_iff.mp h
        exact List.append_ne_nil_of_right_ne_nil _ (List.cons_ne_nil _ _)
      · cases h

/-! ## Kernels that have grown -/

section Grown

variable {later : Kernel} (hbuilt : kernel.Built) (hvalid : kernel.check = .ok ())
  (hbuilt' : later.Built) (hvalid' : later.check = .ok ()) (hparams : kernel.params ⊆ later.params)
  (hops : kernel.operations ⊆ later.operations)

include hbuilt hvalid hbuilt' hvalid' hparams hops

/-- A value stays the parameter it was, or no parameter. -/
theorem param?_of_grown {id : ValueId} (hid : id ∈ kernel.order) : later.param? id = kernel.param? id := by
  rcases List.mem_append.mp hid with hparam | hscheduled
  · obtain ⟨param, hmem, rfl⟩ := List.mem_map.mp hparam
    rw [hbuilt'.param?_id (hparams hmem), hbuilt.param?_id hmem]
  · obtain ⟨op, hmem, rfl⟩ := List.mem_map.mp hscheduled
    have hnone : ∀ other : Kernel, other.check = .ok () → op ∈ other.operations →
        other.param? op.id = none := by
      intro other hother hop
      refine List.find?_eq_none.mpr fun param hparam => ?_
      simpa using param_id_ne hother hparam hop
    rw [hnone later hvalid' (hops hmem), hnone kernel hvalid hmem]

/-- The path to a value stays what it was. -/
theorem memberPath_of_grown :
    ∀ id ∈ kernel.order, later.memberPath id = kernel.memberPath id := by
  refine order_induction hvalid ?_ ?_
  · intro param hparam
    rw [memberPath_param hbuilt' (hparams hparam), memberPath_param hbuilt hparam]
  · intro op hop ih
    by_cases hextract : ∃ field, op.kind = .extract field
    · obtain ⟨field, hkind⟩ := hextract
      rw [memberPath_extract hbuilt' hvalid' (hops hop) hkind,
        memberPath_extract hbuilt hvalid hop hkind]
      cases hbase : op.base with
      | none => rfl
      | some base =>
          rw [Option.bind_some, Option.bind_some, ih base (Node.mem_operands_of_base hbase)]
    · rw [not_exists] at hextract
      rw [memberPath_of_kind_ne_extract hbuilt' hvalid' (hops hop) hextract,
        memberPath_of_kind_ne_extract hbuilt hvalid hop hextract]

end Grown

end Kernel

end BufferPromotion
