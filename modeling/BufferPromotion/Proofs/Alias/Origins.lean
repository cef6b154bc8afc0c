import BufferPromotion.Proofs.Alias.Rules

/-! # Where tracked values come from

The alias set stores with a value the parameter it comes from and the start of its buffer; the
kernel finds both by walking back along the bases. The two agree in a valid kernel, one step of
the schedule at a time: what the set says about a pointer is what it says about the start that the
walk finds (`pointers_eq_bind_bufferStart`).
-/

set_option autoImplicit false

namespace BufferPromotion

namespace AliasSet

variable {kernel : Kernel} {id root : ValueId} {source : PointerSource}

theorem tracks_iff_exists_paramOf {set : AliasSet} :
    set.tracks id = true ↔ ∃ root, set.paramOf id = some root := by
  unfold tracks paramOf
  rw [Bool.or_eq_true, hasReference_iff, hasPointer_iff]
  cases set.pointers[id]? <;> simp

section Valid

variable (hbuilt : kernel.Built) (hvalid : kernel.check = .ok ())

include hbuilt hvalid

/-! ## The parameter -/

/-- A result comes from the same parameter as its base. -/
theorem exists_base_of_paramOf {op : Operation} (hop : op ∈ kernel.operations)
    (h : (ofKernel kernel).paramOf op.id = some root) :
    ∃ base, op.base = some base ∧ (ofKernel kernel).paramOf base = some root := by
  unfold paramOf at h
  cases hpointer : (ofKernel kernel).pointers[op.id]? with
  | none =>
      rw [hpointer] at h
      obtain ⟨-, base, -, hbase, -, hrefers⟩ := (references_operation_iff hbuilt hvalid hop).mp h
      exact ⟨base, hbase, paramOf_of_references hbuilt hvalid hrefers⟩
  | some source =>
      rw [hpointer] at h
      cases h
      rcases (pointers_operation_iff hbuilt hvalid hop).mp hpointer with
        ⟨-, base, root, -, hbase, -, hrefers, rfl⟩ | ⟨base, -, hbase, hpoints⟩
      · exact ⟨base, hbase, paramOf_of_references hbuilt hvalid hrefers⟩
      · refine ⟨base, hbase, ?_⟩
        unfold paramOf
        rw [hpoints]

/-- A tracked parameter is of known type, is no filter, and comes from itself. -/
theorem paramOf_param {param : Parameter} (hparam : param ∈ kernel.params)
    (h : (ofKernel kernel).paramOf param.id = some root) :
    root = param.id ∧ param.isFilter = false ∧ param.type.isSome = true := by
  unfold paramOf at h
  rw [pointers_param hbuilt hparam hvalid, references_param hbuilt hparam hvalid] at h
  cases hsource : seedSource? param with
  | none =>
      rw [hsource] at h
      obtain ⟨hfilter, htype, hroot⟩ := seedRoot?_eq_some_iff.mp h
      exact ⟨hroot, hfilter, htype⟩
  | some source =>
      rw [hsource] at h
      obtain ⟨hfilter, htype, rfl⟩ := seedSource?_eq_some_iff.mp hsource
      cases h
      exact ⟨rfl, hfilter, by rw [htype]; rfl⟩

/-- The parameter that is stored for a value is the one that its chain ends at. -/
theorem rootParam_of_paramOf (h : (ofKernel kernel).paramOf id = some root) :
    ∃ param ∈ kernel.params, kernel.rootParam id = some param ∧ param.id = root ∧
      param.isFilter = false ∧ param.type.isSome = true := by
  have hall : ∀ id ∈ kernel.order, ∀ root, (ofKernel kernel).paramOf id = some root →
      ∃ param ∈ kernel.params, kernel.rootParam id = some param ∧ param.id = root ∧
        param.isFilter = false ∧ param.type.isSome = true := by
    refine Kernel.order_induction hvalid ?_ ?_
    · intro param hparam root h
      obtain ⟨rfl, hfilter, htype⟩ := paramOf_param hbuilt hvalid hparam h
      exact ⟨param, hparam, Kernel.rootParam_param hbuilt hparam, rfl, hfilter, htype⟩
    · intro op hop ih root h
      obtain ⟨base, hbase, hroot⟩ := exists_base_of_paramOf hbuilt hvalid hop h
      rw [Kernel.rootParam_operation hbuilt hvalid hop, hbase, Option.bind_some]
      exact ih base (Node.mem_operands_of_base hbase) root hroot
  refine hall id ?_ root h
  unfold paramOf at h
  cases hpointer : (ofKernel kernel).pointers[id]? with
  | none =>
      rw [hpointer] at h
      exact mem_order_of_references h
  | some source => exact mem_order_of_pointers hpointer

/-! ## The buffer -/

/-- From the base of an operation to its result: both go on at the base, or the result starts a
buffer itself, or it is no pointer. -/
theorem pointers_eq_bind_of_operation {op : Operation} (hop : op ∈ kernel.operations)
    (ih : ∀ operand ∈ op.operands, (ofKernel kernel).pointers[operand]? =
      (kernel.bufferStart operand).bind ((ofKernel kernel).pointers[·]?)) :
    (ofKernel kernel).pointers[op.id]? =
      (kernel.bufferStart op.id).bind ((ofKernel kernel).pointers[·]?) := by
  have hother : op.kind.isProjection = false → (ofKernel kernel).pointers[op.id]? =
      (kernel.bufferStart op.id).bind ((ofKernel kernel).pointers[·]?) := by
    intro hkind
    have hend : kernel.EndsAliasing op.id := Or.inr ⟨op, hop, rfl, hkind⟩
    rw [Kernel.bufferStart_of_not_isProjection hbuilt hvalid hop hkind]
    exact (tracks_eq_false_iff.mp (tracks_eq_false_of_endsAliasing hbuilt hvalid hend)).2
  cases hkind : op.kind with
  | reinterpret | address =>
      have hderives : op.kind.isDerivation = true := by rw [hkind]; rfl
      rw [Kernel.bufferStart_of_isDerivation hbuilt hvalid hop hderives,
        pointers_ofKernel_of_isDerivation hvalid hop hderives]
      cases hbase : op.base with
      | none => rfl
      | some base => exact ih base (Node.mem_operands_of_base hbase)
  | extract field =>
      rw [Kernel.bufferStart_extract hbuilt hvalid hop hkind]
      cases hpointer : op.givesPointer with
      | true => rfl
      | false =>
          -- what is extracted and is no pointer starts no buffer
          refine Option.eq_none_iff_forall_ne_some.mpr fun source hsource => ?_
          rcases (pointers_operation_iff hbuilt hvalid hop).mp hsource with
            ⟨-, -, -, -, -, hgives, -⟩ | ⟨-, hderives, -⟩
          · rw [hpointer] at hgives
            cases hgives
          · rw [hkind] at hderives
            cases hderives
  | param | load | store | other name => exact hother (by rw [hkind]; rfl)

/-- What is known about a pointer is what is known about the start of its buffer. -/
theorem pointers_eq_bind_bufferStart (id : ValueId) :
    (ofKernel kernel).pointers[id]? =
      (kernel.bufferStart id).bind ((ofKernel kernel).pointers[·]?) := by
  have hdefined : ∀ id ∈ kernel.order, (ofKernel kernel).pointers[id]? =
      (kernel.bufferStart id).bind ((ofKernel kernel).pointers[·]?) := by
    refine Kernel.order_induction hvalid ?_ ?_
    · -- a parameter that is known as a pointer starts its own buffer
      intro param hparam
      rw [Kernel.bufferStart_param hbuilt hparam]
      split
      · rfl
      · next htype =>
        refine Option.eq_none_iff_forall_ne_some.mpr fun source hsource => htype ?_
        rw [pointers_param hbuilt hparam hvalid, seedSource?_eq_some_iff] at hsource
        rw [hsource.2.1]
        rfl
    · exact fun op hop ih => pointers_eq_bind_of_operation hbuilt hvalid hop ih
  by_cases hid : id ∈ kernel.order
  · exact hdefined id hid
  · -- a value that is not defined has no chain
    have hstart : kernel.bufferStart id = none := by
      unfold Kernel.bufferStart
      rw [Kernel.chain_eq_nil (Kernel.operation?_eq_none_of_not_mem hbuilt hid)]
      rfl
    rw [hstart, (sameAt_empty hid).pointers, pointers_empty]
    rfl

/-- A value is a tracked pointer if and only if its buffer starts at one. -/
theorem hasPointer_iff_bufferStart : (ofKernel kernel).hasPointer id = true ↔
    ∃ start, kernel.bufferStart id = some start ∧ (ofKernel kernel).hasPointer start = true := by
  simp only [hasPointer_iff]
  rw [pointers_eq_bind_bufferStart hbuilt hvalid id]
  simp only [Option.bind_eq_some_iff]
  exact exists_comm.trans (exists_congr fun start => exists_and_left)

omit hvalid in
/-- The chain of a tracked pointer finds the start of its buffer. -/
theorem kernel_bufferStart_of_pointers (h : (ofKernel kernel).pointers[id]? = some source) :
    kernel.bufferStart id = some source.buffer := by
  obtain ⟨hleads, start, hop, hkind, hpointer⟩ := leadBack_ofKernel hbuilt id source h
  exact Kernel.bufferStart_of_leadsTo hleads hop hkind hpointer

omit hvalid in
theorem bufferStart_eq_of_hasPointer (h : (ofKernel kernel).hasPointer id = true) :
    (ofKernel kernel).bufferStart id = kernel.bufferStart id := by
  obtain ⟨source, hsource⟩ := hasPointer_iff.mp h
  rw [kernel_bufferStart_of_pointers hbuilt hsource]
  unfold bufferStart
  rw [hsource]
  rfl

end Valid

end AliasSet

end BufferPromotion
