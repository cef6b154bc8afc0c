import BufferPromotion.Alias.Analysis
import BufferPromotion.Proofs.Alias.Promotion
import BufferPromotion.Proofs.Alias.References
import BufferPromotion.Proofs.Kernel.Copies

/-! # The analysis of a renumbered kernel

The analysis only compares numbers of values, so other numbers give the same analysis with other
numbers, as long as different values keep different numbers. The proof follows the two folds side
by side: what a set says about a value, the other set says about its number.
-/

set_option autoImplicit false

namespace BufferPromotion

namespace AliasSet

variable {number : ValueId → ValueId} {set image : AliasSet} {id : ValueId}

/-! ## Parameters -/

section Parameters

variable {param other : Parameter} (hnumber : other.id = number param.id)
  (htype : other.type = param.type) (hfilter : other.isFilter = param.isFilter)

include hnumber htype hfilter

theorem seedSource?_renumber :
    seedSource? other = (seedSource? param).map (PointerSource.renumber number) := by
  unfold seedSource?
  rw [hnumber, htype, hfilter]
  cases param.isFilter with
  | true => rfl
  | false =>
      cases param.type with
      | none => rfl
      | some type => cases type <;> rfl

theorem seedRoot?_renumber : seedRoot? other = (seedRoot? param).map number := by
  unfold seedRoot?
  rw [hnumber, htype, hfilter]
  cases param.isFilter with
  | true => rfl
  | false => cases param.type <;> rfl

/-- Tracking a parameter keeps two sets in step. -/
theorem ImageAt.seedParam (hid : number id = number param.id ↔ id = param.id)
    (hold : ImageAt number set image id) :
    ImageAt number (set.seedParam param) (image.seedParam other) id where
  pointers := by
    refine (pointers_seedParam set param).map hid hold.pointers ?_
    rw [← hnumber, ← seedSource?_renumber hnumber htype hfilter]
    exact pointers_seedParam image other
  references := by
    refine (references_seedParam set param).map hid hold.references ?_
    rw [← hnumber, ← seedRoot?_renumber hnumber htype hfilter]
    exact references_seedParam image other

end Parameters

/-! ## Kernels -/

/-- A value that a kernel does not define is not tracked. -/
theorem sameAt_empty {kernel : Kernel} (hid : id ∉ kernel.order) :
    SameAt (ofKernel kernel) empty id := by
  unfold Kernel.order at hid
  rw [List.mem_append, not_or] at hid
  exact (sameAt_foldl_follow hid.2).trans (sameAt_seed hid.1)

theorem mem_order_of_pointers {kernel : Kernel} {source : PointerSource}
    (h : (ofKernel kernel).pointers[id]? = some source) : id ∈ kernel.order := by
  by_contra hid
  rw [(sameAt_empty hid).pointers, pointers_empty] at h
  cases h

theorem mem_order_of_references {kernel : Kernel} {root : ValueId}
    (h : (ofKernel kernel).references[id]? = some root) : id ∈ kernel.order := by
  by_contra hid
  rw [(sameAt_empty hid).references, references_empty] at h
  cases h

variable {kernel copy : Kernel} (h : kernel.Copies kernel.params kernel.operations copy)
  (hoperands : ∀ op ∈ kernel.operations, ∀ operand ∈ op.operands, operand ∈ kernel.order)

include h hoperands

/-- What is known about a copy is what is known about the original. -/
theorem imageAt_ofKernel (hid : id ∈ kernel.order) :
    ImageAt kernel.rank (ofKernel kernel) (ofKernel copy) id := by
  -- both folds start from nothing and keep in step at every value of the kernel
  have hparams : ∀ (params : List Parameter) (set image : AliasSet), params ⊆ kernel.params →
      (∀ id ∈ kernel.order, ImageAt kernel.rank set image id) → ∀ id ∈ kernel.order,
        ImageAt kernel.rank (set.seed params) (image.seed (params.map kernel.copiedParam)) id := by
    intro params
    induction params with
    | nil => exact fun _ _ _ hold => hold
    | cons param params ih =>
        intro set image hsubset hold
        rw [List.cons_subset] at hsubset
        refine ih _ _ hsubset.2 fun id hid => ?_
        exact (hold id hid).seedParam rfl rfl rfl (Kernel.rank_inj hid)
  have hops : ∀ (ops : List Operation) (set image : AliasSet), ops ⊆ kernel.operations →
      (∀ id ∈ kernel.order, ImageAt kernel.rank set image id) → ∀ id ∈ kernel.order,
        ImageAt kernel.rank (ops.foldl follow set)
          ((ops.map (Operation.renumber kernel.rank)).foldl follow image) id := by
    intro ops
    induction ops with
    | nil => exact fun _ _ _ hold => hold
    | cons op ops ih =>
        intro set image hsubset hold
        rw [List.cons_subset] at hsubset
        refine ih _ _ hsubset.2 fun id hid => ?_
        refine ImageAt.follow (fun base hbase => ?_) (Kernel.rank_inj hid) (hold id hid)
        exact hold base (hoperands op hsubset.1 base (Node.mem_operands_of_base hbase))
  have hempty : ∀ id ∈ kernel.order, ImageAt kernel.rank empty empty id := by
    refine fun id _ => ⟨?_, ?_⟩
    · rw [pointers_empty, pointers_empty]
      rfl
    · rw [references_empty, references_empty]
      rfl
  unfold ofKernel
  rw [h.params, h.operations]
  exact hops _ _ _ (List.Subset.refl _) (hparams _ _ _ (List.Subset.refl _) hempty) id hid

/-- The pointers of a copy are the copies of the pointers. -/
theorem pointers_copy_iff {value : ValueId} {source : PointerSource} :
    (ofKernel copy).pointers[value]? = some source ↔
      ∃ id old, (ofKernel kernel).pointers[id]? = some old ∧ kernel.rank id = value ∧
        old.renumber kernel.rank = source := by
  constructor
  · -- a value that the copy tracks is the copy of one that the kernel tracks
    intro hvalue
    have hmem := mem_order_of_pointers hvalue
    rw [h.order_eq_map] at hmem
    obtain ⟨id, hid, rfl⟩ := List.mem_map.mp hmem
    rw [(imageAt_ofKernel h hoperands hid).pointers] at hvalue
    obtain ⟨old, hold, hsource⟩ := Option.map_eq_some_iff.mp hvalue
    exact ⟨id, old, hold, rfl, hsource⟩
  · rintro ⟨id, old, hold, rfl, rfl⟩
    rw [(imageAt_ofKernel h hoperands (mem_order_of_pointers hold)).pointers, hold]
    rfl

/-- The references of a copy are the copies of the references. -/
theorem references_copy_iff {value root : ValueId} :
    (ofKernel copy).references[value]? = some root ↔
      ∃ id old, (ofKernel kernel).references[id]? = some old ∧ kernel.rank id = value ∧
        kernel.rank old = root := by
  constructor
  · intro hvalue
    have hmem := mem_order_of_references hvalue
    rw [h.order_eq_map] at hmem
    obtain ⟨id, hid, rfl⟩ := List.mem_map.mp hmem
    rw [(imageAt_ofKernel h hoperands hid).references] at hvalue
    obtain ⟨old, hold, hroot⟩ := Option.map_eq_some_iff.mp hvalue
    exact ⟨id, old, hold, rfl, hroot⟩
  · rintro ⟨id, old, hold, rfl, rfl⟩
    rw [(imageAt_ofKernel h hoperands (mem_order_of_references hold)).references, hold]
    rfl

end AliasSet

/-! ## Promotion -/

theorem accessed_renumber {number : ValueId → ValueId} (op : Operation) :
    (op.renumber number).accessed = op.accessed.map number := by
  have hkind : (op.renumber number).kind = op.kind := rfl
  have hoperands : (op.renumber number).operands = op.operands.map number := rfl
  unfold Node.accessed
  rw [hkind, hoperands]
  cases op.kind with
  | load | store => exact List.head?_map
  | param | extract field | reinterpret | address | other name => rfl

/-- Something that operations do to the pointer they access is done in the copy to the copy of
the pointer. -/
theorem exists_accessed_renumber {number : ValueId → ValueId} {kind : NodeKind}
    {ops : List Operation} {value : ValueId} :
    (∃ op ∈ ops.map (Operation.renumber number), op.kind = kind ∧ op.accessed = some value) ↔
      ∃ id, (∃ op ∈ ops, op.kind = kind ∧ op.accessed = some id) ∧ number id = value := by
  constructor
  · rintro ⟨copied, hcopied, hkind, haccessed⟩
    obtain ⟨op, hop, rfl⟩ := List.mem_map.mp hcopied
    rw [accessed_renumber] at haccessed
    obtain ⟨id, hid, hvalue⟩ := Option.map_eq_some_iff.mp haccessed
    exact ⟨id, ⟨op, hop, hkind, hid⟩, hvalue⟩
  · rintro ⟨id, ⟨op, hop, hkind, hid⟩, rfl⟩
    refine ⟨op.renumber number, List.mem_map_of_mem hop, hkind, ?_⟩
    rw [accessed_renumber, hid]
    rfl

namespace Analysis

variable {kernel copy : Kernel} (h : kernel.Copies kernel.params kernel.operations copy)

include h

/-- The blacklisted values of a copy are the copies of the blacklisted values. -/
theorem mem_blacklisted_copy_iff {value : ValueId} :
    value ∈ (ofKernel copy).promotion.blacklisted ↔
      ∃ id ∈ (ofKernel kernel).promotion.blacklisted, kernel.rank id = value := by
  unfold ofKernel
  simp only [Promotion.mem_blacklisted_ofOperations]
  rw [h.operations]
  exact exists_accessed_renumber

/-- The promoted values of a copy are the copies of the promoted values. -/
theorem mem_promoted_copy_iff
    (hoperands : ∀ op ∈ kernel.operations, ∀ operand ∈ op.operands, operand ∈ kernel.order)
    {value : ValueId} :
    value ∈ (ofKernel copy).promotion.promoted ↔
      ∃ id ∈ (ofKernel kernel).promotion.promoted, kernel.rank id = value := by
  have haccessed : ∀ op ∈ kernel.operations, ∀ id, op.accessed = some id → id ∈ kernel.order := by
    intro op hop id hid
    refine hoperands op hop id ?_
    unfold Node.accessed at hid
    split at hid
    · exact List.mem_of_mem_head? hid
    · exact List.mem_of_mem_head? hid
    · cases hid
  unfold ofKernel
  simp only [Promotion.mem_promoted_ofOperations]
  rw [h.operations]
  constructor
  · rintro ⟨hread, htracked, hwritten⟩
    obtain ⟨id, hid, rfl⟩ := exists_accessed_renumber.mp hread
    obtain ⟨op, hop, hkind, hpointer⟩ := hid
    have himage := AliasSet.imageAt_ofKernel h hoperands (haccessed op hop id hpointer)
    rw [himage.hasPointer] at htracked
    refine ⟨id, ⟨⟨op, hop, hkind, hpointer⟩, htracked, fun hstored => hwritten ?_⟩, rfl⟩
    exact exists_accessed_renumber.mpr ⟨id, hstored, rfl⟩
  · rintro ⟨id, ⟨⟨op, hop, hkind, hpointer⟩, htracked, hwritten⟩, rfl⟩
    have hmem := haccessed op hop id hpointer
    have himage := AliasSet.imageAt_ofKernel h hoperands hmem
    refine ⟨exists_accessed_renumber.mpr ⟨id, ⟨op, hop, hkind, hpointer⟩, rfl⟩, ?_, ?_⟩
    · rw [himage.hasPointer]
      exact htracked
    · -- a store through the copy is the copy of a store, and through the same pointer
      intro hstored
      obtain ⟨other, hother, hrank⟩ := exists_accessed_renumber.mp hstored
      rw [(Kernel.rank_inj hmem).mp hrank.symm] at hwritten
      exact hwritten hother

end Analysis

end BufferPromotion
