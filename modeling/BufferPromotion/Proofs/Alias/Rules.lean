import BufferPromotion.Alias.Analysis
import BufferPromotion.Proofs.Alias.Promotion
import BufferPromotion.Proofs.Alias.Renumbering
import BufferPromotion.Proofs.Kernel.Chain

/-! # The rules of aliasing

Which values alias a parameter can be said without an order of steps: by rules that lead from
parameters and bases to results (`AliasRules`). The set that follows the operations once, in
program order, satisfies the rules and holds nothing that they do not demand, because an operand
is defined before it is used. So aliasing ends where no rule leads on: at filters, at parameters
of unknown type, and at the results of operations that project nothing.
-/

set_option autoImplicit false

namespace BufferPromotion

/-- Two relations follow the rules of aliasing in a kernel: `refers`, between the references and
the parameters they come from, and `points`, between the pointers and the places they come from. -/
structure AliasRules (kernel : Kernel) (refers : ValueId → ValueId → Prop)
    (points : ValueId → PointerSource → Prop) : Prop where
  /-- A parameter of known type that is not a filter is a reference. -/
  parameter : ∀ param ∈ kernel.params, param.isFilter = false → param.type.isSome = true →
    refers param.id param.id
  /-- If it is a pointer, it starts a buffer. -/
  pointerParameter : ∀ param ∈ kernel.params, param.isFilter = false →
    param.type = some .pointer → points param.id ⟨param.id, param.id⟩
  /-- A struct extracted from a reference is a reference. -/
  extractedStruct : ∀ op ∈ kernel.operations, ∀ field base root, op.kind = .extract field →
    op.base = some base → op.givesStruct = true → refers base root → refers op.id root
  /-- A pointer extracted from a reference starts a buffer. -/
  extractedPointer : ∀ op ∈ kernel.operations, ∀ field base root, op.kind = .extract field →
    op.base = some base → op.givesPointer = true → refers base root → points op.id ⟨root, op.id⟩
  /-- What is derived from a pointer points into the same buffer. -/
  derivedPointer : ∀ op ∈ kernel.operations, ∀ base source, op.kind.isDerivation = true →
    op.base = some base → points base source → points op.id source

namespace Kernel

/-- One step back along the bases, be it an extraction or a derivation. -/
def ProjectedFrom (kernel : Kernel) (id base : ValueId) : Prop :=
  ∃ op, kernel.operation? id = some op ∧ op.base = some base

/-- Any number of steps back along the bases. -/
def ProjectsTo (kernel : Kernel) (id origin : ValueId) : Prop :=
  Relation.ReflTransGen kernel.ProjectedFrom id origin

/-- A value where aliasing ends: a filter, a parameter of unknown type, or the result of an
operation that projects nothing, as a load or an unknown operation. -/
def EndsAliasing (kernel : Kernel) (id : ValueId) : Prop :=
  (∃ param ∈ kernel.params, param.id = id ∧ (param.isFilter = true ∨ param.type = none)) ∨
    ∃ op ∈ kernel.operations, op.id = id ∧ op.kind.isProjection = false

end Kernel

namespace AliasSet

variable {kernel : Kernel} {id root : ValueId} {source : PointerSource}

theorem tracks_eq_false_iff {set : AliasSet} :
    set.tracks id = false ↔ set.references[id]? = none ∧ set.pointers[id]? = none := by
  unfold tracks hasReference hasPointer
  rw [Bool.or_eq_false_iff, Std.ExtTreeMap.contains_eq_isSome_getElem?,
    Std.ExtTreeMap.contains_eq_isSome_getElem?, Option.isSome_eq_false_iff,
    Option.isSome_eq_false_iff, Option.isNone_iff_eq_none, Option.isNone_iff_eq_none]

theorem hasPointer_iff {set : AliasSet} :
    set.hasPointer id = true ↔ ∃ source, set.pointers[id]? = some source := by
  unfold hasPointer
  rw [Std.ExtTreeMap.contains_eq_isSome_getElem?, Option.isSome_iff_exists]

theorem hasReference_iff {set : AliasSet} :
    set.hasReference id = true ↔ ∃ root, set.references[id]? = some root := by
  unfold hasReference
  rw [Std.ExtTreeMap.contains_eq_isSome_getElem?, Option.isSome_iff_exists]

/-! ## Parameters -/

/-- No operation changes what is known about a parameter. -/
theorem sameAt_param (hvalid : kernel.check = .ok ()) {param : Parameter}
    (hparam : param ∈ kernel.params) :
    SameAt (ofKernel kernel) (empty.seed kernel.params) param.id :=
  sameAt_ofKernel hvalid (List.nil_append _).symm (Or.inl (List.mem_map_of_mem hparam))

section Parameters

variable (hbuilt : kernel.Built) {param : Parameter} (hparam : param ∈ kernel.params)

include hbuilt hparam

/-- Tracking the other parameters says nothing about a parameter. -/
theorem sameAt_seed_of_mem : ∃ before, SameAt (empty.seed kernel.params)
    ((empty.seed before).seedParam param) param.id ∧ SameAt (empty.seed before) empty param.id := by
  obtain ⟨before, after, hparams⟩ := List.append_of_mem hparam
  have hnodup : (before.map (·.id) ++ param.id :: after.map (·.id)).Nodup := by
    have h := (List.nodup_append.mp hbuilt.nodup_order).1
    rw [hparams, List.map_append] at h
    exact h
  have hbefore : param.id ∉ before.map (·.id) := fun hmem =>
    (List.nodup_append.mp hnodup).2.2 _ hmem _ List.mem_cons_self rfl
  have hafter : param.id ∉ after.map (·.id) :=
    (List.nodup_cons.mp (List.nodup_append.mp hnodup).2.1).1
  refine ⟨before, ?_, sameAt_seed hbefore⟩
  have h : SameAt (((empty.seed before).seedParam param).seed after)
      ((empty.seed before).seedParam param) param.id := sameAt_seed hafter
  unfold seed at h ⊢
  rw [hparams, List.foldl_append]
  exact h

variable (hvalid : kernel.check = .ok ())

include hvalid

/-- In the end, a parameter is known as it was seeded. -/
theorem pointers_param : (ofKernel kernel).pointers[param.id]? = seedSource? param := by
  obtain ⟨before, hseed, hnone⟩ := sameAt_seed_of_mem hbuilt hparam
  rw [(sameAt_param hvalid hparam).pointers, hseed.pointers,
    (pointers_seedParam _ param).self, hnone.pointers, pointers_empty, Option.none_or]

theorem references_param : (ofKernel kernel).references[param.id]? = seedRoot? param := by
  obtain ⟨before, hseed, hnone⟩ := sameAt_seed_of_mem hbuilt hparam
  rw [(sameAt_param hvalid hparam).references, hseed.references,
    (references_seedParam _ param).self, hnone.references, references_empty, Option.none_or]

end Parameters

/-! ## Results -/

section Results

variable (hbuilt : kernel.Built) (hvalid : kernel.check = .ok ())

include hbuilt hvalid

/-- A value that is both a reference and a pointer comes from one parameter. -/
theorem paramOf_of_references (h : (ofKernel kernel).references[id]? = some root) :
    (ofKernel kernel).paramOf id = some root := by
  have hroot : ∀ source, (ofKernel kernel).pointers[id]? = some source → source.root = root := by
    intro source hsource
    rcases List.mem_append.mp (mem_order_of_references h) with hparam | hscheduled
    · -- a pointer parameter comes from itself
      obtain ⟨param, hmem, rfl⟩ := List.mem_map.mp hparam
      rw [references_param hbuilt hmem hvalid, seedRoot?_eq_some_iff] at h
      rw [pointers_param hbuilt hmem hvalid, seedSource?_eq_some_iff] at hsource
      rw [hsource.2.2, h.2.2]
    · -- a result is a reference if it is a struct, and then it is not a pointer
      obtain ⟨op, hmem, rfl⟩ := List.mem_map.mp hscheduled
      rw [references_ofKernel hvalid hmem, referenceOf?_eq_some_iff] at h
      rw [pointers_ofKernel hvalid hmem, sourceOf?_eq_some_iff] at hsource
      obtain ⟨field, base, hkind, -, hstruct, -⟩ := h
      rcases hsource with ⟨-, -, -, -, -, hpointer, -⟩ | ⟨-, hderives, -⟩
      · rw [Node.givesStruct_of_givesPointer hpointer] at hstruct
        cases hstruct
      · rw [hkind] at hderives
        cases hderives
  unfold paramOf
  cases hpointer : (ofKernel kernel).pointers[id]? with
  | none => exact h
  | some source => exact congrArg some (hroot source hpointer)

theorem reference_iff :
    (ofKernel kernel).hasReference id = true ∧ (ofKernel kernel).paramOf id = some root ↔
      (ofKernel kernel).references[id]? = some root := by
  rw [hasReference_iff]
  constructor
  · rintro ⟨⟨known, hknown⟩, hparam⟩
    rw [paramOf_of_references hbuilt hvalid hknown] at hparam
    exact hknown.trans hparam
  · exact fun h => ⟨⟨root, h⟩, paramOf_of_references hbuilt hvalid h⟩

variable {op : Operation} (hop : op ∈ kernel.operations)

include hop

theorem references_operation_iff :
    (ofKernel kernel).references[op.id]? = some root ↔
      ∃ field base, op.kind = .extract field ∧ op.base = some base ∧ op.givesStruct = true ∧
        (ofKernel kernel).references[base]? = some root := by
  rw [references_ofKernel hvalid hop, referenceOf?_eq_some_iff]
  simp only [reference_iff hbuilt hvalid]

theorem pointers_operation_iff :
    (ofKernel kernel).pointers[op.id]? = some source ↔
      (∃ field base root, op.kind = .extract field ∧ op.base = some base ∧
        op.givesPointer = true ∧ (ofKernel kernel).references[base]? = some root ∧
        source = ⟨root, op.id⟩) ∨
      (∃ base, op.kind.isDerivation = true ∧ op.base = some base ∧
        (ofKernel kernel).pointers[base]? = some source) := by
  rw [pointers_ofKernel hvalid hop, sourceOf?_eq_some_iff]
  simp only [reference_iff hbuilt hvalid]

end Results

/-! ## The least solution of the rules -/

section Least

variable (hbuilt : kernel.Built) (hvalid : kernel.check = .ok ())

include hbuilt hvalid

theorem aliasRules_ofKernel :
    AliasRules kernel (fun id root => (ofKernel kernel).references[id]? = some root)
      (fun id source => (ofKernel kernel).pointers[id]? = some source) where
  parameter := by
    intro param hparam hfilter htype
    rw [references_param hbuilt hparam hvalid, seedRoot?_eq_some_iff]
    exact ⟨hfilter, htype, rfl⟩
  pointerParameter := by
    intro param hparam hfilter htype
    rw [pointers_param hbuilt hparam hvalid, seedSource?_eq_some_iff]
    exact ⟨hfilter, htype, rfl⟩
  extractedStruct := by
    intro op hop field base root hkind hbase hstruct hrefers
    rw [references_operation_iff hbuilt hvalid hop]
    exact ⟨field, base, hkind, hbase, hstruct, hrefers⟩
  extractedPointer := by
    intro op hop field base root hkind hbase hpointer hrefers
    rw [pointers_operation_iff hbuilt hvalid hop]
    exact Or.inl ⟨field, base, root, hkind, hbase, hpointer, hrefers, rfl⟩
  derivedPointer := by
    intro op hop base source hkind hbase hpoints
    rw [pointers_operation_iff hbuilt hvalid hop]
    exact Or.inr ⟨base, hkind, hbase, hpoints⟩

/-- Whatever is tracked is demanded by the rules. -/
theorem ofKernel_le_of_aliasRules {refers : ValueId → ValueId → Prop}
    {points : ValueId → PointerSource → Prop} (hrules : AliasRules kernel refers points) :
    (∀ id root, (ofKernel kernel).references[id]? = some root → refers id root) ∧
      ∀ id source, (ofKernel kernel).pointers[id]? = some source → points id source := by
  -- along the schedule, the last rule that was applied applies to the other relations as well
  have hall : ∀ id ∈ kernel.order,
      (∀ root, (ofKernel kernel).references[id]? = some root → refers id root) ∧
        ∀ source, (ofKernel kernel).pointers[id]? = some source → points id source := by
    refine Kernel.order_induction hvalid ?_ ?_
    · intro param hparam
      constructor
      · intro root h
        rw [references_param hbuilt hparam hvalid, seedRoot?_eq_some_iff] at h
        obtain ⟨hfilter, htype, rfl⟩ := h
        exact hrules.parameter param hparam hfilter htype
      · intro source h
        rw [pointers_param hbuilt hparam hvalid, seedSource?_eq_some_iff] at h
        obtain ⟨hfilter, htype, rfl⟩ := h
        exact hrules.pointerParameter param hparam hfilter htype
    · intro op hop ih
      constructor
      · intro root h
        obtain ⟨field, base, hkind, hbase, hstruct, hrefers⟩ :=
          (references_operation_iff hbuilt hvalid hop).mp h
        have hmem := Node.mem_operands_of_base hbase
        exact hrules.extractedStruct op hop field base root hkind hbase hstruct
          ((ih base hmem).1 root hrefers)
      · intro source h
        rcases (pointers_operation_iff hbuilt hvalid hop).mp h with
          ⟨field, base, root, hkind, hbase, hpointer, hrefers, rfl⟩ | ⟨base, hkind, hbase, hpoints⟩
        · have hmem := Node.mem_operands_of_base hbase
          exact hrules.extractedPointer op hop field base root hkind hbase hpointer
            ((ih base hmem).1 root hrefers)
        · have hmem := Node.mem_operands_of_base hbase
          exact hrules.derivedPointer op hop base source hkind hbase
            ((ih base hmem).2 source hpoints)
  exact ⟨fun id root h => (hall id (mem_order_of_references h)).1 root h,
    fun id source h => (hall id (mem_order_of_pointers h)).2 source h⟩

/-! ## Where aliasing ends -/

/-- A result is tracked only if its base is. -/
theorem tracks_base {op : Operation} (hop : op ∈ kernel.operations) {base : ValueId}
    (hbase : op.base = some base) (h : (ofKernel kernel).tracks base = false) :
    (ofKernel kernel).tracks op.id = false := by
  rw [tracks_eq_false_iff] at h ⊢
  obtain ⟨hreferences, hpointers⟩ := h
  constructor
  · refine Option.eq_none_iff_forall_ne_some.mpr fun root hroot => ?_
    rw [references_operation_iff hbuilt hvalid hop, hbase] at hroot
    obtain ⟨-, base, -, hsame, -, hrefers⟩ := hroot
    cases hsame
    rw [hreferences] at hrefers
    cases hrefers
  · refine Option.eq_none_iff_forall_ne_some.mpr fun source hsource => ?_
    rw [pointers_operation_iff hbuilt hvalid hop, hbase] at hsource
    rcases hsource with ⟨-, base, root, -, hsame, -, hrefers, -⟩ | ⟨base, -, hsame, hpoints⟩
    · cases hsame
      rw [hreferences] at hrefers
      cases hrefers
    · cases hsame
      rw [hpointers] at hpoints
      cases hpoints

theorem tracks_eq_false_of_endsAliasing (h : kernel.EndsAliasing id) :
    (ofKernel kernel).tracks id = false := by
  rw [tracks_eq_false_iff]
  rcases h with ⟨param, hparam, rfl, hopaque⟩ | ⟨op, hop, rfl, hkind⟩
  · rw [references_param hbuilt hparam hvalid, pointers_param hbuilt hparam hvalid]
    unfold seedRoot? seedSource?
    rcases hopaque with hfilter | htype
    · rw [hfilter]
      exact ⟨rfl, rfl⟩
    · rw [htype]
      exact ⟨ite_self _, ite_self _⟩
  · -- no rule leads to such a result, since it has no base
    have hbase : op.base = none := by
      unfold Node.base
      rw [hkind]
      rfl
    rw [references_ofKernel hvalid hop, pointers_ofKernel hvalid hop]
    unfold referenceOf? sourceOf?
    rw [hbase]
    exact ⟨rfl, rfl⟩

/-- Nothing on the far side of such a value is tracked. -/
theorem tracks_eq_false_of_projectsTo {origin : ValueId} (hway : kernel.ProjectsTo id origin)
    (h : kernel.EndsAliasing origin) : (ofKernel kernel).tracks id = false := by
  induction hway using Relation.ReflTransGen.head_induction_on with
  | refl => exact tracks_eq_false_of_endsAliasing hbuilt hvalid h
  | head hstep _ ih =>
      obtain ⟨op, hop, hbase⟩ := hstep
      have hmem := Kernel.mem_operations_of_base hbuilt hop hbase
      rw [← Kernel.operation?_id hop]
      exact tracks_base hbuilt hvalid hmem hbase ih

end Least

end AliasSet

end BufferPromotion
