import BufferPromotion.Proofs.Alias.Rules

/-! # Telling a set about a kernel in any order

A set need not be told about the parameters and operations of a kernel once and in order. It never
holds anything that it will not hold in the end, whatever it is told about the kernel, and nothing
is ever taken back (`Within`). So after all parameters, and after all operations in program order
with anything in between, it holds what there is to know: the end is the same for all such feeds
(`Within.foldl_learn`). Together with the rules of aliasing this is `aliases_solve_rules`.
-/

set_option autoImplicit false

namespace BufferPromotion

/-! ## Maps that know less -/

namespace ValueMap

variable {α : Type} {known result bound : ValueMap α} {key id : ValueId} {new : Option α}

/-- Whatever a map knows, another one knows as well. -/
def Within (known bound : ValueMap α) : Prop :=
  ∀ (id : ValueId) (value : α), known[id]? = some value → bound[id]? = some value

theorem Gains.within_self (h : known.Gains key new result) : known.Within result := by
  intro id value hvalue
  by_cases hid : id = key
  · rw [hid] at hvalue ⊢
    rw [h.self, hvalue]
    rfl
  · rw [h.of_ne hid]
    exact hvalue

/-- A map stays within a bound if the bound knows what it gains. -/
theorem Gains.within (h : known.Gains key new result) (hknown : known.Within bound)
    (hnew : ∀ value, new = some value → bound[key]? = some value) : result.Within bound := by
  intro id value hvalue
  rcases h.eq_some hvalue with hold | ⟨rfl, hgain⟩
  · exact hknown id value hold
  · exact hnew value hgain

/-- A map that gains what the bound knows agrees with the bound there. -/
theorem Gains.eq_bound (h : known.Gains key new result) (hknown : known.Within bound)
    (hnew : new = bound[key]?) : result[key]? = bound[key]? := by
  rw [h.self, hnew]
  cases hold : known[key]? with
  | none => rfl
  | some value => exact (hknown key value hold).symm

theorem Within.eq_none (h : known.Within bound) (hbound : bound[id]? = none) :
    known[id]? = none := by
  refine Option.eq_none_iff_forall_ne_some.mpr fun value hvalue => ?_
  rw [h id value hvalue] at hbound
  cases hbound

/-- Between a map and its bound there is no room where the two agree. -/
theorem Within.eq_bound (hgrow : known.Within result) (hbound : result.Within bound)
    (h : known[id]? = bound[id]?) : result[id]? = bound[id]? := by
  cases hvalue : bound[id]? with
  | none => exact hbound.eq_none hvalue
  | some value => exact hgrow id value (h.trans hvalue)

end ValueMap

/-! ## Feeds -/

/-- What a set can be told about a kernel: to track some parameters, or to follow an operation. -/
inductive Notice where
  | register (params : List Parameter)
  | observe (op : Operation)
  deriving DecidableEq

namespace Notice

/-- A notice names parameters or a node of a kernel. -/
def IsAbout (kernel : Kernel) : Notice → Prop
  | register params => params ⊆ kernel.params
  | observe op => kernel.operation? op.id = some op

instance (kernel : Kernel) : (notice : Notice) → Decidable (notice.IsAbout kernel)
  | register params => inferInstanceAs (Decidable (params ⊆ kernel.params))
  | observe op => inferInstanceAs (Decidable (kernel.operation? op.id = some op))

end Notice

namespace AliasSet

/-- What a set becomes by a notice. -/
def learn (set : AliasSet) : Notice → AliasSet
  | .register params => set.seed params
  | .observe op => set.follow op

/-- Whatever a set holds, another one holds as well. -/
structure Within (set bound : AliasSet) : Prop where
  pointers : ValueMap.Within set.pointers bound.pointers
  references : ValueMap.Within set.references bound.references

variable {kernel : Kernel} {set bound : AliasSet} {id : ValueId}

theorem Within.refl : set.Within set := ⟨fun _ _ h => h, fun _ _ h => h⟩

theorem Within.trans {third : AliasSet} (h : set.Within bound) (h' : bound.Within third) :
    set.Within third :=
  ⟨fun id value hvalue => h'.pointers id value (h.pointers id value hvalue),
    fun id value hvalue => h'.references id value (h.references id value hvalue)⟩

theorem within_empty : empty.Within bound := by
  refine ⟨fun id value h => ?_, fun id value h => ?_⟩
  · rw [pointers_empty] at h
    cases h
  · rw [references_empty] at h
    cases h

theorem Within.sameAt {result : AliasSet} (hgrow : set.Within result) (hbound : result.Within bound)
    (h : SameAt set bound id) : SameAt result bound id :=
  ⟨hgrow.pointers.eq_bound hbound.pointers h.pointers,
    hgrow.references.eq_bound hbound.references h.references⟩

/-- Sets that say the same about every value are the same. -/
theorem ext_sameAt {first second : AliasSet} (h : ∀ id, SameAt first second id) :
    first = second := by
  have hreferences : first.references = second.references :=
    Std.ExtTreeMap.ext_getElem? fun id => (h id).references
  have hpointers : first.pointers = second.pointers :=
    Std.ExtTreeMap.ext_getElem? fun id => (h id).pointers
  cases first
  cases second
  simp only at hreferences hpointers
  rw [hreferences, hpointers]

/-! ## One notice -/

theorem within_follow (set : AliasSet) (op : Operation) : set.Within (set.follow op) :=
  ⟨(pointers_follow set op).within_self, (references_follow set op).within_self⟩

theorem within_seedParam (set : AliasSet) (param : Parameter) :
    set.Within (set.seedParam param) :=
  ⟨(pointers_seedParam set param).within_self, (references_seedParam set param).within_self⟩

/-- What every parameter and every operation of a feed keeps, the feed keeps. -/
theorem foldl_learn_induction {motive : AliasSet → Prop} {feed : List Notice} (hset : motive set)
    (hparam : ∀ params, Notice.register params ∈ feed → ∀ param ∈ params,
      ∀ known, motive known → motive (known.seedParam param))
    (hop : ∀ op, Notice.observe op ∈ feed → ∀ known, motive known → motive (known.follow op)) :
    motive (feed.foldl learn set) := by
  refine List.foldlRecOn feed learn hset fun known hknown notice hnotice => ?_
  cases notice with
  | register params =>
      refine List.foldlRecOn params AliasSet.seedParam hknown fun known hknown param hmem => ?_
      exact hparam params hnotice param hmem known hknown
  | observe op => exact hop op hnotice known hknown

/-- Nothing is ever taken back. -/
theorem within_foldl_learn (set : AliasSet) (feed : List Notice) :
    set.Within (feed.foldl learn set) := by
  refine foldl_learn_induction .refl ?_ ?_
  · exact fun params _ param _ known hknown => hknown.trans (within_seedParam known param)
  · exact fun op _ known hknown => hknown.trans (within_follow known op)

section Valid

variable (hbuilt : kernel.Built) (hvalid : kernel.check = .ok ())

include hbuilt hvalid

section Operations

variable {op : Operation} (hset : set.Within (ofKernel kernel))

include hset

theorem Within.hasReference_and_paramOf {root : ValueId}
    (h : set.hasReference id = true ∧ set.paramOf id = some root) :
    (ofKernel kernel).hasReference id = true ∧ (ofKernel kernel).paramOf id = some root := by
  obtain ⟨hreference, hroot⟩ := h
  obtain ⟨known, hknown⟩ := hasReference_iff.mp hreference
  have hfinal := hset.references id known hknown
  refine ⟨hasReference_iff.mpr ⟨known, hfinal⟩, ?_⟩
  -- a set that knows the value as a pointer takes the parameter from there
  unfold paramOf at hroot
  cases hpointer : set.pointers[id]? with
  | none =>
      rw [hpointer, hknown] at hroot
      cases hroot
      exact paramOf_of_references hbuilt hvalid hfinal
  | some source =>
      rw [hpointer] at hroot
      unfold paramOf
      rw [hset.pointers id source hpointer]
      exact hroot

/-- A set that holds nothing wrong learns nothing wrong from an operation. -/
theorem Within.follow (hop : kernel.operation? op.id = some op) :
    (set.follow op).Within (ofKernel kernel) where
  pointers := by
    refine (pointers_follow set op).within hset.pointers fun source hsource => ?_
    rcases sourceOf?_eq_some_iff.mp hsource with
      ⟨field, base, root, hkind, hbase, hpointer, hroot, rfl⟩ | ⟨base, hkind, hbase, hpoints⟩
    · rw [pointers_ofKernel hvalid (Kernel.mem_operations_of_base hbuilt hop hbase)]
      refine sourceOf?_eq_some_iff.mpr (Or.inl ⟨field, base, root, hkind, hbase, hpointer, ?_, rfl⟩)
      exact Within.hasReference_and_paramOf hbuilt hvalid hset hroot
    · rw [pointers_ofKernel hvalid (Kernel.mem_operations_of_base hbuilt hop hbase)]
      refine sourceOf?_eq_some_iff.mpr (Or.inr ⟨base, hkind, hbase, ?_⟩)
      exact hset.pointers base source hpoints
  references := by
    refine (references_follow set op).within hset.references fun root hroot => ?_
    obtain ⟨field, base, hkind, hbase, hstruct, hbaseRoot⟩ := referenceOf?_eq_some_iff.mp hroot
    rw [references_ofKernel hvalid (Kernel.mem_operations_of_base hbuilt hop hbase)]
    refine referenceOf?_eq_some_iff.mpr ⟨field, base, hkind, hbase, hstruct, ?_⟩
    exact Within.hasReference_and_paramOf hbuilt hvalid hset hbaseRoot

omit hbuilt in
/-- A set that knows all about the base of an operation learns all about its result. -/
theorem Within.sameAt_follow (hop : op ∈ kernel.operations)
    (hbase : ∀ base, op.base = some base → SameAt set (ofKernel kernel) base) :
    SameAt (set.follow op) (ofKernel kernel) op.id where
  pointers := by
    refine (pointers_follow set op).eq_bound hset.pointers ?_
    rw [pointers_ofKernel hvalid hop, SameAt.sourceOf? hbase]
  references := by
    refine (references_follow set op).eq_bound hset.references ?_
    rw [references_ofKernel hvalid hop, SameAt.referenceOf? hbase]

end Operations

section Parameters

variable {param : Parameter} (hparam : param ∈ kernel.params) (hset : set.Within (ofKernel kernel))

include hparam hset

theorem Within.seedParam : (set.seedParam param).Within (ofKernel kernel) where
  pointers := by
    refine (pointers_seedParam set param).within hset.pointers fun source hsource => ?_
    rw [pointers_param hbuilt hparam hvalid, hsource]
  references := by
    refine (references_seedParam set param).within hset.references fun root hroot => ?_
    rw [references_param hbuilt hparam hvalid, hroot]

/-- A set learns all about a parameter that it is told to track. -/
theorem Within.sameAt_seedParam : SameAt (set.seedParam param) (ofKernel kernel) param.id where
  pointers := (pointers_seedParam set param).eq_bound hset.pointers
    (pointers_param hbuilt hparam hvalid).symm
  references := (references_seedParam set param).eq_bound hset.references
    (references_param hbuilt hparam hvalid).symm

end Parameters

/-! ## Whole feeds -/

/-- Notices about a kernel add nothing wrong. -/
theorem Within.learned {feed : List Notice} (habout : ∀ notice ∈ feed, notice.IsAbout kernel)
    (hset : set.Within (ofKernel kernel)) :
    (feed.foldl learn set).Within (ofKernel kernel) := by
  refine foldl_learn_induction (motive := (·.Within (ofKernel kernel))) hset ?_ ?_
  · intro params hmem param hparam known hknown
    exact Within.seedParam hbuilt hvalid (habout (.register params) hmem hparam) hknown
  · intro op hmem known hknown
    exact Within.follow hbuilt hvalid hknown (habout (.observe op) hmem)

/-- A feed that still contains the rest of the schedule leads to all that there is to know. -/
theorem Within.foldl_learn {feed : List Notice} {before rest : List Operation}
    (hops : kernel.operations = before ++ rest)
    (hrest : (rest.map Notice.observe).Sublist feed)
    (habout : ∀ notice ∈ feed, notice.IsAbout kernel) (hset : set.Within (ofKernel kernel))
    (hknown : ∀ id ∈ kernel.params.map (·.id) ++ before.map (·.id),
      SameAt set (ofKernel kernel) id) :
    feed.foldl AliasSet.learn set = ofKernel kernel := by
  induction feed generalizing set before rest with
  | nil =>
      rw [List.sublist_nil, List.map_eq_nil_iff] at hrest
      rw [hrest, List.append_nil] at hops
      refine ext_sameAt fun id => ?_
      by_cases hid : id ∈ kernel.order
      · unfold Kernel.order at hid
        rw [hops] at hid
        exact hknown id hid
      · -- a value that the kernel does not define is tracked by neither of the sets
        have hnone := sameAt_empty hid
        have hpointers := hnone.pointers.trans pointers_empty
        have hreferences := hnone.references.trans references_empty
        exact ⟨(hset.pointers.eq_none hpointers).trans hpointers.symm,
          (hset.references.eq_none hreferences).trans hreferences.symm⟩
  | cons notice feed ih =>
      have hnotice := habout notice List.mem_cons_self
      have hlater := fun later hlater => habout later (List.mem_cons_of_mem notice hlater)
      have hgrow := within_foldl_learn set [notice]
      have hbound := Within.learned hbuilt hvalid (List.forall_mem_singleton.mpr hnotice) hset
      have hkept : ∀ id ∈ kernel.params.map (·.id) ++ before.map (·.id),
          SameAt (set.learn notice) (ofKernel kernel) id :=
        fun id hid => hgrow.sameAt hbound (hknown id hid)
      rcases List.sublist_cons_iff.mp hrest with hskip | ⟨tail, htail, hnext⟩
      · -- a notice in between changes nothing that is known
        exact ih hops hskip hlater hbound hkept
      · -- the next operation of the schedule finds its base known
        obtain ⟨op, rest, rfl, rfl, rfl⟩ := List.map_eq_cons_iff.mp htail
        have hmem : op ∈ kernel.operations := by
          rw [hops]
          exact List.mem_append_right _ List.mem_cons_self
        have hfits := Kernel.check_eq_ok_iff.mp hvalid before op rest hops
        have hresult : SameAt (set.follow op) (ofKernel kernel) op.id := by
          refine Within.sameAt_follow hvalid hset hmem fun base hbase => hknown base ?_
          exact List.mem_append.mpr (hfits.defined base (Node.mem_operands_of_base hbase))
        have hsplit : kernel.operations = (before ++ [op]) ++ rest := by
          rw [hops, List.append_assoc]
          rfl
        refine ih hsplit hnext hlater hbound fun id hid => ?_
        rw [List.map_append, ← List.append_assoc] at hid
        rcases List.mem_append.mp hid with hold | hnew
        · exact hkept id hold
        · rw [List.mem_singleton.mp hnew]
          exact hresult

/-- A set that has been told about a parameter knows all about it. -/
theorem Within.sameAt_of_registered {front : List Notice} {params : List Parameter}
    {param : Parameter} (habout : ∀ notice ∈ front, notice.IsAbout kernel)
    (hset : set.Within (ofKernel kernel)) (hmem : Notice.register params ∈ front)
    (hparam : param ∈ params) :
    SameAt (front.foldl learn set) (ofKernel kernel) param.id := by
  have hbound := Within.learned hbuilt hvalid habout hset
  have hmine : param ∈ kernel.params := habout (.register params) hmem hparam
  obtain ⟨before, after, rfl⟩ := List.append_of_mem hmem
  obtain ⟨first, last, rfl⟩ := List.append_of_mem hparam
  -- the notice falls into the parameters before this one, this one, and those after it
  have hsplit : (before ++ .register (first ++ param :: last) :: after).foldl learn set =
      (.register last :: after).foldl learn
        (((before ++ [Notice.register first]).foldl learn set).seedParam param) := by
    simp only [List.foldl_append, List.foldl_cons, List.foldl_nil, learn, seed]
  have hearly : ∀ notice ∈ before ++ [Notice.register first], notice.IsAbout kernel := by
    intro notice hnotice
    rcases List.mem_append.mp hnotice with hbefore | hlast
    · exact habout notice (List.mem_append_left _ hbefore)
    · rw [List.mem_singleton.mp hlast]
      exact fun other hother => habout _ hmem (List.mem_append_left _ hother)
  rw [hsplit] at hbound ⊢
  refine (within_foldl_learn _ _).sameAt hbound ?_
  exact Within.sameAt_seedParam hbuilt hvalid hmine (Within.learned hbuilt hvalid hearly hset)

end Valid

end AliasSet

/-- **The aliases of a kernel are the least solution of the rules.** The set of a valid kernel
follows the rules of aliasing and holds nothing else: every two relations that follow the rules
contain it. So nothing is tracked or promoted that is projected out of a filter, a parameter of
unknown type or the result of a load or an unknown operation. A new set that is told about all
parameters, and then observes the schedule with any further notices about the kernel before and in
between, becomes the same set. -/
theorem aliases_solve_rules {kernel : Kernel} (hbuilt : kernel.Built)
    (hvalid : kernel.check = .ok ()) :
    let aliases := (Analysis.ofKernel kernel).aliases
    AliasRules kernel (fun id root => aliases.references[id]? = some root)
      (fun id source => aliases.pointers[id]? = some source) ∧
    (∀ refers points, AliasRules kernel refers points →
      (∀ id root, aliases.references[id]? = some root → refers id root) ∧
        ∀ id source, aliases.pointers[id]? = some source → points id source) ∧
    (∀ id origin, kernel.ProjectsTo id origin → kernel.EndsAliasing origin →
      aliases.tracks id = false ∧ id ∉ (Analysis.ofKernel kernel).promotion.promoted) ∧
    ∀ front feed : List Notice, (∀ notice ∈ front ++ feed, notice.IsAbout kernel) →
      (∀ param ∈ kernel.params, ∃ params, Notice.register params ∈ front ∧ param ∈ params) →
      (kernel.operations.map Notice.observe).Sublist feed →
      (front ++ feed).foldl AliasSet.learn .empty = aliases := by
  intro aliases
  refine ⟨AliasSet.aliasRules_ofKernel hbuilt hvalid, ?_, ?_, ?_⟩
  · intro refers points hrules
    exact AliasSet.ofKernel_le_of_aliasRules hbuilt hvalid hrules
  · intro id origin hway hend
    have huntracked : aliases.tracks id = false :=
      AliasSet.tracks_eq_false_of_projectsTo hbuilt hvalid hway hend
    refine ⟨huntracked, fun hpromoted => ?_⟩
    -- only tracked pointers are promoted
    obtain ⟨-, hpointer, -⟩ := Promotion.mem_promoted_ofOperations.mp hpromoted
    obtain ⟨source, hsource⟩ := AliasSet.hasPointer_iff.mp hpointer
    have hnone : aliases.pointers[id]? = none := (AliasSet.tracks_eq_false_iff.mp huntracked).2
    rw [show aliases.pointers[id]? = some source from hsource] at hnone
    cases hnone
  · intro front feed habout hregistered hschedule
    have hfront := fun notice hnotice => habout notice (List.mem_append_left feed hnotice)
    have hfeed := fun notice hnotice => habout notice (List.mem_append_right front hnotice)
    have hbound := AliasSet.Within.learned hbuilt hvalid hfront AliasSet.within_empty
    rw [List.foldl_append]
    refine AliasSet.Within.foldl_learn hbuilt hvalid (List.nil_append _).symm hschedule hfeed
      hbound fun id hid => ?_
    rw [List.map_nil, List.append_nil] at hid
    obtain ⟨param, hparam, rfl⟩ := List.mem_map.mp hid
    obtain ⟨params, hmem, hparams⟩ := hregistered param hparam
    exact AliasSet.Within.sameAt_of_registered hbuilt hvalid hfront AliasSet.within_empty hmem
      hparams

/-- A site that is observed before its base, a parameter that is registered twice, and a site in
a filter. -/
theorem early_notices_add_nothing :
    let kernel := (((((((((Kernel.empty "k").addParameter "img" (some (.struct "Image")) false
      ).addParameter "mask" (some .pointer) true).addParameter "x" (some .scalar) false).append
        (.extractOf 0 "data" .pointer)).append (.addressOf 3 [2, 2])).append (.loadOf 4)).append
          (.addressOf 1 [2])).append (.loadOf 6))
    let aliases := (Analysis.ofKernel kernel).aliases
    let front : List Notice := [.observe ⟨.addressOf 3 [2, 2], 4⟩, .register kernel.params]
    let feed : List Notice := [.observe ⟨.addressOf 3 [2, 2], 4⟩,
      .observe ⟨.extractOf 0 "data" .pointer, 3⟩, .observe ⟨.extractOf 0 "data" .pointer, 3⟩,
      .register [⟨0, "img", some (.struct "Image"), false⟩],
      .observe ⟨.addressOf 3 [2, 2], 4⟩, .observe ⟨.loadOf 4, 5⟩,
      .observe ⟨.extractOf 0 "data" .pointer, 3⟩, .observe ⟨.addressOf 1 [2], 6⟩,
      .observe ⟨.loadOf 6, 7⟩]
    kernel.Built ∧ kernel.check = .ok () ∧ kernel.ProjectsTo 6 1 ∧ kernel.EndsAliasing 1 ∧
      aliases.tracks 6 = false ∧ (∀ notice ∈ front ++ feed, notice.IsAbout kernel) ∧
      (∀ param ∈ kernel.params, ∃ params, Notice.register params ∈ front ∧ param ∈ params) ∧
      (kernel.operations.map Notice.observe).Sublist feed ∧
      (front ++ feed).foldl AliasSet.learn .empty = aliases := by
  intro kernel aliases front feed
  have hbuilt : kernel.Built :=
    .append (.append (.append (.append (.append (.addParameter (.addParameter (.addParameter
      (.empty "k") ..) ..) ..) _) _) _) _) _
  have hvalid : kernel.check = .ok () := by decide +kernel
  obtain ⟨-, -, hends, hfeeds⟩ := aliases_solve_rules hbuilt hvalid
  have hway : kernel.ProjectsTo 6 1 := .single ⟨⟨.addressOf 1 [2], 6⟩, rfl, rfl⟩
  have hend : kernel.EndsAliasing 1 :=
    Or.inl ⟨⟨1, "mask", some .pointer, true⟩, by decide, rfl, Or.inl rfl⟩
  have habout : ∀ notice ∈ front ++ feed, notice.IsAbout kernel := by decide
  have hregistered : ∀ param ∈ kernel.params,
      ∃ params, Notice.register params ∈ front ∧ param ∈ params :=
    fun param hparam => ⟨kernel.params, by decide, hparam⟩
  have hschedule : (kernel.operations.map Notice.observe).Sublist feed := by decide
  exact ⟨hbuilt, hvalid, hway, hend, (hends 6 1 hway hend).1, habout, hregistered, hschedule,
    hfeeds front feed habout hregistered hschedule⟩

end BufferPromotion
