import BufferPromotion.Alias.References
import BufferPromotion.Proofs.Kernel.Chain

/-! # What is tracked in the end

Following the operations changes the set at one value per operation, the result of the operation:
what a step adds is `sourceOf?` and `referenceOf?`, and a map only gains (`ValueMap.Gains`). In a
valid kernel a result is new and an operand is old, so what the set says in the end about a
result is what it says in the end about the base (`pointers_ofKernel`). A tracked pointer leads
back to the start of its buffer.
-/

set_option autoImplicit false

namespace BufferPromotion

/-! ## Maps that only gain -/

namespace ValueMap

variable {α : Type} {known result : ValueMap α} {key id : ValueId}

/-- A map after one more fact: what was known before stays, and the fact holds only if nothing
was known about its value. -/
def Gains (known : ValueMap α) (key : ValueId) (new : Option α) (result : ValueMap α) : Prop :=
  ∀ id, result[id]? = if id = key then known[id]?.or new else known[id]?

theorem gains_none : known.Gains key none known := by
  intro id
  rw [Option.or_none, ite_self]

theorem gains_insertIfNew {value : α} :
    known.Gains key (some value) (known.insertIfNew key value) := by
  intro id
  rw [Std.ExtTreeMap.getElem?_insertIfNew]
  simp only [Std.LawfulEqCmp.compare_eq_iff_eq]
  by_cases hid : key = id
  · subst hid
    rw [if_pos rfl]
    by_cases hmem : key ∈ known
    · obtain ⟨old, hold⟩ := Option.isSome_iff_exists.mp
        (Std.ExtTreeMap.mem_iff_isSome_getElem?.mp hmem)
      rw [if_neg (fun h => h.2 hmem), hold]
      rfl
    · rw [if_pos ⟨rfl, hmem⟩, Std.ExtTreeMap.getElem?_eq_none hmem]
      rfl
  · rw [if_neg fun h => hid h.1, if_neg (Ne.symm hid)]

theorem Gains.of_ne {new : Option α} (h : known.Gains key new result) (hid : id ≠ key) :
    result[id]? = known[id]? := by
  rw [h id, if_neg hid]

theorem Gains.self {new : Option α} (h : known.Gains key new result) :
    result[key]? = known[key]?.or new := by
  rw [h key, if_pos rfl]

/-- Whatever a map knows, it knew before or has just gained. -/
theorem Gains.eq_some {new : Option α} {value : α} (h : known.Gains key new result)
    (hvalue : result[id]? = some value) :
    known[id]? = some value ∨ id = key ∧ new = some value := by
  rw [h id] at hvalue
  split at hvalue
  · next hid =>
    rcases Option.or_eq_some_iff.mp hvalue with hold | ⟨-, hnew⟩
    · exact Or.inl hold
    · exact Or.inr ⟨hid, hnew⟩
  · exact Or.inl hvalue

/-- Two maps that gain the same fact about a value and its number stay in step. -/
theorem Gains.map {number : ValueId → ValueId} {f : α → α} {image result' : ValueMap α}
    {new : Option α} (h : known.Gains key new result)
    (hid : number id = number key ↔ id = key) (hold : image[number id]? = known[id]?.map f)
    (h' : image.Gains (number key) (new.map f) result') :
    result'[number id]? = result[id]?.map f := by
  by_cases hsame : id = key
  · rw [hsame] at hold ⊢
    rw [h.self, h'.self, hold, Option.map_or]
  · rw [h.of_ne hsame, h'.of_ne (mt hid.mp hsame), hold]

end ValueMap

theorem Node.givesStruct_of_givesPointer {node : Node} (h : node.givesPointer = true) :
    node.givesStruct = false := by
  unfold Node.givesStruct
  rw [Node.givesPointer_iff.mp h]
  rfl

/-- A place with other numbers. -/
def PointerSource.renumber (number : ValueId → ValueId) (source : PointerSource) : PointerSource :=
  ⟨number source.root, number source.buffer⟩

namespace AliasSet

/-! ## Following one operation -/

/-- Where the result of an operation points, if it is a pointer into a tracked buffer. -/
def sourceOf? (set : AliasSet) (op : Operation) : Option PointerSource :=
  match op.base, op.kind with
  | some base, .extract _ =>
      match set.hasReference base, set.paramOf base with
      | true, some root =>
          if op.givesStruct then none else if op.givesPointer then some ⟨root, op.id⟩ else none
      | _, _ => none
  | some base, .reinterpret | some base, .address => set.pointers[base]?
  | _, _ => none

/-- The parameter that the result of an operation refers to, if it is a tracked struct. -/
def referenceOf? (set : AliasSet) (op : Operation) : Option ValueId :=
  match op.base, op.kind with
  | some base, .extract _ =>
      match set.hasReference base, set.paramOf base with
      | true, some root => if op.givesStruct then some root else none
      | _, _ => none
  | _, _ => none

/-- Two sets say the same about a value. -/
structure SameAt (first second : AliasSet) (id : ValueId) : Prop where
  pointers : first.pointers[id]? = second.pointers[id]?
  references : first.references[id]? = second.references[id]?

theorem pointers_empty {id : ValueId} : empty.pointers[id]? = none :=
  Std.ExtTreeMap.getElem?_empty

theorem references_empty {id : ValueId} : empty.references[id]? = none :=
  Std.ExtTreeMap.getElem?_empty

theorem pointers_follow (set : AliasSet) (op : Operation) :
    set.pointers.Gains op.id (set.sourceOf? op) (set.follow op).pointers := by
  -- the cases are those of `follow`: the map stays, or it gains at the result
  unfold follow sourceOf?
  cases op.base with
  | none => exact ValueMap.gains_none
  | some base =>
      cases op.kind with
      | extract field =>
          dsimp only
          unfold followExtract
          cases set.hasReference base with
          | false => exact ValueMap.gains_none
          | true =>
              cases set.paramOf base with
              | none => exact ValueMap.gains_none
              | some root =>
                  dsimp only
                  cases op.givesStruct with
                  | true => exact ValueMap.gains_none
                  | false =>
                      cases op.givesPointer with
                      | true => exact ValueMap.gains_insertIfNew
                      | false => exact ValueMap.gains_none
      | reinterpret | address =>
          dsimp only
          unfold followDerivation
          cases set.pointers[base]? with
          | none => exact ValueMap.gains_none
          | some source => exact ValueMap.gains_insertIfNew
      | param | load | store | other name => exact ValueMap.gains_none

theorem references_follow (set : AliasSet) (op : Operation) :
    set.references.Gains op.id (set.referenceOf? op) (set.follow op).references := by
  unfold follow referenceOf?
  cases op.base with
  | none => exact ValueMap.gains_none
  | some base =>
      cases op.kind with
      | extract field =>
          dsimp only
          unfold followExtract
          cases set.hasReference base with
          | false => exact ValueMap.gains_none
          | true =>
              cases set.paramOf base with
              | none => exact ValueMap.gains_none
              | some root =>
                  dsimp only
                  cases op.givesStruct with
                  | true => exact ValueMap.gains_insertIfNew
                  | false => cases op.givesPointer <;> exact ValueMap.gains_none
      | reinterpret | address =>
          -- a derived value is a pointer, and pointers are kept apart from references
          dsimp only
          unfold followDerivation
          cases set.pointers[base]? <;> exact ValueMap.gains_none
      | param | load | store | other name => exact ValueMap.gains_none

/-! ## Sets in step -/

section Step

variable {number : ValueId → ValueId} {set image : AliasSet} {id : ValueId}

/-- A set says about the number of a value what another set says about the value. -/
structure ImageAt (number : ValueId → ValueId) (set image : AliasSet) (id : ValueId) : Prop where
  pointers : image.pointers[number id]? = set.pointers[id]?.map (PointerSource.renumber number)
  references : image.references[number id]? = set.references[id]?.map number

theorem ImageAt.hasReference (h : ImageAt number set image id) :
    image.hasReference (number id) = set.hasReference id := by
  unfold AliasSet.hasReference
  rw [Std.ExtTreeMap.contains_eq_isSome_getElem?, Std.ExtTreeMap.contains_eq_isSome_getElem?,
    h.references, Option.isSome_map]

theorem ImageAt.hasPointer (h : ImageAt number set image id) :
    image.hasPointer (number id) = set.hasPointer id := by
  unfold AliasSet.hasPointer
  rw [Std.ExtTreeMap.contains_eq_isSome_getElem?, Std.ExtTreeMap.contains_eq_isSome_getElem?,
    h.pointers, Option.isSome_map]

theorem ImageAt.paramOf (h : ImageAt number set image id) :
    image.paramOf (number id) = (set.paramOf id).map number := by
  unfold AliasSet.paramOf
  rw [h.pointers, h.references]
  cases set.pointers[id]? <;> rfl

section Operations

variable {op : Operation} (h : ∀ base, op.base = some base → ImageAt number set image base)

include h

/-- What the result of an operation gets depends on what is known about its base. -/
theorem ImageAt.sourceOf? :
    image.sourceOf? (op.renumber number) =
      (set.sourceOf? op).map (PointerSource.renumber number) := by
  unfold AliasSet.sourceOf?
  rw [Operation.base_renumber]
  cases hbase : op.base with
  | none => rfl
  | some base =>
      have himage := h base hbase
      show (match some (number base), op.kind with
        | some base, .extract _ => _
        | some base, .reinterpret | some base, .address => _
        | _, _ => _) = _
      cases hkind : op.kind with
      | extract field =>
          dsimp only
          rw [himage.hasReference, himage.paramOf]
          cases set.hasReference base with
          | false => rfl
          | true =>
              cases set.paramOf base with
              | none => rfl
              | some root =>
                  show (if op.givesStruct then none
                    else if op.givesPointer then some _ else none) = _
                  dsimp only
                  cases op.givesStruct with
                  | true => rfl
                  | false => cases op.givesPointer <;> rfl
      | reinterpret | address => exact himage.pointers
      | param | load | store | other name => rfl

theorem ImageAt.referenceOf? :
    image.referenceOf? (op.renumber number) = (set.referenceOf? op).map number := by
  unfold AliasSet.referenceOf?
  rw [Operation.base_renumber]
  cases hbase : op.base with
  | none => rfl
  | some base =>
      have himage := h base hbase
      show (match some (number base), op.kind with
        | some base, .extract _ => _
        | _, _ => _) = _
      cases hkind : op.kind with
      | extract field =>
          dsimp only
          rw [himage.hasReference, himage.paramOf]
          cases set.hasReference base with
          | false => rfl
          | true =>
              cases set.paramOf base with
              | none => rfl
              | some root =>
                  show (if op.givesStruct then some _ else none) = _
                  dsimp only
                  cases op.givesStruct <;> rfl
      | reinterpret | address | param | load | store | other name => rfl

/-- Following an operation keeps two sets in step. -/
theorem ImageAt.follow (hid : number id = number op.id ↔ id = op.id)
    (hold : ImageAt number set image id) :
    ImageAt number (set.follow op) (image.follow (op.renumber number)) id where
  pointers := by
    refine (pointers_follow set op).map hid hold.pointers ?_
    rw [← ImageAt.sourceOf? h]
    exact pointers_follow image (op.renumber number)
  references := by
    refine (references_follow set op).map hid hold.references ?_
    rw [← ImageAt.referenceOf? h]
    exact references_follow image (op.renumber number)

end Operations

end Step

/-! ## Following all operations -/

theorem SameAt.refl {set : AliasSet} {id : ValueId} : SameAt set set id := ⟨rfl, rfl⟩

theorem SameAt.trans {first second third : AliasSet} {id : ValueId} (h : SameAt first second id)
    (h' : SameAt second third id) : SameAt first third id :=
  ⟨h.pointers.trans h'.pointers, h.references.trans h'.references⟩

/-- Two sets that say the same are in step with every value keeping its number. -/
theorem SameAt.imageAt {first second : AliasSet} {id : ValueId} (h : SameAt first second id) :
    ImageAt (fun id => id) second first id :=
  ⟨h.pointers.trans Option.map_id'.symm, h.references.trans Option.map_id'.symm⟩

section Bases

variable {first second : AliasSet} {op : Operation}
  (h : ∀ base, op.base = some base → SameAt first second base)

include h

/-- Sets that say the same about a base say the same about what is derived from it. -/
theorem SameAt.sourceOf? : first.sourceOf? op = second.sourceOf? op := by
  have himage := ImageAt.sourceOf? fun base hbase => (h base hbase).imageAt
  rw [Operation.renumber_self] at himage
  exact himage.trans Option.map_id'

theorem SameAt.referenceOf? : first.referenceOf? op = second.referenceOf? op := by
  have himage := ImageAt.referenceOf? fun base hbase => (h base hbase).imageAt
  rw [Operation.renumber_self] at himage
  exact himage.trans Option.map_id'

end Bases

theorem sameAt_follow {set : AliasSet} {op : Operation} {id : ValueId} (h : id ≠ op.id) :
    SameAt (set.follow op) set id :=
  ⟨(pointers_follow set op).of_ne h, (references_follow set op).of_ne h⟩

/-- Operations say nothing about values that are not their results. -/
theorem sameAt_foldl_follow {ops : List Operation} {set : AliasSet} {id : ValueId}
    (h : id ∉ ops.map (·.id)) : SameAt (ops.foldl follow set) set id := by
  induction ops generalizing set with
  | nil => exact .refl
  | cons op ops ih =>
      rw [List.map_cons, List.mem_cons, not_or] at h
      exact (ih h.2).trans (sameAt_follow h.1)

/-! ## The seed -/

/-- Where a parameter points, if it is a pointer that is tracked. -/
def seedSource? (param : Parameter) : Option PointerSource :=
  if param.isFilter then none
  else match param.type with
    | some .pointer => some ⟨param.id, param.id⟩
    | _ => none

/-- The parameter that a parameter refers to: itself, if it is tracked. -/
def seedRoot? (param : Parameter) : Option ValueId :=
  if param.isFilter then none else param.type.map fun _ => param.id

theorem pointers_seedParam (set : AliasSet) (param : Parameter) :
    set.pointers.Gains param.id (seedSource? param) (set.seedParam param).pointers := by
  unfold seedParam seedSource?
  cases param.isFilter with
  | true => exact ValueMap.gains_none
  | false =>
      cases param.type with
      | none => exact ValueMap.gains_none
      | some type =>
          cases type with
          | pointer => exact ValueMap.gains_insertIfNew
          | scalar | struct name => exact ValueMap.gains_none

theorem references_seedParam (set : AliasSet) (param : Parameter) :
    set.references.Gains param.id (seedRoot? param) (set.seedParam param).references := by
  unfold seedParam seedRoot?
  cases param.isFilter with
  | true => exact ValueMap.gains_none
  | false =>
      cases param.type with
      | none => exact ValueMap.gains_none
      | some type => cases type <;> exact ValueMap.gains_insertIfNew

theorem seedSource?_eq_some_iff {param : Parameter} {source : PointerSource} :
    seedSource? param = some source ↔
      param.isFilter = false ∧ param.type = some .pointer ∧ source = ⟨param.id, param.id⟩ := by
  unfold seedSource?
  cases param.isFilter with
  | true => simp
  | false =>
      cases param.type with
      | none => simp
      | some type => cases type <;> simp [eq_comm]

theorem seedRoot?_eq_some_iff {param : Parameter} {root : ValueId} :
    seedRoot? param = some root ↔
      param.isFilter = false ∧ param.type.isSome = true ∧ root = param.id := by
  unfold seedRoot?
  cases param.isFilter with
  | true => simp
  | false => cases param.type <;> simp [eq_comm]

theorem sameAt_seed {params : List Parameter} {set : AliasSet} {id : ValueId}
    (h : id ∉ params.map (·.id)) : SameAt (set.seed params) set id := by
  induction params generalizing set with
  | nil => exact .refl
  | cons param params ih =>
      rw [List.map_cons, List.mem_cons, not_or] at h
      have hfirst : SameAt (set.seedParam param) set id :=
        ⟨(pointers_seedParam set param).of_ne h.1, (references_seedParam set param).of_ne h.1⟩
      exact (ih h.2).trans hfirst

/-- What every parameter and every operation of a kernel keeps holds of the set of the kernel. -/
theorem ofKernel_induction {kernel : Kernel} {motive : AliasSet → Prop} (nothing : motive empty)
    (parameter : ∀ param ∈ kernel.params, ∀ set, motive set → motive (set.seedParam param))
    (result : ∀ op ∈ kernel.operations, ∀ set, motive set → motive (set.follow op)) :
    motive (ofKernel kernel) := by
  have hseed : motive (empty.seed kernel.params) :=
    List.foldlRecOn kernel.params seedParam nothing fun set hset param hparam =>
      parameter param hparam set hset
  exact List.foldlRecOn kernel.operations follow hseed fun set hset op hop => result op hop set hset

/-! ## Pointers lead to their buffers -/

/-- A pointer result either starts a buffer or stays in that of its base. -/
theorem sourceOf?_eq_some_iff {set : AliasSet} {op : Operation} {source : PointerSource} :
    set.sourceOf? op = some source ↔
      (∃ field base root, op.kind = .extract field ∧ op.base = some base ∧
        op.givesPointer = true ∧ (set.hasReference base = true ∧ set.paramOf base = some root) ∧
        source = ⟨root, op.id⟩) ∨
      (∃ base, op.kind.isDerivation = true ∧ op.base = some base ∧
        set.pointers[base]? = some source) := by
  unfold sourceOf?
  cases op.base with
  | none => simp
  | some base =>
      cases op.kind with
      | extract field =>
          dsimp only
          cases hreference : set.hasReference base with
          | false => simp [NodeKind.isDerivation, hreference]
          | true =>
              cases hroot : set.paramOf base with
              | none => simp [NodeKind.isDerivation, hroot]
              | some root =>
                  -- a result is not both a pointer and a struct
                  cases hpointer : op.givesPointer with
                  | false => simp [NodeKind.isDerivation]
                  | true =>
                      simp [NodeKind.isDerivation, Node.givesStruct_of_givesPointer hpointer,
                        hreference, hroot, @eq_comm _ source]
      | reinterpret | address => simp [NodeKind.isDerivation]
      | param | load | store | other name => simp [NodeKind.isDerivation]

/-- A reference result is a struct extracted from a reference. -/
theorem referenceOf?_eq_some_iff {set : AliasSet} {op : Operation} {root : ValueId} :
    set.referenceOf? op = some root ↔
      ∃ field base, op.kind = .extract field ∧ op.base = some base ∧ op.givesStruct = true ∧
        set.hasReference base = true ∧ set.paramOf base = some root := by
  unfold referenceOf?
  cases op.base with
  | none => simp
  | some base =>
      cases op.kind with
      | extract field =>
          dsimp only
          cases hreference : set.hasReference base with
          | false => simp [hreference]
          | true => cases hroot : set.paramOf base <;> simp [hreference, hroot]
      | reinterpret | address | param | load | store | other name => simp

/-- Every tracked pointer leads back to the start of its buffer, a pointer parameter or an
extracted pointer. -/
def LeadBack (set : AliasSet) (kernel : Kernel) : Prop :=
  ∀ id source, set.pointers[id]? = some source → kernel.LeadsTo id source.buffer ∧
    ∃ start, kernel.operation? source.buffer = some start ∧
      (start.kind = .param ∨ ∃ field, start.kind = .extract field) ∧ start.givesPointer = true

theorem leadBack_empty {kernel : Kernel} : empty.LeadBack kernel := by
  intro id source h
  rw [pointers_empty] at h
  cases h

theorem leadBack_seedParam {kernel : Kernel} {set : AliasSet} {param : Parameter}
    (hbuilt : kernel.Built) (hset : set.LeadBack kernel) (hparam : param ∈ kernel.params) :
    (set.seedParam param).LeadBack kernel := by
  intro id source h
  rcases (pointers_seedParam set param).eq_some h with hold | ⟨rfl, hnew⟩
  · exact hset id source hold
  · -- a pointer parameter starts its own buffer
    obtain ⟨-, htype, rfl⟩ := seedSource?_eq_some_iff.mp hnew
    exact ⟨.refl, ⟨⟨.param, param.type, []⟩, param.id⟩, hbuilt.operation?_param hparam, Or.inl rfl,
      Node.givesPointer_iff.mpr htype⟩

theorem leadBack_follow {kernel : Kernel} {set : AliasSet} {op : Operation}
    (hset : set.LeadBack kernel) (hop : kernel.operation? op.id = some op) :
    (set.follow op).LeadBack kernel := by
  intro id source h
  rcases (pointers_follow set op).eq_some h with hold | ⟨rfl, hnew⟩
  · exact hset id source hold
  · rcases sourceOf?_eq_some_iff.mp hnew with
      ⟨field, base, root, hkind, -, hpointer, -, rfl⟩ | ⟨base, hkind, hbase, h⟩
    · -- an extracted pointer starts its own buffer
      exact ⟨.refl, op, hop, Or.inr ⟨field, hkind⟩, hpointer⟩
    · -- a derived pointer is one step away from its base
      obtain ⟨hleads, hstart⟩ := hset base source h
      have hstep : kernel.DerivedFrom op.id base :=
        Kernel.derivedFrom_iff.mpr ⟨op, hop, hkind, hbase⟩
      exact ⟨.head hstep hleads, hstart⟩

/-- The buffer of a tracked pointer is the one that its bases lead to. -/
theorem leadBack_ofKernel {kernel : Kernel} (hbuilt : kernel.Built) :
    (ofKernel kernel).LeadBack kernel := by
  refine ofKernel_induction (motive := (·.LeadBack kernel)) leadBack_empty ?_ ?_
  · exact fun param hparam set hset => leadBack_seedParam hbuilt hset hparam
  · exact fun op hop set hset => leadBack_follow hset (Kernel.operation?_of_mem hop)

/-! ## The set of a valid kernel -/

section Valid

variable {kernel : Kernel} (hvalid : kernel.check = .ok ())

include hvalid

/-- Once a value is defined, no later operation changes what is known about it. -/
theorem sameAt_ofKernel {before after : List Operation} {id : ValueId}
    (hops : kernel.operations = before ++ after)
    (hid : id ∈ kernel.params.map (·.id) ∨ id ∈ before.map (·.id)) :
    SameAt (ofKernel kernel) (before.foldl follow (empty.seed kernel.params)) id := by
  -- an operation that comes later is new, so it is not the one that defines the value
  have hlate : id ∉ after.map (·.id) := by
    intro hmem
    obtain ⟨later, hlater, rfl⟩ := List.mem_map.mp hmem
    obtain ⟨between, rest, hsplit⟩ := List.append_of_mem hlater
    have hfits := Kernel.check_eq_ok_iff.mp hvalid (before ++ between) later rest
      (by rw [hops, hsplit, List.append_assoc])
    rcases hid with hparam | hbefore
    · exact hfits.notParam hparam
    · exact hfits.notEarlier (by rw [List.map_append]; exact List.mem_append_left _ hbefore)
  unfold ofKernel
  rw [hops, List.foldl_append]
  exact sameAt_foldl_follow hlate

section Position

variable {before after : List Operation} {op : Operation}
  (hops : kernel.operations = before ++ op :: after)

include hops

/-- When an operation comes, nothing is known about its result. -/
theorem sameAt_empty_of_position :
    SameAt (before.foldl follow (empty.seed kernel.params)) empty op.id := by
  have hfits := Kernel.check_eq_ok_iff.mp hvalid before op after hops
  exact (sameAt_foldl_follow hfits.notEarlier).trans (sameAt_seed hfits.notParam)

/-- When an operation comes, all that will be known about its base is known. -/
theorem sameAt_base_of_position {base : ValueId} (hbase : op.base = some base) :
    SameAt (ofKernel kernel) (before.foldl follow (empty.seed kernel.params)) base := by
  have hfits := Kernel.check_eq_ok_iff.mp hvalid before op after hops
  exact sameAt_ofKernel hvalid hops (hfits.defined base (Node.mem_operands_of_base hbase))

/-- After an operation, all that will be known about its result is known. -/
theorem sameAt_result_of_position :
    SameAt (ofKernel kernel) ((before.foldl follow (empty.seed kernel.params)).follow op)
      op.id := by
  have hsplit : kernel.operations = (before ++ [op]) ++ after := by
    rw [hops, List.append_assoc]
    rfl
  have hdefined : op.id ∈ (before ++ [op]).map (·.id) :=
    List.mem_map_of_mem (List.mem_append_right _ (List.mem_singleton_self op))
  have h := sameAt_ofKernel hvalid hsplit (Or.inr hdefined)
  rw [List.foldl_append] at h
  exact h

end Position

/-- What is known in the end about the result of an operation follows from what is known in the
end about its base. -/
theorem pointers_ofKernel {op : Operation} (hop : op ∈ kernel.operations) :
    (ofKernel kernel).pointers[op.id]? = (ofKernel kernel).sourceOf? op := by
  obtain ⟨before, after, hops⟩ := List.append_of_mem hop
  rw [(sameAt_result_of_position hvalid hops).pointers, (pointers_follow _ op).self,
    (sameAt_empty_of_position hvalid hops).pointers, pointers_empty, Option.none_or,
    SameAt.sourceOf? fun base hbase => sameAt_base_of_position hvalid hops hbase]

/-- A derived pointer comes from where its base comes from. -/
theorem pointers_ofKernel_of_isDerivation {op : Operation} (hop : op ∈ kernel.operations)
    (hkind : op.kind.isDerivation = true) :
    (ofKernel kernel).pointers[op.id]? = op.base.bind ((ofKernel kernel).pointers[·]?) := by
  rw [pointers_ofKernel hvalid hop]
  unfold sourceOf?
  cases op.base with
  | none => rfl
  | some base =>
      cases h : op.kind with
      | reinterpret | address => rfl
      | param | extract field | load | store | other name =>
          rw [h] at hkind
          cases hkind

theorem references_ofKernel {op : Operation} (hop : op ∈ kernel.operations) :
    (ofKernel kernel).references[op.id]? = (ofKernel kernel).referenceOf? op := by
  obtain ⟨before, after, hops⟩ := List.append_of_mem hop
  rw [(sameAt_result_of_position hvalid hops).references, (references_follow _ op).self,
    (sameAt_empty_of_position hvalid hops).references, references_empty, Option.none_or,
    SameAt.referenceOf? fun base hbase => sameAt_base_of_position hvalid hops hbase]

end Valid

end AliasSet

end BufferPromotion
