import BufferPromotion.Proofs.Buffer.Image
import BufferPromotion.Proofs.Kernel.CutOff
import BufferPromotion.Proofs.Kernel.Fault

/-! # Kernels that grow

A kernel is built by adding parameters and operations in any order and by giving names. The operands
of an operation may be ids that no value has yet. The ids of the values are their numbers in the
order of creation (`Kernel.operation?_after`, `Kernel.Built.numbered`), and no step changes anything
that was there before (`Kernel.extends_after`). So a value whose way back along the bases exists has
the same way ever after, and with it the same parameter, buffer, path and image
(`Kernel.Extends.answersAlike`).
-/

set_option autoImplicit false

namespace BufferPromotion

/-- A step of building a kernel. The nodes of the operations, `Node.extractOf` and the like as well
as any others, may have any ids as operands. -/
inductive BuildStep where
  | parameter (name : String) (type : Option ValueType) (isFilter : Bool)
  | operation (node : Node)
  | name (id : ValueId) (name : String)
  deriving DecidableEq, Repr

/-- The node of the value that a step creates, if it creates one. -/
def BuildStep.created? : BuildStep → Option Node
  | parameter _ type _ => some ⟨.param, type, []⟩
  | operation node => some node
  | name _ _ => none

/-- The nodes that steps create, one after the other. -/
def BuildStep.created (steps : List BuildStep) : List Node := steps.filterMap created?

namespace Kernel

variable {kernel later : Kernel} {id : ValueId}

/-! ## Kernels that have grown -/

/-- What was there before is there later, as it was: every node, every descriptor of a parameter,
and the schedule in its order. What is new has a new id. -/
structure Extends (kernel later : Kernel) : Prop where
  operation : ∀ id op, kernel.operation? id = some op → later.operation? id = some op
  params : ∃ more, later.params = kernel.params ++ more ∧ ∀ param ∈ more, kernel.size ≤ param.id
  schedule : ∃ more, later.schedule = kernel.schedule ++ more ∧ ∀ id ∈ more, kernel.size ≤ id
  size : kernel.size ≤ later.size

/-- The bases of a value exist, however far they are followed, and so does the value. -/
def WayExists (kernel : Kernel) (id : ValueId) : Prop :=
  ∀ n here, follow kernel.base? n id = some here → here < kernel.size

theorem WayExists.lt_size (h : kernel.WayExists id) : id < kernel.size := h 0 id rfl

theorem WayExists.exists_operation (h : kernel.WayExists id) :
    ∃ op, kernel.operation? id = some op ∧ ∀ base, op.base = some base → kernel.WayExists base := by
  have hlt : id < kernel.nodes.size := h.lt_size
  have hnode : kernel.operation? id = some ⟨kernel.nodes[id], id⟩ := by
    unfold operation?
    rw [Array.getElem?_eq_getElem hlt]
    rfl
  refine ⟨_, hnode, fun base hbase n here hfollow => h (n + 1) here ?_⟩
  rw [follow, base?, hnode, Option.bind_some, hbase]
  exact hfollow

/-- If every base that a kernel mentions exists, so do all ways back. -/
theorem wayExists_of_bases (h : ∀ id < kernel.size, ∀ base ∈ kernel.base? id, base < kernel.size)
    (hid : id < kernel.size) : kernel.WayExists id := by
  intro n
  induction n generalizing id with
  | zero =>
      intro here hhere
      cases hhere
      exact hid
  | succ n ih =>
      intro here hhere
      obtain ⟨base, hbase, hrest⟩ := Option.bind_eq_some_iff.mp hhere
      exact ih (h id hid base hbase) here hrest

/-- The three walks from a value, and the image in its buffer, are later as they were before. A walk
that ended ends as soon, and one that did not end does not end later. -/
structure AnswersAlike (kernel later : Kernel) (id : ValueId) : Prop where
  rootParam : later.rootParam id = kernel.rootParam id
  bufferStart : later.bufferStart id = kernel.bufferStart id
  memberPath : later.memberPath id = kernel.memberPath id
  toParam : ∀ limit, (Walk.toParam later).run later limit id =
    (Walk.toParam kernel).run kernel limit id
  toBuffer : ∀ limit, Walk.toBuffer.run later limit id = Walk.toBuffer.run kernel limit id
  alongFields : ∀ limit, (Walk.alongFields later).run later limit id =
    (Walk.alongFields kernel).run kernel limit id
  ofValue : ImageBuffer.ofValue later id = ImageBuffer.ofValue kernel id
  image : ∀ buffers : BufferTable, buffers.image later id = buffers.image kernel id

namespace Extends

theorem refl (kernel : Kernel) : kernel.Extends kernel where
  operation _ _ h := h
  params := ⟨[], (List.append_nil _).symm, nofun⟩
  schedule := ⟨[], (List.append_nil _).symm, nofun⟩
  size := Nat.le_refl _

theorem trans {last : Kernel} (h : kernel.Extends later) (hlast : later.Extends last) :
    kernel.Extends last where
  operation id op hop := hlast.operation id op (h.operation id op hop)
  params := by
    obtain ⟨new, hnew, hids⟩ := h.params
    obtain ⟨newer, hnewer, hids'⟩ := hlast.params
    refine ⟨new ++ newer, by rw [hnewer, hnew, List.append_assoc], fun param hparam => ?_⟩
    rcases List.mem_append.mp hparam with hparam | hparam
    · exact hids param hparam
    · exact Nat.le_trans h.size (hids' param hparam)
  schedule := by
    obtain ⟨new, hnew, hids⟩ := h.schedule
    obtain ⟨newer, hnewer, hids'⟩ := hlast.schedule
    refine ⟨new ++ newer, by rw [hnewer, hnew, List.append_assoc], fun id hid => ?_⟩
    rcases List.mem_append.mp hid with hid | hid
    · exact hids id hid
    · exact Nat.le_trans h.size (hids' id hid)
  size := Nat.le_trans h.size hlast.size

variable (h : kernel.Extends later)

include h

/-- A value that exists stays the parameter it was, or no parameter. -/
theorem param?_eq (hid : id < kernel.size) : later.param? id = kernel.param? id := by
  obtain ⟨new, hnew, hids⟩ := h.params
  have hnone : new.find? (·.id == id) = none := by
    refine List.find?_eq_none.mpr fun param hparam => ?_
    rw [beq_iff_eq]
    rintro rfl
    exact Nat.not_lt.mpr (hids param hparam) hid
  unfold param?
  rw [hnew, List.find?_append, hnone, Option.or_none]

/-- The way back from a value is as it was, if it exists. -/
theorem chainWithin_eq (hway : kernel.WayExists id) (fuel : Nat) :
    later.chainWithin fuel id = kernel.chainWithin fuel id := by
  induction fuel generalizing id with
  | zero => rfl
  | succ fuel ih =>
      obtain ⟨op, hop, hbases⟩ := hway.exists_operation
      rw [chainWithin_succ hop, chainWithin_succ (h.operation id op hop)]
      cases hbase : op.base with
      | none => rfl
      | some base => exact congrArg (List.cons op) (ih (hbases base hbase))

/-- Walks that treat the nodes of a kernel alike take the same way in the kernel and later. -/
theorem run_eq {α : Type} {walk walk' : Walk α} (hends : walk'.endsAt = walk.endsAt)
    (hanswer : ∀ op : Operation, op.id < kernel.size → walk'.answer op = walk.answer op)
    (hpass : walk'.pass = walk.pass) (hway : kernel.WayExists id) (limit : Nat) :
    walk'.run later limit id = walk.run kernel limit id := by
  induction limit using Nat.strongRecOn generalizing id with
  | ind limit ih =>
      obtain ⟨op, hop, hbases⟩ := hway.exists_operation
      unfold Walk.run
      rw [hop, h.operation id op hop]
      dsimp only
      rw [hends, hpass, hanswer op (operation?_id hop ▸ hway.lt_size)]
      cases walk.endsAt op with
      | true => rfl
      | false =>
          cases hbase : op.base with
          | none => rfl
          | some base =>
              cases limit with
              | zero => rfl
              | succ limit =>
                  have hrest := ih limit (Nat.lt_succ_self _) (hbases base hbase)
                  exact congrArg (Option.map (Option.map (walk.pass op))) hrest

theorem along_eq {α : Type} {walk walk' : Walk α} (hends : walk'.endsAt = walk.endsAt)
    (hanswer : ∀ op : Operation, op.id < kernel.size → walk'.answer op = walk.answer op)
    (hpass : walk'.pass = walk.pass) (hway : kernel.WayExists id) :
    walk'.along (later.chain id) = walk.along (kernel.chain id) := by
  have hchain : later.chain id = kernel.chainWithin later.size id :=
    h.chainWithin_eq hway later.size
  rw [hchain, ← kernel.along_chainWithin walk h.size id]
  have hnodes : ∀ op ∈ kernel.chainWithin later.size id, op.id < kernel.size :=
    fun op hop => lt_size_of_operation? (operation?_of_mem_chainWithin hop)
  revert hnodes
  induction kernel.chainWithin later.size id with
  | nil => exact fun _ => rfl
  | cons op ops ih =>
      intro hnodes
      rw [List.forall_mem_cons] at hnodes
      rw [Walk.along, Walk.along, hends, hpass, hanswer op hnodes.1, ih hnodes.2]

theorem answersAlike (hway : kernel.WayExists id) : kernel.AnswersAlike later id := by
  have hparam : ∀ op : Operation, op.id < kernel.size →
      (Walk.toParam later).answer op = (Walk.toParam kernel).answer op :=
    fun op hop => h.param?_eq hop
  have hfields : ∀ op : Operation, op.id < kernel.size →
      (Walk.alongFields later).answer op = (Walk.alongFields kernel).answer op := by
    intro op hop
    unfold Walk.alongFields
    dsimp only
    rw [h.param?_eq hop]
  have hroot : later.rootParam id = kernel.rootParam id := by
    rw [rootParam_eq_along, rootParam_eq_along]
    exact h.along_eq rfl hparam rfl hway
  have hpath : later.memberPath id = kernel.memberPath id := by
    rw [memberPath_eq_along, memberPath_eq_along]
    exact h.along_eq rfl hfields rfl hway
  have hplain : ImageBuffer.ofValue later id = ImageBuffer.ofValue kernel id := by
    unfold ImageBuffer.ofValue varName
    rw [h.param?_eq hway.lt_size, hpath]
  refine ⟨hroot, ?_, hpath, h.run_eq rfl hparam rfl hway, h.run_eq rfl (fun _ _ => rfl) rfl hway,
    h.run_eq rfl hfields rfl hway, hplain, fun buffers => ?_⟩
  · rw [bufferStart_eq_along, bufferStart_eq_along]
    exact h.along_eq rfl (fun _ _ => rfl) rfl hway
  · unfold BufferTable.image
    rw [hplain, hroot]

end Extends

/-! ## Steps -/

/-- A kernel after one more step. -/
def step (kernel : Kernel) : BuildStep → Kernel
  | .parameter name type isFilter => kernel.addParameter name type isFilter
  | .operation node => kernel.append node
  | .name id name => kernel.withName id name

/-- A kernel after some more steps. -/
def after (kernel : Kernel) (steps : List BuildStep) : Kernel := steps.foldl step kernel

theorem after_append (kernel : Kernel) (steps more : List BuildStep) :
    kernel.after (steps ++ more) = (kernel.after steps).after more := List.foldl_append

theorem Built.after (h : kernel.Built) (steps : List BuildStep) : (kernel.after steps).Built := by
  induction steps generalizing kernel with
  | nil => exact h
  | cons step steps ih =>
      refine ih ?_
      cases step with
      | parameter name type isFilter => exact h.addParameter name type isFilter
      | operation node => exact h.append node
      | name id name => exact h.withName id name

theorem extends_step (kernel : Kernel) (step : BuildStep) : kernel.Extends (kernel.step step) := by
  cases step with
  | parameter name type isFilter =>
      refine ⟨fun _ _ hop => operation?_of_push rfl hop, ⟨_, rfl, fun param hparam => ?_⟩,
        (Extends.refl kernel).schedule, Nat.le_of_lt ?_⟩
      · rw [List.mem_singleton.mp hparam]
        exact Nat.le_refl _
      · show kernel.size < (kernel.addParameter name type isFilter).size
        rw [size_addParameter]
        exact Nat.lt_succ_self _
  | operation node =>
      refine ⟨fun _ _ hop => operation?_of_push rfl hop, (Extends.refl kernel).params,
        ⟨_, rfl, fun id hid => ?_⟩, Nat.le_of_lt ?_⟩
      · rw [List.mem_singleton.mp hid]
        exact Nat.le_refl _
      · show kernel.size < (kernel.append node).size
        rw [size_append]
        exact Nat.lt_succ_self _
  | name id name =>
      exact ⟨fun _ _ hop => hop, (Extends.refl kernel).params, (Extends.refl kernel).schedule,
        Nat.le_refl _⟩

/-- No steps change anything that was there before. -/
theorem extends_after (kernel : Kernel) (steps : List BuildStep) :
    kernel.Extends (kernel.after steps) := by
  induction steps generalizing kernel with
  | nil => exact .refl kernel
  | cons step steps ih => exact (kernel.extends_step step).trans (ih (kernel.step step))

/-! ## Ids -/

theorem nodes_after (kernel : Kernel) (steps : List BuildStep) :
    (kernel.after steps).nodes.toList = kernel.nodes.toList ++ BuildStep.created steps := by
  induction steps generalizing kernel with
  | nil => exact (List.append_nil _).symm
  | cons step steps ih =>
      have hsteps := ih (kernel.step step)
      cases step with
      | parameter name type isFilter =>
          refine hsteps.trans ?_
          show (kernel.nodes.push _).toList ++ _ = _
          rw [Array.toList_push, List.append_assoc]
          rfl
      | operation node =>
          refine hsteps.trans ?_
          show (kernel.nodes.push _).toList ++ _ = _
          rw [Array.toList_push, List.append_assoc]
          rfl
      | name id name => exact hsteps

/-- The next id is the number of the values so far. -/
theorem nextId_after_empty (name : String) (steps : List BuildStep) :
    ((empty name).after steps).nextId = (BuildStep.created steps).length := by
  show ((empty name).after steps).nodes.size = _
  rw [← Array.length_toList, nodes_after]
  rfl

/-- A created value has the number of the values before it as its id, and keeps it. -/
theorem operation?_after {name : String} {front back : List BuildStep} {step : BuildStep}
    {node : Node} (h : step.created? = some node) :
    let id := (BuildStep.created front).length
    let kernel := (empty name).after (front ++ step :: back)
    kernel.operation? id = some ⟨node, id⟩ ∧
      (∀ name type isFilter, step = .parameter name type isFilter →
        ⟨id, name, type, isFilter⟩ ∈ kernel.params) ∧
      (step = .operation node → id ∈ kernel.schedule) := by
  intro id kernel
  have hid : ((empty name).after front).nextId = id := nextId_after_empty name front
  rw [← hid]
  have hext : (((empty name).after front).step step).Extends kernel := by
    show Extends _ ((empty name).after (front ++ step :: back))
    rw [after_append]
    exact extends_after _ back
  obtain ⟨params, hparams, -⟩ := hext.params
  obtain ⟨schedule, hschedule, -⟩ := hext.schedule
  cases step with
  | parameter name type isFilter =>
      cases h
      refine ⟨hext.operation _ _ (operation?_nextId rfl), ?_, nofun⟩
      rintro _ _ _ ⟨⟩
      rw [hparams]
      exact List.mem_append_left _ (List.mem_append_right _ List.mem_cons_self)
  | operation node =>
      cases h
      refine ⟨hext.operation _ _ (operation?_nextId rfl), nofun, fun _ => ?_⟩
      rw [hschedule]
      exact List.mem_append_left _ (List.mem_append_right _ List.mem_cons_self)
  | name id name => cases h

/-- The ids of parameters and of scheduled operations are both in the order of creation, and every
id is one or the other. -/
structure Numbered (kernel : Kernel) : Prop where
  params : (kernel.params.map (·.id)).Pairwise (· < ·)
  schedule : kernel.schedule.Pairwise (· < ·)
  partition : (kernel.params.map (·.id) ++ kernel.schedule).Perm (List.range kernel.size)

theorem Built.numbered (h : kernel.Built) : kernel.Numbered := by
  -- a new id is greater than all others
  have hconcat : ∀ {ids : List ValueId} {new : ValueId}, ids.Pairwise (· < ·) →
      (∀ id ∈ ids, id < new) → (ids ++ [new]).Pairwise (· < ·) := by
    intro ids new hids hnew
    refine List.pairwise_append.mpr ⟨hids, List.pairwise_singleton _ _, ?_⟩
    intro id hid other hother
    rw [List.mem_singleton.mp hother]
    exact hnew id hid
  induction h with
  | empty name => exact ⟨.nil, .nil, .refl _⟩
  | @addParameter kernel h name type isFilter ih =>
      have hparams : (kernel.addParameter name type isFilter).params.map (·.id) =
          kernel.params.map (·.id) ++ [kernel.size] := List.map_append
      refine ⟨?_, ih.schedule, ?_⟩
      · rw [hparams]
        exact hconcat ih.params fun id hid => h.lt_size id (List.mem_append_left _ hid)
      · rw [hparams, size_addParameter, List.range_succ, List.append_assoc]
        refine List.Perm.trans List.perm_middle ?_
        exact (ih.partition.cons _).trans (List.perm_append_singleton _ _).symm
  | @append kernel h node ih =>
      refine ⟨ih.params, ?_, ?_⟩
      · exact hconcat ih.schedule fun id hid => h.lt_size id (List.mem_append_right _ hid)
      · show (kernel.params.map (·.id) ++ (kernel.schedule ++ [kernel.size])).Perm _
        rw [size_append, List.range_succ, ← List.append_assoc]
        exact ih.partition.append_right _
  | withName h id name ih => exact ⟨ih.params, ih.schedule, ih.partition⟩

/-- Nothing is scheduled twice when a kernel is built. -/
theorem Built.check_ne_scheduledAgain (h : kernel.Built) (id : ValueId) :
    kernel.check ≠ .error (.scheduledAgain id) := by
  intro hcheck
  obtain ⟨before, op, after, hops, -, hop⟩ := checkOperations_eq_error_iff.mp hcheck
  cases checkOperation_eq_error_iff.mp hop with
  | scheduledAgain _ _ _ hagain =>
      have hearlier := mem_defined.mp hagain
      exact h.not_mem_of_order (order_of_operations hops) (List.mem_append.mpr hearlier)

end Kernel

end BufferPromotion
