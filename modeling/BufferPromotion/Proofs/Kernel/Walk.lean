import BufferPromotion.Proofs.Kernel.Chain

/-! # Walks back along the bases

The parameter, the buffer and the path of a value are found by a walk that starts at the value and
goes on from base to base until a node answers. Nothing in a walk bounds its length: a value that is
its own base is never left (`run_eq_none_of_own_base`). In a valid kernel the rank of a base is
smaller than that of its result, so no walk follows more bases than there are values, and each one
ends with the answer that the chain gives (`walks_end`).
-/

set_option autoImplicit false

namespace BufferPromotion

/-- A walk back along the bases of values. -/
structure Walk (α : Type) where
  /-- Whether the walk ends at a node. -/
  endsAt : Operation → Bool
  /-- The answer at a node where it ends, if there is one. -/
  answer : Operation → Option α
  /-- What a node that was passed makes of the answer. -/
  pass : Operation → α → α

namespace Walk

variable {α : Type}

/-- The answer of a walk that follows no more than `limit` bases; `none` if it would have to follow
one more. Where there is no node or no base, the walk ends without an answer. -/
def run (walk : Walk α) (kernel : Kernel) (limit : Nat) (id : ValueId) : Option (Option α) :=
  match kernel.operation? id with
  | none => some none
  | some op =>
      if walk.endsAt op then some (walk.answer op)
      else match op.base with
        | none => some none
        | some base =>
            match limit with
            | 0 => none
            | limit + 1 => (walk.run kernel limit base).map (·.map (walk.pass op))

/-- The walk to the parameter that a value comes from. -/
def toParam (kernel : Kernel) : Walk Parameter where
  endsAt op := op.kind == .param
  answer op := kernel.param? op.id
  pass _ param := param

/-- The walk to the start of the buffer that a pointer points into. -/
def toBuffer : Walk ValueId where
  endsAt op := !op.kind.isDerivation
  answer op :=
    match op.kind with
    | .param | .extract _ => if op.givesPointer then some op.id else none
    | _ => none
  pass _ start := start

/-- The walk to the parameter of a value that goes through fields only, and collects them. -/
def alongFields (kernel : Kernel) : Walk (List String) where
  endsAt op :=
    match op.kind with
    | .extract _ => false
    | _ => true
  answer op :=
    match op.kind with
    | .param => (kernel.param? op.id).map fun param => [param.name]
    | _ => none
  pass op path :=
    match op.kind with
    | .extract field => path ++ [field]
    | _ => path

/-! ## When a walk ends -/

/-- A function gives at every value what a walk makes of its own answer at the base. -/
structure Solves (walk : Walk α) (kernel : Kernel) (answer : ValueId → Option α) : Prop where
  missing : ∀ id, kernel.operation? id = none → answer id = none
  ending : ∀ id op, kernel.operation? id = some op → walk.endsAt op = true →
    answer id = walk.answer op
  passing : ∀ id op, kernel.operation? id = some op → walk.endsAt op = false →
    answer id = (op.base.bind answer).map (walk.pass op)

variable {walk : Walk α} {kernel : Kernel} {answer : ValueId → Option α} {limit : Nat}
  {id : ValueId}

/-- A walk that ends at the base in time ends at the result as well. -/
theorem Solves.run_eq (h : walk.Solves kernel answer)
    (hbase : ∀ op base, kernel.operation? id = some op → op.base = some base →
      ∃ left, limit = left + 1 ∧ walk.run kernel left base = some (answer base)) :
    walk.run kernel limit id = some (answer id) := by
  unfold run
  cases hop : kernel.operation? id with
  | none => rw [h.missing id hop]
  | some op =>
      dsimp only
      cases hends : walk.endsAt op with
      | true =>
          rw [h.ending id op hop hends]
          rfl
      | false =>
          rw [h.passing id op hop hends]
          cases hfollow : op.base with
          | none => rfl
          | some base =>
              obtain ⟨left, rfl, hrun⟩ := hbase op base hop hfollow
              dsimp only
              rw [hrun]
              rfl

/-- In a valid kernel a walk follows no more bases than the rank of the value says. -/
theorem Solves.run_of_rank_le (hbuilt : kernel.Built) (hvalid : kernel.check = .ok ())
    (h : walk.Solves kernel answer) (hlimit : kernel.rank id ≤ limit) :
    walk.run kernel limit id = some (answer id) := by
  have hdefined : ∀ id ∈ kernel.order, ∀ limit, kernel.rank id ≤ limit →
      walk.run kernel limit id = some (answer id) := by
    refine Kernel.order_induction hvalid ?_ ?_
    · -- the node of a parameter has no base
      intro param hparam limit _
      refine h.run_eq fun op base hop hbase => ?_
      rw [hbuilt.operation?_param hparam] at hop
      cases hop
      cases hbase
    · -- the base of a result has a smaller rank, so one step of the limit is left for it
      intro op hop ih limit hlimit
      refine h.run_eq fun op' base hop' hbase => ?_
      rw [Kernel.operation?_of_mem hop] at hop'
      cases hop'
      have hmem := Node.mem_operands_of_base hbase
      have hlt := Kernel.rank_operand_lt hvalid hbuilt hop hmem
      obtain ⟨left, rfl⟩ := Nat.exists_eq_succ_of_ne_zero
        (Nat.ne_zero_of_lt (Nat.lt_of_lt_of_le hlt hlimit))
      exact ⟨left, rfl, ih base hmem left (Nat.le_of_lt_succ (Nat.lt_of_lt_of_le hlt hlimit))⟩
  by_cases hid : id ∈ kernel.order
  · exact hdefined id hid limit hlimit
  · refine h.run_eq fun op base hop _ => ?_
    rw [Kernel.operation?_eq_none_of_not_mem hbuilt hid] at hop
    cases hop

/-- As many bases as there are values are enough. -/
theorem Solves.run_of_size_le (hbuilt : kernel.Built) (hvalid : kernel.check = .ok ())
    (h : walk.Solves kernel answer) (hlimit : kernel.size ≤ limit) :
    walk.run kernel limit id = some (answer id) := by
  refine h.run_of_rank_le hbuilt hvalid (Nat.le_trans ?_ hlimit)
  rw [← hbuilt.length_order]
  exact List.idxOf_le_length

/-- A value that is its own base is never left. -/
theorem run_eq_none_of_own_base {op : Operation} (hop : kernel.operation? id = some op)
    (hends : walk.endsAt op = false) (hbase : op.base = some id) :
    walk.run kernel limit id = none := by
  induction limit with
  | zero =>
      unfold run
      rw [hop]
      dsimp only
      rw [hends, hbase]
      rfl
  | succ limit ih =>
      unfold run
      rw [hop]
      dsimp only
      rw [hends, hbase]
      dsimp only
      rw [ih]
      rfl

/-! ## The three walks -/

section Valid

variable (hbuilt : kernel.Built) (hvalid : kernel.check = .ok ())

include hbuilt hvalid

theorem solves_rootParam : (toParam kernel).Solves kernel kernel.rootParam where
  missing := by
    intro id hnode
    unfold Kernel.rootParam
    rw [Kernel.chain_eq_nil hnode]
    rfl
  ending := by
    intro id op hop hends
    rcases Kernel.param_or_mem_operations hbuilt hop with ⟨param, hparam, rfl, rfl⟩ | hmem
    · exact (Kernel.rootParam_param hbuilt hparam).trans (hbuilt.param?_id hparam).symm
    · exact absurd (beq_iff_eq.mp hends) (Kernel.kind_ne_param hvalid hmem)
  passing := by
    intro id op hop hends
    rcases Kernel.param_or_mem_operations hbuilt hop with ⟨param, hparam, rfl, rfl⟩ | hmem
    · cases hends
    · rw [← Kernel.operation?_id hop, Kernel.rootParam_operation hbuilt hvalid hmem]
      exact Option.map_id'.symm

theorem solves_bufferStart : toBuffer.Solves kernel kernel.bufferStart where
  missing := by
    intro id hnode
    unfold Kernel.bufferStart
    rw [Kernel.chain_eq_nil hnode]
    rfl
  ending := by
    intro id op hop hends
    rcases Kernel.param_or_mem_operations hbuilt hop with ⟨param, hparam, rfl, rfl⟩ | hmem
    · exact Kernel.bufferStart_param hbuilt hparam
    · rw [← Kernel.operation?_id hop]
      unfold toBuffer at hends ⊢
      dsimp only at hends ⊢
      cases hkind : op.kind with
      | param => exact absurd hkind (Kernel.kind_ne_param hvalid hmem)
      | extract field => exact Kernel.bufferStart_extract hbuilt hvalid hmem hkind
      | reinterpret | address =>
          rw [hkind] at hends
          cases hends
      | load | store | other name =>
          exact Kernel.bufferStart_of_not_isProjection hbuilt hvalid hmem (by rw [hkind]; rfl)
  passing := by
    intro id op hop hends
    have hderives : op.kind.isDerivation = true := by simpa [toBuffer] using hends
    rcases Kernel.param_or_mem_operations hbuilt hop with ⟨param, hparam, rfl, rfl⟩ | hmem
    · cases hends
    · rw [← Kernel.operation?_id hop,
        Kernel.bufferStart_of_isDerivation hbuilt hvalid hmem hderives]
      exact Option.map_id'.symm

theorem solves_memberPath : (alongFields kernel).Solves kernel kernel.memberPath where
  missing := by
    intro id hnode
    unfold Kernel.memberPath
    rw [Kernel.chain_eq_nil hnode]
    rfl
  ending := by
    intro id op hop hends
    rcases Kernel.param_or_mem_operations hbuilt hop with ⟨param, hparam, rfl, rfl⟩ | hmem
    · rw [Kernel.memberPath_param hbuilt hparam]
      show _ = (kernel.param? param.id).map _
      rw [hbuilt.param?_id hparam]
      rfl
    · have hparam := Kernel.kind_ne_param hvalid hmem
      have hextract : ∀ field, op.kind ≠ .extract field := by
        intro field hkind
        simp [alongFields, hkind] at hends
      rw [← Kernel.operation?_id hop,
        Kernel.memberPath_of_kind_ne_extract hbuilt hvalid hmem hextract]
      unfold alongFields
      dsimp only
      cases hkind : op.kind with
      | param => exact absurd hkind hparam
      | extract field => exact absurd hkind (hextract field)
      | reinterpret | address | load | store | other name => rfl
  passing := by
    intro id op hop hends
    rcases Kernel.param_or_mem_operations hbuilt hop with ⟨param, hparam, rfl, rfl⟩ | hmem
    · cases hends
    · rw [← Kernel.operation?_id hop]
      unfold alongFields at hends ⊢
      dsimp only at hends ⊢
      cases hkind : op.kind with
      | extract field => exact Kernel.memberPath_extract hbuilt hvalid hmem hkind
      | param | reinterpret | address | load | store | other name =>
          rw [hkind] at hends
          cases hends

end Valid

end Walk

/-! ## The answers -/

namespace Kernel

variable {kernel : Kernel} (hbuilt : kernel.Built) (hvalid : kernel.check = .ok ())

include hbuilt hvalid

/-- What holds of the parameters and of values without a chain, and of a result as soon as it holds
of its base, holds of all values. -/
theorem base_induction {motive : ValueId → Prop}
    (parameter : ∀ param ∈ kernel.params, motive param.id)
    (result : ∀ op ∈ kernel.operations, (∀ base, op.base = some base → motive base) → motive op.id)
    (missing : ∀ id, kernel.chain id = [] → motive id) (id : ValueId) : motive id := by
  by_cases hid : id ∈ kernel.order
  · refine order_induction hvalid parameter (fun op hop ih => ?_) id hid
    exact result op hop fun base hbase => ih base (Node.mem_operands_of_base hbase)
  · exact missing id (chain_eq_nil (operation?_eq_none_of_not_mem hbuilt hid))

/-- A pointer comes from the same parameter as the start of its buffer. -/
theorem rootParam_bufferStart (id : ValueId) {start : ValueId}
    (h : kernel.bufferStart id = some start) : kernel.rootParam start = kernel.rootParam id := by
  induction id using base_induction hbuilt hvalid with
  | parameter param hparam =>
      have hstart := bufferStart_param hbuilt hparam
      rw [h] at hstart
      split at hstart <;> cases hstart
      rfl
  | result op hop ih =>
      cases hkind : op.kind with
      | reinterpret | address =>
          -- a derived pointer has both buffer and parameter of its base
          have hderives : op.kind.isDerivation = true := by rw [hkind]; rfl
          rw [bufferStart_of_isDerivation hbuilt hvalid hop hderives] at h
          obtain ⟨base, hbase, h⟩ := Option.bind_eq_some_iff.mp h
          rw [rootParam_operation hbuilt hvalid hop, hbase, Option.bind_some]
          exact ih base hbase h
      | extract field =>
          have hstart := bufferStart_extract hbuilt hvalid hop hkind
          rw [h] at hstart
          split at hstart <;> cases hstart
          rfl
      | param | load | store | other name =>
          rw [bufferStart_of_not_isProjection hbuilt hvalid hop (by rw [hkind]; rfl)] at h
          cases h
  | missing id hchain =>
      unfold bufferStart at h
      rw [hchain] at h
      cases h

/-- A path starts with the name of the parameter that the value comes from. -/
theorem memberPath_head (id : ValueId) {path : List String}
    (h : kernel.memberPath id = some path) :
    ∃ param ∈ kernel.params, kernel.rootParam id = some param ∧
      ∃ fields, path = param.name :: fields := by
  induction id using base_induction hbuilt hvalid generalizing path with
  | parameter param hparam =>
      rw [memberPath_param hbuilt hparam] at h
      exact ⟨param, hparam, rootParam_param hbuilt hparam, [], (Option.some.inj h).symm⟩
  | result op hop ih =>
      by_cases hkind : ∃ field, op.kind = .extract field
      · obtain ⟨field, hkind⟩ := hkind
        rw [memberPath_extract hbuilt hvalid hop hkind] at h
        obtain ⟨before, hbefore, rfl⟩ := Option.map_eq_some_iff.mp h
        obtain ⟨base, hbase, hpath⟩ := Option.bind_eq_some_iff.mp hbefore
        obtain ⟨param, hparam, hroot, fields, rfl⟩ := ih base hbase hpath
        refine ⟨param, hparam, ?_, fields ++ [field], rfl⟩
        rw [rootParam_operation hbuilt hvalid hop, hbase]
        exact hroot
      · rw [memberPath_of_kind_ne_extract hbuilt hvalid hop (not_exists.mp hkind)] at h
        cases h
  | missing id hchain =>
      unfold memberPath at h
      rw [hchain] at h
      cases h

end Kernel

/-- **Walks back along the bases end.** In a valid kernel the walks from a value to its parameter,
to the start of its buffer and along its fields end after at most as many bases as there are values,
also from an id that no value has, and give the answers of the chain. The start of a buffer is a
pointer, starts its own buffer, and comes from the same parameter as the value. A path starts with
the name of the parameter that the value comes from. -/
theorem walks_end {kernel : Kernel} (hbuilt : kernel.Built) (hvalid : kernel.check = .ok ())
    (id : ValueId) :
    (∀ limit, kernel.size ≤ limit →
      (Walk.toParam kernel).run kernel limit id = some (kernel.rootParam id) ∧
        Walk.toBuffer.run kernel limit id = some (kernel.bufferStart id) ∧
        (Walk.alongFields kernel).run kernel limit id = some (kernel.memberPath id)) ∧
    (∀ start, kernel.bufferStart id = some start →
      (∃ op, kernel.operation? start = some op ∧ op.type = some .pointer) ∧
        kernel.bufferStart start = some start ∧
        kernel.rootParam start = kernel.rootParam id) ∧
    ∀ path, kernel.memberPath id = some path →
      ∃ param ∈ kernel.params, kernel.rootParam id = some param ∧
        ∃ fields, path = param.name :: fields := by
  refine ⟨fun limit hlimit => ⟨?_, ?_, ?_⟩, ?_, ?_⟩
  · exact (Walk.solves_rootParam hbuilt hvalid).run_of_size_le hbuilt hvalid hlimit
  · exact (Walk.solves_bufferStart hbuilt hvalid).run_of_size_le hbuilt hvalid hlimit
  · exact (Walk.solves_memberPath hbuilt hvalid).run_of_size_le hbuilt hvalid hlimit
  · intro start h
    obtain ⟨op, hop, -, hpointer⟩ := Kernel.exists_start_of_bufferStart h
    exact ⟨⟨op, hop, Node.givesPointer_iff.mp hpointer⟩, Kernel.bufferStart_self h,
      Kernel.rootParam_bufferStart hbuilt hvalid id h⟩
  · exact fun path h => Kernel.memberPath_head hbuilt hvalid id h

/-- The struct that the first operation reads is declared after it, so its id is the greater one;
the last id is that of no value. -/
theorem late_parameter_is_found :
    let kernel := ((((Kernel.empty "k").append (.extractOf 1 "data" .pointer)).addParameter "img"
      (some (.struct "Image")) false).append (.reinterpretOf 0)).append (.loadOf 2)
    kernel.Built ∧ kernel.check = .ok () ∧ kernel.size = 4 ∧
      (Walk.toParam kernel).run kernel 4 2 = some (kernel.param? 1) ∧
      Walk.toBuffer.run kernel 4 2 = some (some 0) ∧
      (Walk.alongFields kernel).run kernel 4 0 = some (some ["img", "data"]) ∧
      Walk.toBuffer.run kernel 4 7 = some none ∧
      kernel.rootParam 0 = kernel.rootParam 2 ∧
      ∃ param ∈ kernel.params, kernel.rootParam 0 = some param ∧
        ∃ fields, ["img", "data"] = param.name :: fields := by
  intro kernel
  have hbuilt : kernel.Built :=
    .append (.append (.addParameter (.append (.empty "k") _) ..) _) _
  have hvalid : kernel.check = .ok () := by decide +kernel
  have hsize : kernel.size = 4 := rfl
  have hstart : kernel.bufferStart 2 = some 0 := by decide +kernel
  have hpath : kernel.memberPath 0 = some ["img", "data"] := by decide +kernel
  obtain ⟨hruns, hbuffer, -⟩ := walks_end hbuilt hvalid 2
  obtain ⟨hfields, -, hhead⟩ := walks_end hbuilt hvalid 0
  obtain ⟨hparam, hrun, -⟩ := hruns 4 (Nat.le_refl 4)
  refine ⟨hbuilt, hvalid, hsize, hparam.trans (by decide +kernel), hrun.trans (by rw [hstart]), ?_,
    ?_, (hbuffer 0 hstart).2.2, hhead _ hpath⟩
  · exact (hfields 4 (Nat.le_refl 4)).2.2.trans (by rw [hpath])
  · exact ((walks_end hbuilt hvalid 7).1 4 (Nat.le_refl 4)).2.1.trans (by decide +kernel)

end BufferPromotion
