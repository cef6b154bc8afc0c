import BufferPromotion.Proofs.Kernel.Built
import BufferPromotion.Proofs.Kernel.Derivation
import BufferPromotion.Proofs.Kernel.Validity

/-! # The fault that the check of a kernel reports

If an operation is not in order, `Kernel.FirstFault` says which fault is the first one; it does not
refer to the check. The check of one operation fails with this fault (`checkOperation_eq_error_iff`),
and the check of a schedule stops at the first position whose operation is not in order
(`check_blames_first_fault`).
-/

set_option autoImplicit false

namespace BufferPromotion

namespace Kernel

/-- The first fault of an operation: its number of operands comes first, then its operands from the
left, then its kind and result, and last its place in the schedule. -/
inductive FirstFault (kernel : Kernel) (defined : ValueId → Prop) (op : Operation) :
    KernelFault → Prop where
  | operandCount (hcount : op.kind.accepts op.operands.length = false) :
      FirstFault kernel defined op (.operandCount op.id op.kind op.operands.length)
  | noSuchOperand (hcount : op.kind.accepts op.operands.length = true)
      (before : List ValueId) (operand : ValueId) (after : List ValueId)
      (hoperands : op.operands = before ++ operand :: after)
      (hbefore : ∀ earlier ∈ before, earlier < kernel.size ∧ defined earlier)
      (hmissing : kernel.size ≤ operand) :
      FirstFault kernel defined op (.noSuchOperand op.id operand)
  | usedTooEarly (hcount : op.kind.accepts op.operands.length = true)
      (before : List ValueId) (operand : ValueId) (after : List ValueId)
      (hoperands : op.operands = before ++ operand :: after)
      (hbefore : ∀ earlier ∈ before, earlier < kernel.size ∧ defined earlier)
      (hexists : operand < kernel.size) (hearly : ¬ defined operand) :
      FirstFault kernel defined op (.usedTooEarly op.id operand)
  | paramInSchedule (hcount : op.kind.accepts op.operands.length = true)
      (hoperands : ∀ operand ∈ op.operands, operand < kernel.size ∧ defined operand)
      (hkind : op.kind = .param) :
      FirstFault kernel defined op (.paramInSchedule op.id)
  | needlessResult (hcount : op.kind.accepts op.operands.length = true)
      (hoperands : ∀ operand ∈ op.operands, operand < kernel.size ∧ defined operand)
      (hkind : op.kind = .store) (htype : op.type ≠ none) :
      FirstFault kernel defined op (.needlessResult op.id)
  | lacksResult (hcount : op.kind.accepts op.operands.length = true)
      (hoperands : ∀ operand ∈ op.operands, operand < kernel.size ∧ defined operand)
      (hkind : op.kind.isProjection = true ∨ op.kind = .load) (htype : op.type = none) :
      FirstFault kernel defined op (.lacksResult op.id op.kind)
  | scheduledAgain (hcount : op.kind.accepts op.operands.length = true)
      (hoperands : ∀ operand ∈ op.operands, operand < kernel.size ∧ defined operand)
      (hresult : op.toNode.ResultFits) (hagain : defined op.id) :
      FirstFault kernel defined op (.scheduledAgain op.id)

/-! ## Sequences of checks -/

section Sequence

variable {ε : Type}

/-- Two checks in a row fail with the first one, or with the second one if the first succeeds. -/
theorem then_eq_error_iff {first second : Except ε Unit} {error : ε} :
    (do first; second) = .error error ↔
      first = .error error ∨ first = .ok () ∧ second = .error error := by
  cases first with
  | error e => exact ⟨Or.inl, fun h => h.elim id fun h => nomatch h.1⟩
  | ok _ => exact ⟨fun h => Or.inr ⟨rfl, h⟩, fun h => h.elim nofun And.right⟩

/-- A check of all elements fails with the first one whose check fails. -/
theorem forM_eq_error_iff {α : Type} {f : α → Except ε Unit} {xs : List α} {error : ε} :
    xs.forM f = .error error ↔
      ∃ before x after, xs = before ++ x :: after ∧ (∀ y ∈ before, f y = .ok ()) ∧
        f x = .error error := by
  induction xs with
  | nil =>
      refine ⟨nofun, fun ⟨before, x, after, hxs, _⟩ => ?_⟩
      simp at hxs
  | cons first rest ih =>
      show (do f first; rest.forM f) = .error error ↔ _
      rw [then_eq_error_iff, ih]
      constructor
      · rintro (hfirst | ⟨hfirst, before, x, after, rfl, hbefore, hx⟩)
        · exact ⟨[], first, rest, rfl, nofun, hfirst⟩
        · exact ⟨first :: before, x, after, rfl, List.forall_mem_cons.mpr ⟨hfirst, hbefore⟩, hx⟩
      · rintro ⟨before, x, after, hxs, hbefore, hx⟩
        cases before with
        | nil =>
            obtain ⟨rfl, rfl⟩ := List.cons.inj hxs
            exact Or.inl hx
        | cons head before =>
            obtain ⟨rfl, rfl⟩ := List.cons.inj hxs
            obtain ⟨hhead, hbefore⟩ := List.forall_mem_cons.mp hbefore
            exact Or.inr ⟨hhead, before, x, after, rfl, hbefore, hx⟩

end Sequence

/-! ## One operation -/

section Operation

variable {kernel : Kernel} {defined : ValueSet} {op : Operation} {fault : KernelFault}

theorem checkOperand_eq_error_iff {id operand : ValueId} :
    kernel.checkOperand defined id operand = .error fault ↔
      (kernel.size ≤ operand ∧ fault = .noSuchOperand id operand) ∨
        (operand < kernel.size ∧ operand ∉ defined ∧ fault = .usedTooEarly id operand) := by
  unfold checkOperand size
  by_cases hmissing : kernel.nodes.size ≤ operand
  · simp [hmissing, Nat.not_lt.mpr hmissing, eq_comm]
  · by_cases hdefined : operand ∈ defined
    · simp [hmissing, hdefined]
    · simp [hmissing, hdefined, Nat.not_le.mp hmissing, eq_comm]

theorem checkResult_eq_error_iff :
    checkResult op = .error fault ↔
      (op.kind = .param ∧ fault = .paramInSchedule op.id) ∨
        (op.kind = .store ∧ op.type ≠ none ∧ fault = .needlessResult op.id) ∨
        ((op.kind.isProjection = true ∨ op.kind = .load) ∧ op.type = none ∧
          fault = .lacksResult op.id op.kind) := by
  obtain ⟨⟨kind, type, operands⟩, id⟩ := op
  cases kind with
  | param | other name => simp [checkResult, NodeKind.isProjection, eq_comm]
  | store | extract field | reinterpret | address | load =>
      cases type <;> simp [checkResult, NodeKind.isProjection, eq_comm]

/-- The checks of one operation, one after the other. -/
theorem checkOperation_of_accepts (hcount : op.kind.accepts op.operands.length = true) :
    kernel.checkOperation defined op = (do
      op.operands.forM (kernel.checkOperand defined op.id)
      checkResult op
      if op.id ∈ defined then .error (.scheduledAgain op.id) else .ok ()) := by
  unfold checkOperation
  rw [hcount]
  rfl

theorem checkOperation_of_not_accepts (hcount : op.kind.accepts op.operands.length = false) :
    kernel.checkOperation defined op =
      .error (.operandCount op.id op.kind op.operands.length) := by
  unfold checkOperation
  rw [hcount]
  rfl

theorem forM_checkOperand_eq_ok_iff :
    op.operands.forM (kernel.checkOperand defined op.id) = .ok () ↔
      ∀ operand ∈ op.operands, operand < kernel.size ∧ operand ∈ defined := by
  rw [forM_eq_ok_iff]
  exact forall₂_congr fun operand _ => checkOperand_eq_ok_iff

theorem forM_checkOperand_eq_error_iff :
    op.operands.forM (kernel.checkOperand defined op.id) = .error fault ↔
      ∃ before operand after, op.operands = before ++ operand :: after ∧
        (∀ earlier ∈ before, earlier < kernel.size ∧ earlier ∈ defined) ∧
        ((kernel.size ≤ operand ∧ fault = .noSuchOperand op.id operand) ∨
          (operand < kernel.size ∧ operand ∉ defined ∧ fault = .usedTooEarly op.id operand)) := by
  simp only [forM_eq_error_iff, checkOperand_eq_ok_iff, checkOperand_eq_error_iff]

/-- The first fault of an operation with as many operands as its kind takes. -/
theorem firstFault_iff_of_accepts {defined : ValueId → Prop}
    (hcount : op.kind.accepts op.operands.length = true) :
    kernel.FirstFault defined op fault ↔
      (∃ before operand after, op.operands = before ++ operand :: after ∧
        (∀ earlier ∈ before, earlier < kernel.size ∧ defined earlier) ∧
        ((kernel.size ≤ operand ∧ fault = .noSuchOperand op.id operand) ∨
          (operand < kernel.size ∧ ¬ defined operand ∧ fault = .usedTooEarly op.id operand))) ∨
      (∀ operand ∈ op.operands, operand < kernel.size ∧ defined operand) ∧
        (checkResult op = .error fault ∨
          op.toNode.ResultFits ∧ defined op.id ∧ fault = .scheduledAgain op.id) := by
  rw [checkResult_eq_error_iff]
  constructor
  · intro h
    cases h with
    | operandCount hwrong =>
        rw [hcount] at hwrong
        cases hwrong
    | noSuchOperand _ before operand after hoperands hbefore hmissing =>
        exact Or.inl ⟨before, operand, after, hoperands, hbefore, Or.inl ⟨hmissing, rfl⟩⟩
    | usedTooEarly _ before operand after hoperands hbefore hexists hearly =>
        exact Or.inl ⟨before, operand, after, hoperands, hbefore, Or.inr ⟨hexists, hearly, rfl⟩⟩
    | paramInSchedule _ hoperands hkind =>
        exact Or.inr ⟨hoperands, Or.inl (Or.inl ⟨hkind, rfl⟩)⟩
    | needlessResult _ hoperands hkind htype =>
        exact Or.inr ⟨hoperands, Or.inl (Or.inr (Or.inl ⟨hkind, htype, rfl⟩))⟩
    | lacksResult _ hoperands hkind htype =>
        exact Or.inr ⟨hoperands, Or.inl (Or.inr (Or.inr ⟨hkind, htype, rfl⟩))⟩
    | scheduledAgain _ hoperands hresult hagain =>
        exact Or.inr ⟨hoperands, Or.inr ⟨hresult, hagain, rfl⟩⟩
  · rintro (⟨before, operand, after, hoperands, hbefore, hoperand⟩ | ⟨hoperands, hresult⟩)
    · rcases hoperand with ⟨hmissing, rfl⟩ | ⟨hexists, hearly, rfl⟩
      · exact .noSuchOperand hcount before operand after hoperands hbefore hmissing
      · exact .usedTooEarly hcount before operand after hoperands hbefore hexists hearly
    · rcases hresult with (⟨hkind, rfl⟩ | ⟨hkind, htype, rfl⟩ | ⟨hkind, htype, rfl⟩) |
        ⟨hresult, hagain, rfl⟩
      · exact .paramInSchedule hcount hoperands hkind
      · exact .needlessResult hcount hoperands hkind htype
      · exact .lacksResult hcount hoperands hkind htype
      · exact .scheduledAgain hcount hoperands hresult hagain

/-- With another number of operands, this number is the first fault. -/
theorem firstFault_iff_of_not_accepts {defined : ValueId → Prop}
    (hcount : op.kind.accepts op.operands.length = false) :
    kernel.FirstFault defined op fault ↔
      fault = .operandCount op.id op.kind op.operands.length := by
  constructor
  · intro h
    cases h with
    | operandCount _ => rfl
    | noSuchOperand hright | usedTooEarly hright | paramInSchedule hright
    | needlessResult hright | lacksResult hright | scheduledAgain hright =>
        rw [hcount] at hright
        cases hright
  · rintro rfl
    exact .operandCount hcount

/-- The check of one operation fails with its first fault. -/
theorem checkOperation_eq_error_iff :
    kernel.checkOperation defined op = .error fault ↔
      kernel.FirstFault (· ∈ defined) op fault := by
  cases hcount : op.kind.accepts op.operands.length with
  | false =>
      rw [checkOperation_of_not_accepts hcount, firstFault_iff_of_not_accepts hcount,
        Except.error.injEq]
      exact eq_comm
  | true =>
      have hagain : (if op.id ∈ defined then Except.error (.scheduledAgain op.id) else .ok ()) =
          (.error fault : Except KernelFault Unit) ↔
            op.id ∈ defined ∧ fault = .scheduledAgain op.id := by
        by_cases hdefined : op.id ∈ defined
        · simp [hdefined, eq_comm]
        · simp [hdefined]
      rw [checkOperation_of_accepts hcount, firstFault_iff_of_accepts hcount, then_eq_error_iff,
        then_eq_error_iff, forM_checkOperand_eq_error_iff, forM_checkOperand_eq_ok_iff,
        checkResult_eq_ok_iff, hagain]

end Operation

/-! ## The schedule -/

/-- A list is cut at one of its positions. -/
theorem exists_split_of_getElem? {α : Type} {xs : List α} {position : Nat} {x : α}
    (h : xs[position]? = some x) :
    ∃ before after, xs = before ++ x :: after ∧ before.length = position := by
  obtain ⟨hlt, rfl⟩ := List.getElem?_eq_some_iff.mp h
  refine ⟨xs.take position, xs.drop (position + 1), ?_, ?_⟩
  · rw [List.getElem_cons_drop, List.take_append_drop]
  · rw [List.length_take]
    omega

/-- The check of operations fails at the first one that is not in order after those before it. -/
theorem checkOperations_eq_error_iff {kernel : Kernel} {defined : ValueSet}
    {ops : List Operation} {fault : KernelFault} :
    kernel.checkOperations defined ops = .error fault ↔
      ∃ before op after, ops = before ++ op :: after ∧
        kernel.checkOperations defined before = .ok () ∧
        kernel.checkOperation
          ((before.map (·.id)).foldl Std.ExtTreeSet.insert defined) op = .error fault := by
  induction ops generalizing defined with
  | nil =>
      refine ⟨nofun, fun ⟨before, op, after, hops, _⟩ => ?_⟩
      simp at hops
  | cons first rest ih =>
      have hstep : ∀ more, kernel.checkOperations defined (first :: more) = (do
          kernel.checkOperation defined first
          kernel.checkOperations (defined.insert first.id) more) := fun more => rfl
      rw [hstep, then_eq_error_iff, ih]
      constructor
      · rintro (hfirst | ⟨hfirst, before, op, after, rfl, hbefore, hop⟩)
        · exact ⟨[], first, rest, rfl, rfl, hfirst⟩
        · refine ⟨first :: before, op, after, rfl, ?_, hop⟩
          rw [hstep, then_eq_ok_iff]
          exact ⟨hfirst, hbefore⟩
      · rintro ⟨before, op, after, hops, hbefore, hop⟩
        cases before with
        | nil =>
            obtain ⟨rfl, rfl⟩ := List.cons.inj hops
            exact Or.inl hop
        | cons head before =>
            obtain ⟨rfl, rfl⟩ := List.cons.inj hops
            rw [hstep, then_eq_ok_iff] at hbefore
            exact Or.inr ⟨hbefore.1, before, op, after, rfl, hbefore.2, hop⟩

/-- A value is defined before a position of the schedule: it is a parameter, or it stands at an
earlier position. -/
def DefinedBefore (kernel : Kernel) (position : Nat) (id : ValueId) : Prop :=
  (∃ param ∈ kernel.params, param.id = id) ∨
    ∃ earlier < position, kernel.schedule[earlier]? = some id

/-- The operation at a position of the schedule, if there is one, exists and is in order. -/
def FitsAt (kernel : Kernel) (position : Nat) : Prop :=
  ∀ id, kernel.schedule[position]? = some id → ∃ op, kernel.operation? id = some op ∧
    kernel.Admits (kernel.DefinedBefore position) op

section Schedule

variable {kernel : Kernel} (hschedule : ∀ id ∈ kernel.schedule, id < kernel.size)

include hschedule

variable {before after : List Operation} {op : Operation}
  (hops : kernel.operations = before ++ op :: after)

include hops

theorem schedule_of_operations :
    kernel.schedule = before.map (·.id) ++ op.id :: after.map (·.id) := by
  rw [← map_id_operations_of_lt hschedule, hops, List.map_append, List.map_cons]

/-- The values that the check has noted when it comes to an operation. -/
theorem mem_defined_iff_definedBefore :
    (· ∈ (before.map (·.id)).foldl Std.ExtTreeSet.insert kernel.paramIds) =
      kernel.DefinedBefore before.length := by
  funext id
  have htake : kernel.schedule.take before.length = before.map (·.id) := by
    rw [schedule_of_operations hschedule hops]
    exact List.take_left' (List.length_map _)
  have hearlier : id ∈ before.map (·.id) ↔
      ∃ earlier < before.length, kernel.schedule[earlier]? = some id := by
    rw [← htake, List.mem_iff_getElem?]
    simp [List.getElem?_take]
  rw [eq_iff_iff, mem_defined, hearlier, List.mem_map]
  rfl

theorem fitsAt_iff :
    kernel.FitsAt before.length ↔
      kernel.checkOperation
        ((before.map (·.id)).foldl Std.ExtTreeSet.insert kernel.paramIds) op = .ok () := by
  have hid : kernel.schedule[before.length]? = some op.id := by
    rw [schedule_of_operations hschedule hops]
    simp
  have hop : kernel.operation? op.id = some op :=
    operation?_of_mem (hops ▸ List.mem_append_right _ List.mem_cons_self)
  rw [checkOperation_eq_ok_iff, mem_defined_iff_definedBefore hschedule hops]
  constructor
  · intro hfits
    obtain ⟨found, hfound, hadmits⟩ := hfits op.id hid
    rw [hop] at hfound
    cases hfound
    exact hadmits
  · intro hadmits id hscheduled
    rw [hid] at hscheduled
    cases hscheduled
    exact ⟨op, hop, hadmits⟩

omit hops

/-- The check gets past the first positions of the schedule if and only if they are in order. -/
theorem checkOperations_eq_ok_iff_fitsAt {done rest : List Operation}
    (hops : kernel.operations = done ++ rest) :
    kernel.checkOperations kernel.paramIds done = .ok () ↔
      ∀ position < done.length, kernel.FitsAt position := by
  rw [checkOperations_eq_ok_iff]
  constructor
  · intro h position hposition
    obtain ⟨before, after, hdone, rfl⟩ :=
      exists_split_of_getElem? (List.getElem?_eq_getElem hposition)
    have hall : kernel.operations = before ++ done[before.length] :: (after ++ rest) := by
      rw [hops, ← List.cons_append, ← List.append_assoc, ← hdone]
    exact (fitsAt_iff hschedule hall).mpr (h _ _ _ hdone)
  · intro h before op after hdone
    have hall : kernel.operations = before ++ op :: (after ++ rest) := by
      rw [hops, hdone, List.append_assoc, List.cons_append]
    refine (fitsAt_iff hschedule hall).mp (h before.length ?_)
    rw [hdone, List.length_append, List.length_cons]
    omega

/-- A scheduled id is the id of the operation at its position. -/
theorem exists_operations_of_schedule {position : Nat} {id : ValueId}
    (hid : kernel.schedule[position]? = some id) (hop : kernel.operation? id = some op) :
    ∃ before after, kernel.operations = before ++ op :: after ∧ before.length = position := by
  rw [← map_id_operations_of_lt hschedule, List.getElem?_map, Option.map_eq_some_iff] at hid
  obtain ⟨found, hfound, rfl⟩ := hid
  rw [operation?_of_mem (List.mem_of_getElem? hfound)] at hop
  cases hop
  exact exists_split_of_getElem? hfound

end Schedule

/-- **The check of a kernel is sound and complete, and blames the first fault.** It succeeds if and
only if every position of the schedule is in order: as many operands as the kind takes, all of them
existing and defined before, a kind that is no parameter, a result if and only if the kind asks for
one, and an id that is not defined before. It fails if and only if some position is not, and the
fault it reports is the first one at the first such position. The schedule has to list ids that
exist, as it does in every kernel that is built step by step (`Built.lt_size`). -/
theorem check_blames_first_fault {kernel : Kernel}
    (hschedule : ∀ id ∈ kernel.schedule, id < kernel.size) :
    (kernel.check = .ok () ↔ ∀ position, kernel.FitsAt position) ∧
      ∀ fault, kernel.check = .error fault ↔
        ∃ position id op, kernel.schedule[position]? = some id ∧ kernel.operation? id = some op ∧
          (∀ earlier < position, kernel.FitsAt earlier) ∧
          kernel.FirstFault (kernel.DefinedBefore position) op fault := by
  constructor
  · have hlength : kernel.operations.length = kernel.schedule.length := by
      rw [← map_id_operations_of_lt hschedule, List.length_map]
    have hok := checkOperations_eq_ok_iff_fitsAt hschedule (List.append_nil kernel.operations).symm
    rw [hlength] at hok
    refine hok.trans ⟨fun h position => ?_, fun h position _ => h position⟩
    -- there is nothing to check behind the end of the schedule
    by_cases hposition : position < kernel.schedule.length
    · exact h position hposition
    · intro id hid
      rw [List.getElem?_eq_none (Nat.not_lt.mp hposition)] at hid
      cases hid
  · intro fault
    unfold check
    rw [checkOperations_eq_error_iff]
    constructor
    · rintro ⟨before, op, after, hops, hbefore, hfault⟩
      rw [checkOperation_eq_error_iff, mem_defined_iff_definedBefore hschedule hops] at hfault
      refine ⟨before.length, op.id, op, ?_, ?_, ?_, hfault⟩
      · rw [schedule_of_operations hschedule hops]
        simp
      · exact operation?_of_mem (hops ▸ List.mem_append_right _ List.mem_cons_self)
      · exact (checkOperations_eq_ok_iff_fitsAt hschedule hops).mp hbefore
    · rintro ⟨position, id, op, hid, hop, hearlier, hfault⟩
      obtain ⟨before, after, hops, rfl⟩ :=
        exists_operations_of_schedule hschedule hid hop
      refine ⟨before, op, after, hops, ?_, ?_⟩
      · exact (checkOperations_eq_ok_iff_fitsAt hschedule hops).mpr hearlier
      · rw [checkOperation_eq_error_iff, mem_defined_iff_definedBefore hschedule hops]
        exact hfault

/-- The second operation has an operand that is only defined after it, and then one that does not
exist. The first of the two is blamed, and so is this operation and not the one after it, a store
with a result. -/
theorem early_operand_is_blamed :
    let kernel : Kernel :=
      ⟨"k", [⟨0, "img", some .pointer, false⟩],
        #[⟨.param, some .pointer, []⟩, ⟨.load, some .scalar, [0]⟩,
          ⟨.address, some .pointer, [0, 3, 9]⟩, ⟨.store, some .scalar, [2, 1]⟩], [1, 2, 3], ∅⟩
    (∀ id ∈ kernel.schedule, id < kernel.size) ∧
      kernel.check = .error (.usedTooEarly 2 3) ∧ (¬ ∀ position, kernel.FitsAt position) ∧
      ∃ position id op, kernel.schedule[position]? = some id ∧ kernel.operation? id = some op ∧
        (∀ earlier < position, kernel.FitsAt earlier) ∧
        kernel.FirstFault (kernel.DefinedBefore position) op (.usedTooEarly 2 3) := by
  intro kernel
  have hschedule : ∀ id ∈ kernel.schedule, id < kernel.size := by decide
  have hcheck : kernel.check = .error (.usedTooEarly 2 3) := by decide +kernel
  obtain ⟨hok, herror⟩ := check_blames_first_fault hschedule
  refine ⟨hschedule, hcheck, fun hfits => ?_, (herror _).mp hcheck⟩
  rw [hok.mpr hfits] at hcheck
  cases hcheck

end Kernel

end BufferPromotion
