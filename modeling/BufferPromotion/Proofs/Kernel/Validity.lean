import BufferPromotion.Kernel.Builder
import BufferPromotion.Kernel.Validity

/-! # What the check of a kernel promises

`Kernel.Admits` says when an operation is in order, given the values that are defined before it,
without referring to the check. The check walks the schedule with the set of values defined so far.
It accepts an operation if and only if it is in order (`checkOperation_eq_ok_iff`), and succeeds if
and only if every operation fits after those before it (`check_eq_ok_iff`).
-/

set_option autoImplicit false

namespace BufferPromotion

theorem ValueSet.mem_insert {set : ValueSet} {id new : ValueId} :
    id ∈ set.insert new ↔ id = new ∨ id ∈ set := by
  rw [Std.ExtTreeSet.mem_insert, Std.LawfulEqCmp.compare_eq_iff_eq, eq_comm]

theorem ValueSet.mem_insertAll {set : ValueSet} {ids : List ValueId} {id : ValueId} :
    id ∈ ids.foldl Std.ExtTreeSet.insert set ↔ id ∈ ids ∨ id ∈ set := by
  induction ids generalizing set with
  | nil => simp
  | cons first ids ih =>
      rw [List.foldl_cons, ih, ValueSet.mem_insert, List.mem_cons, or_left_comm, or_assoc]

theorem Node.mem_operands_of_base {node : Node} {base : ValueId} (h : node.base = some base) :
    base ∈ node.operands := by
  unfold Node.base at h
  split at h
  · exact List.mem_of_mem_head? h
  · cases h

theorem NodeKind.accepts_iff {kind : NodeKind} {count : Nat} :
    kind.accepts count = true ↔
      kind.minOperands ≤ count ∧ ∀ most ∈ kind.maxOperands, count ≤ most := by
  unfold accepts
  rw [Bool.and_eq_true, decide_eq_true_iff, Option.all_eq_true]
  simp only [decide_eq_true_iff, Option.mem_def]

theorem Node.givesPointer_iff {node : Node} :
    node.givesPointer = true ↔ node.type = some .pointer := by
  unfold Node.givesPointer
  cases node.type with
  | none => exact ⟨nofun, nofun⟩
  | some type => cases type <;> simp [ValueType.isPointer]

/-! ## Operations that are in order -/

/-- The result of a node fits its kind: a store has none, projections and loads have one, and a
parameter is no operation. -/
structure Node.ResultFits (node : Node) : Prop where
  operation : node.kind ≠ .param
  store : node.kind = .store → node.type = none
  value : node.kind.isProjection = true ∨ node.kind = .load → node.type ≠ none

namespace Kernel

/-- An operation is in order, given the values that are defined before it. -/
structure Admits (kernel : Kernel) (defined : ValueId → Prop) (op : Operation) : Prop where
  count : op.kind.accepts op.operands.length = true
  operands : ∀ operand ∈ op.operands, operand < kernel.size ∧ defined operand
  result : op.toNode.ResultFits
  fresh : ¬ defined op.id

/-- An operation fits after those before it: it is in order, given the parameters and what those
before it define. -/
def Fits (kernel : Kernel) (before : List Operation) (op : Operation) : Prop :=
  kernel.Admits (fun id => id ∈ kernel.params.map (·.id) ∨ id ∈ before.map (·.id)) op

section Fits

variable {kernel : Kernel} {before : List Operation} {op : Operation} (h : kernel.Fits before op)

include h

theorem Fits.defined : ∀ operand ∈ op.operands,
    operand ∈ kernel.params.map (·.id) ∨ operand ∈ before.map (·.id) :=
  fun operand hoperand => (h.operands operand hoperand).2

theorem Fits.notParam : op.id ∉ kernel.params.map (·.id) := fun hparam => h.fresh (Or.inl hparam)

theorem Fits.notEarlier : op.id ∉ before.map (·.id) := fun hearlier => h.fresh (Or.inr hearlier)

end Fits

/-! ## One operation -/

/-- Two checks in a row succeed if both do. -/
theorem then_eq_ok_iff {ε : Type} {first second : Except ε Unit} :
    (do first; second) = .ok () ↔ first = .ok () ∧ second = .ok () := by
  cases first with
  | error e => exact ⟨nofun, fun h => nomatch h.1⟩
  | ok _ => exact ⟨fun h => ⟨rfl, h⟩, fun h => h.2⟩

theorem forM_eq_ok_iff {α ε : Type} {f : α → Except ε Unit} {xs : List α} :
    xs.forM f = .ok () ↔ ∀ x ∈ xs, f x = .ok () := by
  induction xs with
  | nil => exact ⟨fun _ x hx => absurd hx List.not_mem_nil, fun _ => rfl⟩
  | cons x xs ih =>
      rw [List.forall_mem_cons, ← ih]
      exact then_eq_ok_iff

theorem checkOperand_eq_ok_iff {kernel : Kernel} {defined : ValueSet} {op operand : ValueId} :
    kernel.checkOperand defined op operand = .ok () ↔
      operand < kernel.size ∧ operand ∈ defined := by
  unfold checkOperand size
  split
  · next hmissing => exact ⟨nofun, fun h => absurd h.1 (Nat.not_lt.mpr hmissing)⟩
  · next hexists =>
    split
    · next hdefined => exact ⟨fun _ => ⟨Nat.not_le.mp hexists, hdefined⟩, fun _ => rfl⟩
    · next hlate => exact ⟨nofun, fun h => absurd h.2 hlate⟩

theorem checkResult_eq_ok_iff {op : Operation} :
    checkResult op = .ok () ↔ op.toNode.ResultFits := by
  obtain ⟨⟨kind, type, operands⟩, id⟩ := op
  constructor
  · intro h
    cases kind with
    | param => cases h
    | other name => exact ⟨nofun, nofun, nofun⟩
    | store =>
        cases type with
        | none => exact ⟨nofun, fun _ => rfl, nofun⟩
        | some type => cases h
    | extract field | reinterpret | address | load =>
        cases type with
        | none => cases h
        | some type => exact ⟨nofun, nofun, fun _ => nofun⟩
  · rintro ⟨hoperation, hstore, hvalue⟩
    cases kind with
    | param => exact absurd rfl hoperation
    | other name => rfl
    | store =>
        have htype : type = none := hstore rfl
        rw [htype]
        rfl
    | extract field | reinterpret | address | load =>
        have htype : type ≠ none := hvalue (by simp [NodeKind.isProjection])
        obtain ⟨type, rfl⟩ := Option.ne_none_iff_exists'.mp htype
        rfl

/-- The check of one operation succeeds if and only if the operation is in order. -/
theorem checkOperation_eq_ok_iff {kernel : Kernel} {defined : ValueSet} {op : Operation} :
    kernel.checkOperation defined op = .ok () ↔ kernel.Admits (· ∈ defined) op := by
  have hoperands : op.operands.forM (kernel.checkOperand defined op.id) = .ok () ↔
      ∀ operand ∈ op.operands, operand < kernel.size ∧ operand ∈ defined := by
    rw [forM_eq_ok_iff]
    exact forall₂_congr fun operand _ => checkOperand_eq_ok_iff
  have hfresh : (if op.id ∈ defined then .error (.scheduledAgain op.id) else .ok () :
      Except KernelFault Unit) = .ok () ↔ op.id ∉ defined := by
    split
    · next hdefined => exact ⟨nofun, fun h => absurd hdefined h⟩
    · next hnew => exact ⟨fun _ => hnew, fun _ => rfl⟩
  unfold checkOperation
  cases hcount : op.kind.accepts op.operands.length with
  | false =>
      refine ⟨nofun, fun h => ?_⟩
      rw [h.count] at hcount
      cases hcount
  | true =>
      show (do
        op.operands.forM (kernel.checkOperand defined op.id)
        checkResult op
        if op.id ∈ defined then .error (.scheduledAgain op.id) else .ok ()) = .ok () ↔ _
      rw [then_eq_ok_iff, then_eq_ok_iff, hoperands, checkResult_eq_ok_iff, hfresh]
      exact ⟨fun ⟨hknown, hresult, hnew⟩ => ⟨hcount, hknown, hresult, hnew⟩,
        fun h => ⟨h.operands, h.result, h.fresh⟩⟩

/-! ## All operations -/

theorem checkOperations_eq_ok_iff {kernel : Kernel} {defined : ValueSet} {ops : List Operation} :
    kernel.checkOperations defined ops = .ok () ↔
      ∀ before op after, ops = before ++ op :: after →
        kernel.checkOperation
          ((before.map (·.id)).foldl Std.ExtTreeSet.insert defined) op = .ok () := by
  induction ops generalizing defined with
  | nil =>
      refine ⟨fun _ before op after h => ?_, fun _ => rfl⟩
      simp at h
  | cons first rest ih =>
      show (do
        kernel.checkOperation defined first
        kernel.checkOperations (defined.insert first.id) rest) = .ok () ↔ _
      rw [then_eq_ok_iff, ih]
      -- the position of an operation is the first one or one among the rest
      constructor
      · rintro ⟨hfirst, hrest⟩ before op after h
        cases before with
        | nil =>
            obtain ⟨rfl, rfl⟩ := List.cons.inj h
            exact hfirst
        | cons head before =>
            obtain ⟨rfl, rfl⟩ := List.cons.inj h
            exact hrest before op after rfl
      · intro h
        refine ⟨h [] first rest rfl, fun before op after hrest => ?_⟩
        exact h (first :: before) op after (by rw [hrest]; rfl)

theorem mem_defined {kernel : Kernel} {ids : List ValueId} {id : ValueId} :
    id ∈ ids.foldl Std.ExtTreeSet.insert kernel.paramIds ↔
      id ∈ kernel.params.map (·.id) ∨ id ∈ ids := by
  rw [ValueSet.mem_insertAll, or_comm]
  refine or_congr_left ?_
  unfold paramIds
  rw [Std.ExtTreeSet.mem_ofList, List.contains_iff_mem]

/-- The check succeeds if and only if every operation fits after those before it. -/
theorem check_eq_ok_iff {kernel : Kernel} :
    kernel.check = .ok () ↔
      ∀ before op after, kernel.operations = before ++ op :: after → kernel.Fits before op := by
  -- the values defined before a position are the parameters and the results up to there
  unfold check
  rw [checkOperations_eq_ok_iff]
  refine forall₃_congr fun before op after => imp_congr_right fun _ => ?_
  rw [checkOperation_eq_ok_iff]
  simp only [mem_defined]
  rfl

end Kernel

end BufferPromotion
