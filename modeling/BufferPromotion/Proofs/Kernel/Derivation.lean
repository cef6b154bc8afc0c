import BufferPromotion.Kernel.Chain
import BufferPromotion.Proofs.Kernel.Following
import Mathlib.Logic.Relation

/-! # Derivations of pointers

A reinterpretation or an address computation derives its result from its base. The bases that
`Kernel.derivationBases` lists are those that are reached by such steps, no matter whether the
kernel is valid: the list is cut off after as many steps as the kernel has nodes, and a way of
more steps passes some node twice.
-/

set_option autoImplicit false

namespace BufferPromotion

theorem NodeKind.isDerivation_iff {kind : NodeKind} :
    kind.isDerivation = true ↔ kind = .reinterpret ∨ kind = .address := by
  cases kind <;> simp [isDerivation]

namespace Kernel

/-! ## One step and many steps -/

/-- The value that a value is derived from, by a reinterpretation or an address computation. -/
def derivedFrom? (kernel : Kernel) (id : ValueId) : Option ValueId :=
  (kernel.operation? id).bind fun op => if op.kind.isDerivation then op.base else none

/-- One step back: a value is derived from another one. -/
def DerivedFrom (kernel : Kernel) (id base : ValueId) : Prop := kernel.derivedFrom? id = some base

/-- Any number of steps back, none included. -/
def LeadsTo (kernel : Kernel) (id target : ValueId) : Prop :=
  Relation.ReflTransGen kernel.DerivedFrom id target

/-- The value that a number of steps lead back to. -/
def walk (kernel : Kernel) : Nat → ValueId → Option ValueId
  | 0, id => some id
  | steps + 1, id => (kernel.derivedFrom? id).bind (kernel.walk steps)

variable {kernel : Kernel}

theorem operation?_id {id : ValueId} {op : Operation} (h : kernel.operation? id = some op) :
    op.id = id := by
  obtain ⟨node, -, rfl⟩ := Option.map_eq_some_iff.mp h
  rfl

theorem operation?_of_mem {op : Operation} (h : op ∈ kernel.operations) :
    kernel.operation? op.id = some op := by
  obtain ⟨id, -, hop⟩ := List.mem_filterMap.mp h
  rw [operation?_id hop, hop]

/-- Operations with the same id are the same. -/
theorem eq_of_mem_operations {op other : Operation} (hop : op ∈ kernel.operations)
    (hother : other ∈ kernel.operations) (hid : op.id = other.id) : op = other := by
  have hfound := operation?_of_mem hop
  rw [hid, operation?_of_mem hother] at hfound
  exact (Option.some.inj hfound).symm

theorem derivedFrom_iff {id base : ValueId} :
    kernel.DerivedFrom id base ↔
      ∃ op, kernel.operation? id = some op ∧ op.kind.isDerivation = true ∧ op.base = some base := by
  unfold DerivedFrom derivedFrom?
  rw [Option.bind_eq_some_iff]
  refine exists_congr fun op => and_congr_right fun _ => ?_
  split <;> simp_all

theorem lt_size_of_operation? {id : ValueId} {op : Operation}
    (h : kernel.operation? id = some op) : id < kernel.size := by
  obtain ⟨node, hnode, -⟩ := Option.map_eq_some_iff.mp h
  exact (Array.getElem?_eq_some_iff.mp hnode).1

theorem DerivedFrom.lt_size {id base : ValueId} (h : kernel.DerivedFrom id base) :
    id < kernel.size := by
  obtain ⟨op, hop, -⟩ := derivedFrom_iff.mp h
  exact lt_size_of_operation? hop

theorem walk_eq_follow : kernel.walk = follow kernel.derivedFrom? := by
  funext n id
  induction n generalizing id with
  | zero => rfl
  | succ n ih => exact congrArg _ (funext ih)

theorem leadsTo_iff {id target : ValueId} :
    kernel.LeadsTo id target ↔ ∃ n, kernel.walk n id = some target := by
  constructor
  · intro h
    induction h using Relation.ReflTransGen.head_induction_on with
    | refl => exact ⟨0, rfl⟩
    | head hstep _ ih =>
        obtain ⟨n, hn⟩ := ih
        exact ⟨n + 1, Option.bind_eq_some_iff.mpr ⟨_, hstep, hn⟩⟩
  · rintro ⟨n, hn⟩
    induction n generalizing id with
    | zero =>
        cases hn
        exact .refl
    | succ n ih =>
        obtain ⟨base, hstep, hn⟩ := Option.bind_eq_some_iff.mp hn
        exact .head hstep (ih hn)

/-- A way back that is not over yet goes on with the only step there is. -/
theorem LeadsTo.eq_or_of_derivedFrom {id base target : ValueId} (h : kernel.LeadsTo id target)
    (hstep : kernel.DerivedFrom id base) : target = id ∨ kernel.LeadsTo base target := by
  rcases h.cases_head with rfl | ⟨base', hstep', hrest⟩
  · exact Or.inl rfl
  · rw [DerivedFrom, hstep] at hstep'
    cases hstep'
    exact Or.inr hrest

/-- A value that is derived from none leads nowhere else. -/
theorem LeadsTo.eq_of_derivedFrom?_eq_none {id target : ValueId} (h : kernel.LeadsTo id target)
    (hnone : kernel.derivedFrom? id = none) : target = id := by
  rcases h.cases_head with rfl | ⟨base, hstep, -⟩
  · rfl
  · rw [DerivedFrom, hnone] at hstep
    cases hstep

/-! ## Short ways suffice -/

/-- A value that is reached at all is reached by no more steps than there are nodes. -/
theorem exists_walk_le_size {n : Nat} {id target : ValueId}
    (h : kernel.walk n id = some target) :
    ∃ m ≤ kernel.size, kernel.walk m id = some target := by
  rw [walk_eq_follow] at h ⊢
  exact exists_follow_le_size (fun _ _ => DerivedFrom.lt_size) h

/-- A node that is reached at all is reached by fewer steps than there are nodes. -/
theorem exists_walk_lt_size {n : Nat} {id target : ValueId} (htarget : target < kernel.size)
    (h : kernel.walk n id = some target) : ∃ m < kernel.size, kernel.walk m id = some target := by
  rw [walk_eq_follow] at h ⊢
  exact exists_follow_lt_size (fun _ _ => DerivedFrom.lt_size) htarget h

/-! ## The listed bases -/

/-- The bases among the first nodes of a way back. -/
def basesWithin (kernel : Kernel) (fuel : Nat) (id : ValueId) : List ValueId :=
  ((kernel.chainWithin fuel id).takeWhile (·.kind.isDerivation)).filterMap (·.base)

theorem basesWithin_succ (fuel : Nat) (id : ValueId) :
    kernel.basesWithin (fuel + 1) id =
      (kernel.derivedFrom? id).elim [] fun base => base :: kernel.basesWithin fuel base := by
  unfold basesWithin derivedFrom?
  rw [chainWithin]
  cases kernel.operation? id with
  | none => rfl
  | some op =>
      dsimp only [Option.bind_some]
      cases hbase : op.base with
      | none => cases hkind : op.kind.isDerivation <;> simp [hbase, hkind]
      | some base => cases hkind : op.kind.isDerivation <;> simp [hbase, hkind]

theorem mem_basesWithin {fuel : Nat} {id target : ValueId} :
    target ∈ kernel.basesWithin fuel id ↔ ∃ n < fuel, kernel.walk (n + 1) id = some target := by
  induction fuel generalizing id with
  | zero => simp [basesWithin, chainWithin]
  | succ fuel ih =>
      rw [basesWithin_succ]
      show _ ↔ ∃ n < fuel + 1, (kernel.derivedFrom? id).bind (kernel.walk n) = some target
      cases kernel.derivedFrom? id with
      | none => simp
      | some base =>
          show target ∈ base :: kernel.basesWithin fuel base ↔
            ∃ n < fuel + 1, kernel.walk n base = some target
          rw [List.mem_cons, ih]
          -- the head of the list is reached by one step, the rest from there
          constructor
          · rintro (rfl | ⟨n, hn, h⟩)
            · exact ⟨0, Nat.succ_pos _, rfl⟩
            · exact ⟨n + 1, Nat.succ_lt_succ hn, h⟩
          · rintro ⟨n, hn, h⟩
            cases n with
            | zero => exact Or.inl (Option.some.inj h).symm
            | succ n => exact Or.inr ⟨n, Nat.lt_of_succ_lt_succ hn, h⟩

/-- A pointer and the bases listed for it are all the values that it leads to. -/
theorem mem_cons_derivationBases {id target : ValueId} :
    target ∈ id :: kernel.derivationBases id ↔ kernel.LeadsTo id target := by
  show target ∈ id :: kernel.basesWithin kernel.size id ↔ _
  rw [List.mem_cons, mem_basesWithin, leadsTo_iff]
  constructor
  · rintro (rfl | ⟨n, -, h⟩)
    · exact ⟨0, rfl⟩
    · exact ⟨n + 1, h⟩
  · rintro ⟨n, h⟩
    obtain ⟨m, hm, h⟩ := exists_walk_le_size h
    cases m with
    | zero => exact Or.inl (Option.some.inj h).symm
    | succ m => exact Or.inr ⟨m, hm, h⟩

/-! ## The start of a buffer -/

/-- A way back that ends at a node which derives nothing is seen by the chain, if the chain is
long enough. -/
theorem find?_chainWithin {n fuel : Nat} {id target : ValueId} {op : Operation} (hn : n < fuel)
    (h : kernel.walk n id = some target) (hop : kernel.operation? target = some op)
    (hkind : op.kind.isDerivation = false) :
    (kernel.chainWithin fuel id).find? (!·.kind.isDerivation) = some op := by
  induction n generalizing id fuel with
  | zero =>
      cases h
      obtain ⟨fuel, rfl⟩ := Nat.exists_eq_succ_of_ne_zero (Nat.ne_zero_of_lt hn)
      rw [chainWithin, hop]
      dsimp only
      split <;> simp [hkind]
  | succ n ih =>
      obtain ⟨fuel, rfl⟩ := Nat.exists_eq_succ_of_ne_zero (Nat.ne_zero_of_lt hn)
      obtain ⟨base, hstep, h⟩ := Option.bind_eq_some_iff.mp h
      -- the first node of the way is itself derived, so the search goes past it
      obtain ⟨first, hfirst, hderives, hbase⟩ := derivedFrom_iff.mp hstep
      rw [chainWithin, hfirst]
      dsimp only
      rw [hbase]
      dsimp only
      rw [List.find?_cons_of_neg (by simp [hderives])]
      exact ih (Nat.lt_of_succ_lt_succ hn) h

/-- The chain of a value lists nodes of the kernel. -/
theorem operation?_of_mem_chainWithin {fuel : Nat} {id : ValueId} {op : Operation}
    (h : op ∈ kernel.chainWithin fuel id) : kernel.operation? op.id = some op := by
  induction fuel generalizing id with
  | zero => exact absurd h List.not_mem_nil
  | succ fuel ih =>
      rw [chainWithin] at h
      cases hop : kernel.operation? id with
      | none =>
          rw [hop] at h
          exact absurd h List.not_mem_nil
      | some first =>
          have hfirst : kernel.operation? first.id = some first := by
            rw [operation?_id hop, hop]
          rw [hop] at h
          cases hbase : first.base with
          | none =>
              simp only [hbase, List.mem_singleton] at h
              rw [h, hfirst]
          | some base =>
              simp only [hbase, List.mem_cons] at h
              rcases h with rfl | hlater
              · exact hfirst
              · exact ih hlater

/-- The start of a buffer is a pointer parameter or an extracted pointer. -/
theorem exists_start_of_bufferStart {id start : ValueId} (h : kernel.bufferStart id = some start) :
    ∃ op, kernel.operation? start = some op ∧
      (op.kind = .param ∨ ∃ field, op.kind = .extract field) ∧ op.givesPointer = true := by
  obtain ⟨op, hfind, hstart⟩ := Option.bind_eq_some_iff.mp h
  have hnode := operation?_of_mem_chainWithin (List.mem_of_find?_eq_some hfind)
  cases hkind : op.kind with
  | param | extract field =>
      rw [hkind] at hstart
      dsimp only at hstart
      split at hstart
      · next hpointer =>
        cases hstart
        exact ⟨op, hnode, by simp [hkind], hpointer⟩
      · cases hstart
  | reinterpret | address | load | store | other name =>
      rw [hkind] at hstart
      cases hstart

/-- The buffer of a pointer starts at the pointer parameter, or the extracted pointer, that it
leads to. -/
theorem bufferStart_of_leadsTo {id target : ValueId} {op : Operation}
    (h : kernel.LeadsTo id target) (hop : kernel.operation? target = some op)
    (hkind : op.kind = .param ∨ ∃ field, op.kind = .extract field)
    (hpointer : op.givesPointer = true) : kernel.bufferStart id = some target := by
  have hderives : op.kind.isDerivation = false := by
    rcases hkind with hkind | ⟨field, hkind⟩ <;> rw [hkind] <;> rfl
  obtain ⟨n, hn⟩ := leadsTo_iff.mp h
  obtain ⟨m, hm, hwalk⟩ := exists_walk_lt_size (lt_size_of_operation? hop) hn
  have hfind : (kernel.chain id).find? (!·.kind.isDerivation) = some op :=
    find?_chainWithin hm hwalk hop hderives
  unfold bufferStart
  rw [hfind, ← operation?_id hop]
  rcases hkind with hkind | ⟨field, hkind⟩ <;> simp [hkind, hpointer]

/-- The start of a buffer starts its own buffer. -/
theorem bufferStart_self {id start : ValueId} (h : kernel.bufferStart id = some start) :
    kernel.bufferStart start = some start := by
  obtain ⟨op, hop, hkind, hpointer⟩ := exists_start_of_bufferStart h
  exact bufferStart_of_leadsTo .refl hop hkind hpointer

end Kernel

end BufferPromotion
