import BufferPromotion.Proofs.Kernel.Following
import BufferPromotion.Proofs.Kernel.Walk

/-! # Chains that are cut off

The chain of a value is cut off after as many nodes as the kernel has. A chain that goes on past
that only repeats nodes (`Kernel.chainWithin_subset_chain`), so a walk finds the same answer along
the chain wherever it is cut off later (`Kernel.along_chainWithin`), and a walk that ends gives that
answer in any kernel, valid or not (`Kernel.along_chain_of_run`).
-/

set_option autoImplicit false

namespace BufferPromotion

/-! ## Walks along a chain -/

namespace Walk

variable {α : Type} {walk : Walk α} {kernel : Kernel}

/-- The answer that a walk finds along the nodes of a chain. -/
def along (walk : Walk α) : List Operation → Option α
  | [] => none
  | op :: rest => if walk.endsAt op then walk.answer op else (walk.along rest).map (walk.pass op)

theorem along_eq_none {ops : List Operation} (h : ∀ op ∈ ops, walk.endsAt op = false) :
    walk.along ops = none := by
  induction ops with
  | nil => rfl
  | cons op ops ih =>
      rw [List.forall_mem_cons] at h
      rw [along, h.1, ih h.2]
      rfl

/-- Nodes that were there before add nothing to a chain. -/
theorem along_append {ops more : List Operation} (h : more ⊆ ops) :
    walk.along (ops ++ more) = walk.along ops := by
  by_cases hends : ∃ op ∈ ops, walk.endsAt op = true
  · clear h
    induction ops with
    | nil => exact absurd hends (by simp)
    | cons op ops ih =>
        rw [List.cons_append, along, along]
        cases hop : walk.endsAt op with
        | true => rfl
        | false =>
            obtain ⟨other, hother, hends⟩ := hends
            rcases List.mem_cons.mp hother with rfl | hother
            · rw [hop] at hends
              cases hends
            · rw [ih ⟨other, hother, hends⟩]
  · -- a walk that ends nowhere on the chain ends nowhere later
    simp only [not_exists, not_and, Bool.not_eq_true] at hends
    rw [along_eq_none hends, along_eq_none]
    intro op hop
    rcases List.mem_append.mp hop with hop | hop
    · exact hends op hop
    · exact hends op (h hop)

end Walk

namespace Kernel

variable {kernel : Kernel} {id : ValueId}

/-! ## Chains that are cut off -/

/-- The base of a value, if it has a node with a base. -/
def base? (kernel : Kernel) (id : ValueId) : Option ValueId :=
  (kernel.operation? id).bind (·.base)

theorem lt_size_of_base? {target : ValueId} (h : kernel.base? id = some target) :
    id < kernel.size := by
  obtain ⟨op, hop, -⟩ := Option.bind_eq_some_iff.mp h
  exact lt_size_of_operation? hop

theorem mem_chainWithin {fuel : Nat} {op : Operation} :
    op ∈ kernel.chainWithin fuel id ↔
      ∃ n < fuel, ∃ here, follow kernel.base? n id = some here ∧
        kernel.operation? here = some op := by
  induction fuel generalizing id with
  | zero => simp [chainWithin]
  | succ fuel ih =>
      cases hop : kernel.operation? id with
      | none =>
          have hchain : kernel.chainWithin (fuel + 1) id = [] := by rw [chainWithin, hop]
          have hbase : kernel.base? id = none := by rw [base?, hop]; rfl
          rw [hchain]
          refine iff_of_false List.not_mem_nil ?_
          rintro ⟨n, -, here, hfollow, hhere⟩
          cases n with
          | zero =>
              cases hfollow
              rw [hop] at hhere
              cases hhere
          | succ n =>
              rw [follow, hbase] at hfollow
              cases hfollow
      | some first =>
          have hbase : kernel.base? id = first.base := by rw [base?, hop]; rfl
          rw [chainWithin_succ hop, List.mem_cons]
          constructor
          · rintro (rfl | hmem)
            · exact ⟨0, Nat.succ_pos fuel, id, rfl, hop⟩
            · cases hfollow : first.base with
              | none =>
                  rw [hfollow] at hmem
                  exact absurd hmem List.not_mem_nil
              | some base =>
                  rw [hfollow] at hmem
                  obtain ⟨n, hn, here, hway, hhere⟩ := ih.mp hmem
                  refine ⟨n + 1, Nat.succ_lt_succ hn, here, ?_, hhere⟩
                  rw [follow, hbase, hfollow]
                  exact hway
          · rintro ⟨n, hn, here, hway, hhere⟩
            cases n with
            | zero =>
                cases hway
                rw [hop] at hhere
                exact Or.inl (Option.some.inj hhere).symm
            | succ n =>
                rw [follow, hbase] at hway
                obtain ⟨base, hfollow, hway⟩ := Option.bind_eq_some_iff.mp hway
                rw [hfollow]
                exact Or.inr (ih.mpr ⟨n, Nat.lt_of_succ_lt_succ hn, here, hway, hhere⟩)

/-- A chain that goes on past as many nodes as the kernel has only repeats nodes. -/
theorem chainWithin_subset_chain (fuel : Nat) (id : ValueId) :
    kernel.chainWithin fuel id ⊆ kernel.chain id := by
  intro op hop
  obtain ⟨n, -, here, hway, hhere⟩ := mem_chainWithin.mp hop
  obtain ⟨m, hm, hway⟩ := exists_follow_lt_size (fun _ _ => lt_size_of_base?)
    (lt_size_of_operation? hhere) hway
  exact mem_chainWithin.mpr ⟨m, hm, here, hway, hhere⟩

/-- A chain that is cut off later starts with the same nodes. -/
theorem exists_chainWithin_add (fuel more : Nat) (id : ValueId) :
    ∃ rest, kernel.chainWithin (fuel + more) id = kernel.chainWithin fuel id ++ rest := by
  induction fuel generalizing id with
  | zero => exact ⟨_, rfl⟩
  | succ fuel ih =>
      rw [Nat.succ_add]
      cases hop : kernel.operation? id with
      | none =>
          refine ⟨[], ?_⟩
          rw [chainWithin, chainWithin, hop]
          rfl
      | some op =>
          rw [chainWithin_succ hop, chainWithin_succ hop]
          cases op.base with
          | none => exact ⟨[], rfl⟩
          | some base =>
              obtain ⟨rest, hrest⟩ := ih base
              exact ⟨rest, congrArg (List.cons op) hrest⟩

/-- Where a chain is cut off does not matter to a walk, if it is not cut off too early. -/
theorem along_chainWithin {α : Type} (walk : Walk α) {fuel : Nat} (hfuel : kernel.size ≤ fuel)
    (id : ValueId) : walk.along (kernel.chainWithin fuel id) = walk.along (kernel.chain id) := by
  obtain ⟨more, rfl⟩ := Nat.exists_eq_add_of_le hfuel
  obtain ⟨rest, hrest⟩ := kernel.exists_chainWithin_add kernel.size more id
  have hsubset := kernel.chainWithin_subset_chain (kernel.size + more) id
  rw [hrest] at hsubset ⊢
  exact Walk.along_append fun op hop => hsubset (List.mem_append_right _ hop)

theorem rootParam_eq_along (kernel : Kernel) (id : ValueId) :
    kernel.rootParam id = (Walk.toParam kernel).along (kernel.chain id) := by
  unfold rootParam
  induction kernel.chain id with
  | nil => rfl
  | cons op ops ih =>
      rw [Walk.along, List.find?_cons]
      show _ = if (op.kind == .param) = true then _ else _
      cases hop : op.kind == .param with
      | true => rfl
      | false => exact ih.trans Option.map_id'.symm

theorem bufferStart_eq_along (kernel : Kernel) (id : ValueId) :
    kernel.bufferStart id = Walk.toBuffer.along (kernel.chain id) := by
  unfold bufferStart
  induction kernel.chain id with
  | nil => rfl
  | cons op ops ih =>
      rw [Walk.along, List.find?_cons]
      show _ = if (!op.kind.isDerivation) = true then _ else _
      cases hop : !op.kind.isDerivation with
      | true => rfl
      | false => exact ih.trans Option.map_id'.symm

theorem memberPath_eq_along (kernel : Kernel) (id : ValueId) :
    kernel.memberPath id = (Walk.alongFields kernel).along (kernel.chain id) := by
  unfold memberPath
  induction kernel.chain id with
  | nil => rfl
  | cons op ops ih =>
      rw [pathOf, Walk.along, ih]
      obtain ⟨⟨kind, type, operands⟩, id⟩ := op
      cases kind <;> rfl

/-- A walk that ends gives the answer of a chain that is not cut off before. -/
theorem along_chainWithin_of_run {α : Type} {walk : Walk α} {limit fuel : Nat} {answer : Option α}
    (h : walk.run kernel limit id = some answer) (hfuel : limit < fuel) :
    walk.along (kernel.chainWithin fuel id) = answer := by
  induction limit using Nat.strongRecOn generalizing id fuel answer with
  | ind limit ih =>
      obtain ⟨fuel, rfl⟩ := Nat.exists_eq_succ_of_ne_zero (Nat.ne_zero_of_lt hfuel)
      unfold Walk.run at h
      cases hop : kernel.operation? id with
      | none =>
          rw [hop] at h
          rw [chainWithin, hop]
          exact Option.some.inj h
      | some op =>
          rw [hop] at h
          dsimp only at h
          rw [chainWithin_succ hop, Walk.along]
          cases hends : walk.endsAt op with
          | true =>
              rw [hends] at h
              exact Option.some.inj h
          | false =>
              rw [hends] at h
              cases hbase : op.base with
              | none =>
                  rw [hbase] at h
                  exact Option.some.inj h
              | some base =>
                  -- one step of the limit has been used for the base
                  rw [hbase] at h
                  cases limit with
                  | zero => cases h
                  | succ limit =>
                      obtain ⟨found, hfound, rfl⟩ := Option.map_eq_some_iff.mp h
                      have hrest := ih limit (Nat.lt_succ_self _) hfound
                        (Nat.lt_of_succ_lt_succ hfuel)
                      exact congrArg (Option.map (walk.pass op)) hrest

/-- A walk that ends gives the answer of the chain, in any kernel. -/
theorem along_chain_of_run {α : Type} {walk : Walk α} {limit : Nat} {answer : Option α}
    (h : walk.run kernel limit id = some answer) : walk.along (kernel.chain id) = answer := by
  rw [← kernel.along_chainWithin walk (Nat.le_add_left kernel.size (limit + 1)) id]
  exact along_chainWithin_of_run h (by omega)

end Kernel

end BufferPromotion
