import BufferPromotion.Alias.Promotion

/-! # What is promoted and what is blacklisted

The two passes over the operations come down to two sentences: a pointer is blacklisted if and
only if some operation writes through it, and promoted if and only if it is tracked, some
operation reads through it, and none writes through it.
-/

set_option autoImplicit false

namespace BufferPromotion

namespace Operation

/-- The operation is a store through a pointer. -/
def WritesThrough (op : Operation) (pointer : ValueId) : Prop :=
  op.kind = .store ∧ op.accessed = some pointer

/-- The operation is a load through a pointer. -/
def ReadsThrough (op : Operation) (pointer : ValueId) : Prop :=
  op.kind = .load ∧ op.accessed = some pointer

end Operation

namespace Promotion

/-! ## One operation -/

theorem mem_blacklisted_noteStore {promotion : Promotion} {op : Operation} {id : ValueId} :
    id ∈ (promotion.noteStore op).blacklisted ↔
      op.WritesThrough id ∨ id ∈ promotion.blacklisted := by
  unfold noteStore Operation.WritesThrough
  split
  · next pointer hkind haccessed => simp [bar, hkind, haccessed]
  · next hother =>
    constructor
    · exact Or.inr
    · rintro (⟨hkind, haccessed⟩ | h)
      · exact absurd haccessed (hother id hkind)
      · exact h

theorem mem_promoted_noteStore {promotion : Promotion} {op : Operation} {id : ValueId} :
    id ∈ (promotion.noteStore op).promoted ↔
      ¬ op.WritesThrough id ∧ id ∈ promotion.promoted := by
  unfold noteStore Operation.WritesThrough
  split
  · next pointer hkind haccessed => simp [bar, hkind, haccessed]
  · next hother =>
    exact ⟨fun h => ⟨fun hwrites => hother id hwrites.1 hwrites.2, h⟩, And.right⟩

theorem blacklisted_noteLoad {aliases : AliasSet} {promotion : Promotion} {op : Operation} :
    (promotion.noteLoad aliases op).blacklisted = promotion.blacklisted := by
  unfold noteLoad
  split
  · split
    · unfold allow
      split <;> rfl
    · rfl
  · rfl

theorem mem_promoted_noteLoad {aliases : AliasSet} {promotion : Promotion} {op : Operation}
    {id : ValueId} :
    id ∈ (promotion.noteLoad aliases op).promoted ↔
      (op.ReadsThrough id ∧ aliases.hasPointer id = true ∧ id ∉ promotion.blacklisted) ∨
        id ∈ promotion.promoted := by
  unfold noteLoad Operation.ReadsThrough
  split
  · next pointer hkind haccessed =>
    -- the pointer that is read enters if it is tracked and not blacklisted, no other one does
    unfold allow hasBlacklisted
    split
    · next htracked =>
      split
      · next hbarred =>
        refine ⟨Or.inr, ?_⟩
        rintro (⟨⟨-, hid⟩, -, hfree⟩ | h)
        · rw [haccessed] at hid
          cases hid
          exact absurd (Std.ExtTreeSet.contains_iff_mem.mp hbarred) hfree
        · exact h
      · next hfree =>
        rw [Std.ExtTreeSet.contains_iff_mem] at hfree
        constructor
        · intro h
          rcases Std.ExtTreeSet.mem_insert.mp h with heq | h
          · rw [Std.LawfulEqCmp.compare_eq_iff_eq] at heq
            subst heq
            exact Or.inl ⟨⟨hkind, haccessed⟩, htracked, hfree⟩
          · exact Or.inr h
        · rintro (⟨⟨-, hid⟩, -, -⟩ | h)
          · rw [haccessed] at hid
            cases hid
            exact Std.ExtTreeSet.mem_insert_self
          · exact Std.ExtTreeSet.mem_insert.mpr (Or.inr h)
    · next huntracked =>
      refine ⟨Or.inr, ?_⟩
      rintro (⟨⟨-, hid⟩, htracked, -⟩ | h)
      · rw [haccessed] at hid
        cases hid
        exact absurd htracked huntracked
      · exact h
  · next hother =>
    refine ⟨Or.inr, ?_⟩
    rintro (⟨⟨hkind, haccessed⟩, -⟩ | h)
    · exact absurd haccessed (hother id hkind)
    · exact h

/-! ## All operations -/

variable {aliases : AliasSet}

theorem mem_blacklisted_noteStores {promotion : Promotion} {ops : List Operation} {id : ValueId} :
    id ∈ (ops.foldl noteStore promotion).blacklisted ↔
      (∃ op ∈ ops, op.WritesThrough id) ∨ id ∈ promotion.blacklisted := by
  induction ops generalizing promotion with
  | nil => simp
  | cons op ops ih =>
      rw [List.foldl_cons, ih, mem_blacklisted_noteStore]
      simp only [List.mem_cons, exists_eq_or_imp]
      rw [or_left_comm, or_assoc]

theorem promoted_noteStores {ops : List Operation} {id : ValueId} :
    id ∉ (ops.foldl noteStore empty).promoted := by
  -- stores only take pointers away
  suffices h : ∀ promotion : Promotion, id ∉ promotion.promoted →
      id ∉ (ops.foldl noteStore promotion).promoted from h empty Std.ExtTreeSet.not_mem_empty
  induction ops with
  | nil => exact fun _ h => h
  | cons op ops ih => exact fun promotion h => ih _ fun hmem => h (mem_promoted_noteStore.mp hmem).2

theorem blacklisted_noteLoads {promotion : Promotion} {ops : List Operation} :
    (ops.foldl (noteLoad aliases) promotion).blacklisted = promotion.blacklisted := by
  induction ops generalizing promotion with
  | nil => rfl
  | cons op ops ih => rw [List.foldl_cons, ih, blacklisted_noteLoad]

theorem mem_promoted_noteLoads {promotion : Promotion} {ops : List Operation} {id : ValueId} :
    id ∈ (ops.foldl (noteLoad aliases) promotion).promoted ↔
      ((∃ op ∈ ops, op.ReadsThrough id) ∧ aliases.hasPointer id = true ∧
        id ∉ promotion.blacklisted) ∨ id ∈ promotion.promoted := by
  induction ops generalizing promotion with
  | nil => simp
  | cons op ops ih =>
      rw [List.foldl_cons, ih, blacklisted_noteLoad, mem_promoted_noteLoad]
      simp only [List.mem_cons, exists_eq_or_imp]
      rw [or_and_right, or_left_comm, or_assoc]

/-- A pointer is blacklisted if and only if some operation writes through it. -/
theorem mem_blacklisted_ofOperations {ops : List Operation} {id : ValueId} :
    id ∈ (ofOperations aliases ops).blacklisted ↔ ∃ op ∈ ops, op.WritesThrough id := by
  unfold ofOperations
  rw [blacklisted_noteLoads, mem_blacklisted_noteStores, or_iff_left]
  exact Std.ExtTreeSet.not_mem_empty

/-- A pointer is promoted if and only if it is tracked and is only read through. -/
theorem mem_promoted_ofOperations {ops : List Operation} {id : ValueId} :
    id ∈ (ofOperations aliases ops).promoted ↔
      (∃ op ∈ ops, op.ReadsThrough id) ∧ aliases.hasPointer id = true ∧
        ¬ ∃ op ∈ ops, op.WritesThrough id := by
  unfold ofOperations
  rw [mem_promoted_noteLoads, or_iff_left promoted_noteStores, mem_blacklisted_noteStores,
    or_iff_left (show id ∉ empty.blacklisted from Std.ExtTreeSet.not_mem_empty)]

end Promotion

end BufferPromotion
