import BufferPromotion.Proofs.Alias.Promotion
import Mathlib.Tactic.Tauto

/-! # Promotion in one pass

Promotion looks at all stores before the first load. A single pass that promotes a pointer at a
load and takes it back at a store comes to the same result, although it meets loads and stores in
the order of the kernel: what it leaves behind depends on which operations there are, and not on
where they stand (`mem_promoted_notes`). The main statement is `promotion_ignores_order`.
-/

set_option autoImplicit false

namespace BufferPromotion

namespace Promotion

/-- One operation of a single pass: a load promotes the pointer it reads through, if the pointer
is tracked and not blacklisted so far, and a store blacklists the pointer it writes through. -/
def note (aliases : AliasSet) (promotion : Promotion) (op : Operation) : Promotion :=
  match op.kind, op.accessed with
  | .load, some pointer =>
      if aliases.hasPointer pointer then promotion.allow pointer else promotion
  | .store, some pointer => promotion.bar pointer
  | _, _ => promotion

/-- The promotion that a single pass over some operations leads to. -/
def inOnePass (aliases : AliasSet) (ops : List Operation) : Promotion :=
  ops.foldl (note aliases) empty

variable {aliases : AliasSet} {promotion : Promotion} {ops : List Operation} {id : ValueId}

/-! ## One operation -/

/-- Storing and loading do not meet in one operation, so each of them may come first. -/
theorem note_eq (op : Operation) :
    promotion.note aliases op = (promotion.noteStore op).noteLoad aliases op := by
  unfold note noteStore noteLoad
  cases op.kind with
  | load => cases op.accessed <;> rfl
  | store => cases op.accessed <;> rfl
  | param | extract field | reinterpret | address | other name => rfl

theorem mem_blacklisted_note {op : Operation} :
    id ∈ (promotion.note aliases op).blacklisted ↔
      op.WritesThrough id ∨ id ∈ promotion.blacklisted := by
  rw [note_eq, blacklisted_noteLoad, mem_blacklisted_noteStore]

theorem mem_promoted_note {op : Operation} :
    id ∈ (promotion.note aliases op).promoted ↔
      ¬ op.WritesThrough id ∧
        ((op.ReadsThrough id ∧ aliases.hasPointer id = true ∧ id ∉ promotion.blacklisted) ∨
          id ∈ promotion.promoted) := by
  rw [note_eq, mem_promoted_noteLoad, mem_blacklisted_noteStore, mem_promoted_noteStore]
  tauto

/-! ## A whole pass -/

theorem mem_blacklisted_notes :
    id ∈ (ops.foldl (note aliases) promotion).blacklisted ↔
      (∃ op ∈ ops, op.WritesThrough id) ∨ id ∈ promotion.blacklisted := by
  induction ops generalizing promotion with
  | nil => simp
  | cons op ops ih =>
      rw [List.foldl_cons, ih, mem_blacklisted_note]
      simp only [List.mem_cons, exists_eq_or_imp]
      rw [or_left_comm, or_assoc]

/-- A pass promotes what it reads and never writes, whichever comes first. -/
theorem mem_promoted_notes :
    id ∈ (ops.foldl (note aliases) promotion).promoted ↔
      (¬ ∃ op ∈ ops, op.WritesThrough id) ∧
        (((∃ op ∈ ops, op.ReadsThrough id) ∧ aliases.hasPointer id = true ∧
          id ∉ promotion.blacklisted) ∨ id ∈ promotion.promoted) := by
  induction ops generalizing promotion with
  | nil => simp
  | cons op ops ih =>
      rw [List.foldl_cons, ih, mem_blacklisted_note, mem_promoted_note]
      simp only [List.mem_cons, exists_eq_or_imp]
      -- a store through the pointer spoils it, both for the rest of the pass and for the past
      by_cases hwrites : op.WritesThrough id
      · simp only [hwrites, true_or, not_true_eq_false, false_and, and_false, or_self]
      · simp only [hwrites, false_or, not_false_eq_true, true_and]
        rw [or_and_right, or_left_comm, or_assoc]

/-! ## One pass and two -/

/-- Promotions that hold the same pointers are the same. -/
theorem ext_mem {first second : Promotion}
    (hpromoted : ∀ id, id ∈ first.promoted ↔ id ∈ second.promoted)
    (hblacklisted : ∀ id, id ∈ first.blacklisted ↔ id ∈ second.blacklisted) : first = second := by
  have hfirst : first.promoted = second.promoted := Std.ExtTreeSet.ext_mem hpromoted
  have hsecond : first.blacklisted = second.blacklisted := Std.ExtTreeSet.ext_mem hblacklisted
  cases first
  cases second
  simp only at hfirst hsecond
  rw [hfirst, hsecond]

/-- **Promotion ignores order.** The blacklisted pointers are those that some operation writes
through, the promoted ones are the tracked pointers that some operation reads through and that are
not blacklisted. So no pointer is both; any list of the same operations, in any order and with any
repetitions, leads to the same promotion; and so does a single pass. -/
theorem promotion_ignores_order (aliases : AliasSet) (ops : List Operation) :
    let promotion := ofOperations aliases ops
    (∀ id, id ∈ promotion.blacklisted ↔ ∃ op ∈ ops, op.WritesThrough id) ∧
    (∀ id, id ∈ promotion.promoted ↔
      (∃ op ∈ ops, op.ReadsThrough id) ∧ aliases.hasPointer id = true ∧
        id ∉ promotion.blacklisted) ∧
    (∀ id, ¬ (id ∈ promotion.promoted ∧ id ∈ promotion.blacklisted)) ∧
    (∀ others : List Operation, (∀ op, op ∈ others ↔ op ∈ ops) →
      ofOperations aliases others = promotion) ∧
    inOnePass aliases ops = promotion := by
  intro promotion
  have hblacklisted : ∀ id, id ∈ promotion.blacklisted ↔ ∃ op ∈ ops, op.WritesThrough id :=
    fun id => mem_blacklisted_ofOperations
  have hpromoted : ∀ id, id ∈ promotion.promoted ↔
      (∃ op ∈ ops, op.ReadsThrough id) ∧ aliases.hasPointer id = true ∧
        id ∉ promotion.blacklisted := by
    intro id
    rw [hblacklisted]
    exact mem_promoted_ofOperations
  refine ⟨hblacklisted, hpromoted, ?_, ?_, ?_⟩
  · rintro id ⟨hread, hwritten⟩
    exact ((hpromoted id).mp hread).2.2 hwritten
  · -- both sets are described by the operations that occur
    intro others hsame
    refine ext_mem (fun id => ?_) (fun id => ?_)
    · rw [mem_promoted_ofOperations, mem_promoted_ofOperations]
      simp only [hsame]
    · rw [mem_blacklisted_ofOperations, mem_blacklisted_ofOperations]
      simp only [hsame]
  · -- a pass that starts from nothing promotes and blacklists by the same description
    have hnone : ∀ id, id ∉ empty.promoted ∧ id ∉ empty.blacklisted :=
      fun id => ⟨Std.ExtTreeSet.not_mem_empty, Std.ExtTreeSet.not_mem_empty⟩
    refine ext_mem (fun id => ?_) (fun id => ?_)
    · unfold inOnePass
      rw [mem_promoted_notes, hpromoted, hblacklisted, or_iff_left (hnone id).1,
        and_iff_left (hnone id).2]
      tauto
    · unfold inOnePass
      rw [mem_blacklisted_notes, hblacklisted, or_iff_left (hnone id).2]

end Promotion

end BufferPromotion
