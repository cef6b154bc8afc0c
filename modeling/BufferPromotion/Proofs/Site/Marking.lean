import BufferPromotion.Proofs.Site.Written
import Mathlib.Order.Bounds.Basic

/-! # The written set as a least set

The written pointers can be found by marking values: each pointer of a store is marked, then its
base, then the base of that, and the walk stops at the first base that is marked already. The walk
may stop there because whatever was marked before is closed under bases, and it ends even where
bases go round in a circle because every step of it marks another value. The main statement
(`written_isLeast`) says that `SiteContext.written` is what this marking ends with, and that it is
the least set that holds the pointers and is closed under bases, for any kernel at all.
-/

set_option autoImplicit false

namespace BufferPromotion

namespace Kernel

/-! ## Marking bases -/

/-- Marks the bases behind a value up to the first one that is marked already; `none` if the limit
cuts the walk off. -/
def markBases (kernel : Kernel) : Nat → ValueId → ValueSet → Option ValueSet
  | 0, _, _ => none
  | limit + 1, id, marked =>
      match kernel.derivedFrom? id with
      | none => some marked
      | some base =>
          if marked.contains base then some marked
          else kernel.markBases limit base (marked.insert base)

/-- Marks some pointers, each together with the bases behind it. -/
def markSources (kernel : Kernel) (limit : Nat) (pointers : List ValueId) (marked : ValueSet) :
    Option ValueSet :=
  pointers.foldlM (fun marked pointer =>
    kernel.markBases limit pointer (marked.insert pointer)) marked

variable {kernel : Kernel}

/-- Every marked value has its base marked too. -/
def Closed (kernel : Kernel) (marked : ValueSet) : Prop :=
  ∀ id ∈ marked, ∀ base, kernel.DerivedFrom id base → base ∈ marked

/-- Every marked value has its base marked too, but maybe the one where a walk stands. -/
def ClosedBut (kernel : Kernel) (here : ValueId) (marked : ValueSet) : Prop :=
  ∀ id ∈ marked, id ≠ here → ∀ base, kernel.DerivedFrom id base → base ∈ marked

theorem Closed.mem_of_leadsTo {marked : ValueSet} {id target : ValueId}
    (hclosed : kernel.Closed marked) (h : kernel.LeadsTo id target) (hid : id ∈ marked) :
    target ∈ marked := by
  induction h with
  | refl => exact hid
  | tail _ hstep ih => exact hclosed _ ih _ hstep

/-- A walk may start at any value, once that value is marked. -/
theorem Closed.insert {marked : ValueSet} {here : ValueId} (hclosed : kernel.Closed marked) :
    kernel.ClosedBut here (marked.insert here) := by
  intro id hid hne base hbase
  rw [ValueSet.mem_insert] at hid ⊢
  exact Or.inr (hclosed id (hid.resolve_left hne) base hbase)

/-- A walk goes on to a base by marking it. -/
theorem ClosedBut.insert_base {marked : ValueSet} {here base : ValueId}
    (hbut : kernel.ClosedBut here marked) (hstep : kernel.DerivedFrom here base) :
    kernel.ClosedBut base (marked.insert base) := by
  intro id hid hne next hnext
  rw [ValueSet.mem_insert] at hid ⊢
  by_cases heq : id = here
  · rw [heq, DerivedFrom, hstep] at hnext
    exact Or.inl (Option.some.inj hnext).symm
  · exact Or.inr (hbut id (hid.resolve_left hne) heq next hnext)

/-- Where a walk finds the next base marked already, no base is missing. -/
theorem ClosedBut.closed {marked : ValueSet} {here base : ValueId}
    (hbut : kernel.ClosedBut here marked) (hstep : kernel.DerivedFrom here base)
    (hbase : base ∈ marked) : kernel.Closed marked := by
  intro id hid next hnext
  by_cases heq : id = here
  · rw [heq, DerivedFrom, hstep] at hnext
    rwa [← Option.some.inj hnext]
  · exact hbut id hid heq next hnext

/-- A walk from a marked value adds what that value leads to, and nothing else. -/
theorem mem_markBases {limit : Nat} {here id : ValueId} {marked result : ValueSet}
    (hhere : here ∈ marked) (hbut : kernel.ClosedBut here marked)
    (h : kernel.markBases limit here marked = some result) :
    id ∈ result ↔ id ∈ marked ∨ kernel.LeadsTo here id := by
  induction limit generalizing here marked with
  | zero => exact nomatch h
  | succ limit ih =>
      rw [markBases] at h
      cases hstep : kernel.derivedFrom? here with
      | none =>
          rw [hstep] at h
          obtain rfl : marked = result := Option.some.inj h
          refine ⟨Or.inl, ?_⟩
          rintro (hid | hleads)
          · exact hid
          · rwa [hleads.eq_of_derivedFrom?_eq_none hstep]
      | some base =>
          rw [hstep] at h
          dsimp only at h
          split at h
          · next hmarked =>
            obtain rfl : marked = result := Option.some.inj h
            have hclosed := hbut.closed hstep (Std.ExtTreeSet.contains_iff_mem.mp hmarked)
            refine ⟨Or.inl, ?_⟩
            rintro (hid | hleads)
            · exact hid
            · exact hclosed.mem_of_leadsTo hleads hhere
          · rw [ih Std.ExtTreeSet.mem_insert_self (hbut.insert_base hstep) h, ValueSet.mem_insert]
            constructor
            · rintro ((rfl | hid) | hleads)
              · exact Or.inr (.single hstep)
              · exact Or.inl hid
              · exact Or.inr (.head hstep hleads)
            · rintro (hid | hleads)
              · exact Or.inl (Or.inr hid)
              · rcases hleads.eq_or_of_derivedFrom hstep with rfl | hleads
                · exact Or.inl (Or.inr hhere)
                · exact Or.inr hleads

/-! ## The marking ends -/

/-- The number of values of a kernel that are not marked. -/
def unmarked (kernel : Kernel) (marked : ValueSet) : Nat :=
  ((Finset.range kernel.size).filter (· ∉ marked)).card

theorem unmarked_le_size (marked : ValueSet) : kernel.unmarked marked ≤ kernel.size := by
  have hle := Finset.card_filter_le (Finset.range kernel.size) (· ∉ marked)
  rwa [Finset.card_range] at hle

theorem unmarked_insert_lt {id : ValueId} {marked : ValueSet} (hid : id < kernel.size)
    (hnew : id ∉ marked) : kernel.unmarked (marked.insert id) < kernel.unmarked marked := by
  refine Finset.card_lt_card (Finset.ssubset_iff_of_subset ?_ |>.mpr ⟨id, ?_, ?_⟩)
  · intro other hother
    rw [Finset.mem_filter] at hother ⊢
    exact ⟨hother.1, fun hmem => hother.2 (ValueSet.mem_insert.mpr (Or.inr hmem))⟩
  · exact Finset.mem_filter.mpr ⟨Finset.mem_range.mpr hid, hnew⟩
  · exact fun h => (Finset.mem_filter.mp h).2 Std.ExtTreeSet.mem_insert_self

/-- A walk ends within as many rounds as there are values it can still mark. -/
theorem exists_markBases {limit : Nat} {here : ValueId} {marked : ValueSet}
    (h : kernel.unmarked marked + 1 < limit) :
    ∃ result, kernel.markBases limit here marked = some result := by
  induction limit generalizing here marked with
  | zero => exact absurd h (Nat.not_lt_zero _)
  | succ limit ih =>
      rw [markBases]
      split
      · exact ⟨marked, rfl⟩
      · next base _ =>
        split
        · exact ⟨marked, rfl⟩
        · next hnew =>
          rw [Std.ExtTreeSet.contains_iff_mem] at hnew
          rcases Nat.lt_or_ge base kernel.size with hbase | hdangling
          · have hfewer := unmarked_insert_lt hbase hnew
            exact ih (by omega)
          · -- a base that does not exist has no base itself, so the walk ends there
            have hnone : kernel.derivedFrom? base = none := by
              rw [Option.eq_none_iff_forall_not_mem]
              exact fun next hnext => absurd (DerivedFrom.lt_size hnext) (Nat.not_lt.mpr hdangling)
            obtain ⟨limit, rfl⟩ := Nat.exists_eq_succ_of_ne_zero (show limit ≠ 0 by omega)
            rw [markBases, hnone]
            exact ⟨_, rfl⟩

/-- Marking pointers one after the other ends with all that they lead to. Each walk leaves the set
closed, which the next one relies on. -/
theorem exists_markSources {limit : Nat} (hlimit : kernel.size + 1 < limit)
    (pointers : List ValueId) {marked : ValueSet} (hclosed : kernel.Closed marked) :
    ∃ result, kernel.markSources limit pointers marked = some result ∧
      ∀ id, id ∈ result ↔ id ∈ marked ∨ ∃ pointer ∈ pointers, kernel.LeadsTo pointer id := by
  induction pointers generalizing marked with
  | nil => exact ⟨marked, rfl, by simp⟩
  | cons pointer pointers ih =>
      have hle := kernel.unmarked_le_size (marked.insert pointer)
      have hroom : kernel.unmarked (marked.insert pointer) + 1 < limit := by omega
      obtain ⟨walked, hwalked⟩ :
          ∃ walked, kernel.markBases limit pointer (marked.insert pointer) = some walked :=
        exists_markBases hroom
      have hmem : ∀ id, id ∈ walked ↔ id ∈ marked ∨ kernel.LeadsTo pointer id := by
        intro id
        rw [mem_markBases Std.ExtTreeSet.mem_insert_self hclosed.insert hwalked,
          ValueSet.mem_insert]
        constructor
        · rintro ((rfl | hid) | hleads)
          · exact Or.inr .refl
          · exact Or.inl hid
          · exact Or.inr hleads
        · rintro (hid | hleads)
          · exact Or.inl (Or.inr hid)
          · exact Or.inr hleads
      have hclosed' : kernel.Closed walked := by
        intro id hid base hbase
        rw [hmem] at hid ⊢
        rcases hid with hid | hleads
        · exact Or.inl (hclosed id hid base hbase)
        · exact Or.inr (hleads.tail hbase)
      obtain ⟨result, hresult, hall⟩ := ih hclosed'
      refine ⟨result, ?_, fun id => ?_⟩
      · rw [markSources, List.foldlM_cons, hwalked]
        exact hresult
      · rw [hall, hmem, List.exists_mem_cons_iff, or_assoc]

/-! ## The least set -/

/-- What the set of written values has to hold: the pointers of the stores, and with the result of
a reinterpretation or an address computation the base of it. -/
structure HoldsSources (kernel : Kernel) (pointers : ValueSet) (held : Set ValueId) : Prop where
  pointer : ∀ pointer ∈ pointers, pointer ∈ held
  base : ∀ id ∈ held, ∀ op, kernel.operation? id = some op →
    op.kind = .reinterpret ∨ op.kind = .address → ∀ base, op.base = some base → base ∈ held

/-- What pointers lead to is the least set that holds their sources. -/
theorem isLeast_leadsTo (kernel : Kernel) (pointers : ValueSet) :
    IsLeast {held | kernel.HoldsSources pointers held}
      {id | ∃ pointer ∈ pointers, kernel.LeadsTo pointer id} := by
  constructor
  · refine ⟨fun pointer hpointer => ⟨pointer, hpointer, .refl⟩, ?_⟩
    rintro id ⟨pointer, hpointer, hleads⟩ op hop hkind base hbase
    have hstep : kernel.DerivedFrom id base :=
      derivedFrom_iff.mpr ⟨op, hop, NodeKind.isDerivation_iff.mpr hkind, hbase⟩
    exact ⟨pointer, hpointer, hleads.tail hstep⟩
  · rintro held hholds id ⟨pointer, hpointer, hleads⟩
    induction hleads with
    | refl => exact hholds.pointer pointer hpointer
    | tail _ hstep ih =>
        obtain ⟨op, hop, hkind, hbase⟩ := derivedFrom_iff.mp hstep
        exact hholds.base _ ih op hop (NodeKind.isDerivation_iff.mp hkind) _ hbase

end Kernel

/-- **The written set is the exact upward closure.** For every kernel, even one with bases that go
round in a circle or do not exist, and every analysis of it, the written values are the least set
that holds the blacklisted pointers and with every result of a reinterpretation or an address
computation its base. Marking each pointer and then its bases up to the first one that is marked
already ends with this very set, within two more rounds for a pointer than the kernel has nodes. -/
theorem written_isLeast (kernel : Kernel) (analysis : Analysis) (geometry : TileGeometry)
    (buffers : BufferTable) (usesTiles : Bool) :
    let context := SiteContext.ofAnalysis kernel analysis geometry buffers usesTiles
    let pointers := analysis.promotion.blacklisted
    IsLeast {held | kernel.HoldsSources pointers held} {id | id ∈ context.written} ∧
    ∀ spare, kernel.markSources (kernel.size + 2 + spare) pointers.toList ∅ =
      some context.written := by
  intro context pointers
  have hwritten : ∀ id, id ∈ context.written ↔ ∃ pointer ∈ pointers, kernel.LeadsTo pointer id :=
    fun id => mem_storeSources
  constructor
  · have hset : {id | id ∈ context.written} =
        {id | ∃ pointer ∈ pointers, kernel.LeadsTo pointer id} := Set.ext hwritten
    rw [hset]
    exact kernel.isLeast_leadsTo pointers
  · intro spare
    have hempty : kernel.Closed ∅ := fun id hid => absurd hid Std.ExtTreeSet.not_mem_empty
    obtain ⟨result, hresult, hmem⟩ := kernel.exists_markSources
      (show kernel.size + 1 < kernel.size + 2 + spare by omega) pointers.toList hempty
    rw [hresult, Option.some.injEq]
    refine Std.ExtTreeSet.ext_mem fun id => ?_
    rw [hmem, hwritten, or_iff_right Std.ExtTreeSet.not_mem_empty]
    simp only [Std.ExtTreeSet.mem_toList]

/-- Two addresses that are derived from each other, and one whose base does not exist. -/
example :
    let kernel := (((Kernel.empty "k").append (.addressOf 1 [])).append (.addressOf 0 [])).append
      (.addressOf 9 [])
    (storeSources kernel (.ofList [0, 2] compare)).toList = [0, 1, 2, 9] := by
  decide +kernel

end BufferPromotion
