import BufferPromotion.Kernel.Value
import Mathlib.Data.Finset.Card
import Mathlib.Data.Finset.Image
import Mathlib.Data.Finset.Range

/-! # Following steps between values

A function that gives the next value of some values can be followed any number of times, and may
run in a circle. If only values below a bound have a next one, what is reached at all is reached by
few steps: a way of more steps passes some value twice, and what lies between the two visits can be
left out.
-/

set_option autoImplicit false

namespace BufferPromotion

/-- The value that a number of steps lead to. -/
def follow (next : ValueId → Option ValueId) : Nat → ValueId → Option ValueId
  | 0, id => some id
  | steps + 1, id => (next id).bind (follow next steps)

variable {next : ValueId → Option ValueId}

theorem follow_add (m n : Nat) (id : ValueId) :
    follow next (m + n) id = (follow next m id).bind (follow next n) := by
  induction m generalizing id with
  | zero =>
      rw [Nat.zero_add]
      rfl
  | succ m ih =>
      rw [Nat.succ_add]
      show (next id).bind _ = ((next id).bind _).bind _
      rw [Option.bind_assoc]
      exact congrArg _ (funext ih)

/-- A way that goes on has been well defined so far. -/
theorem follow_isSome_of_le {m n : Nat} {id target : ValueId} (hmn : m ≤ n)
    (h : follow next n id = some target) : ∃ between, follow next m id = some between := by
  obtain ⟨rest, rfl⟩ := Nat.exists_eq_add_of_le hmn
  rw [follow_add] at h
  obtain ⟨between, hbetween, -⟩ := Option.bind_eq_some_iff.mp h
  exact ⟨between, hbetween⟩

/-- A way through more values than there are below a bound passes some value twice. -/
theorem exists_repeated {size n : Nat} {id : ValueId} (hn : size < n)
    (h : ∀ i < n, ∃ here < size, follow next i id = some here) :
    ∃ i j, i < j ∧ j < n ∧ follow next i id = follow next j id := by
  -- pigeonhole: fewer values than numbers of steps below `n`
  have hmaps : ∀ i ∈ Finset.range n,
      follow next i id ∈ (Finset.range size).image some := by
    intro i hi
    obtain ⟨here, hlt, hhere⟩ := h i (Finset.mem_range.mp hi)
    rw [hhere]
    exact Finset.mem_image_of_mem some (Finset.mem_range.mpr hlt)
  have hcard : ((Finset.range size).image some).card < (Finset.range n).card := by
    have hle : ((Finset.range size).image some).card ≤ (Finset.range size).card :=
      Finset.card_image_le
    rw [Finset.card_range] at hle ⊢
    omega
  obtain ⟨i, hi, j, hj, hne, heq⟩ :=
    Finset.exists_ne_map_eq_of_card_lt_of_maps_to hcard hmaps
  rw [Finset.mem_range] at hi hj
  rcases Nat.lt_or_gt_of_ne hne with hij | hji
  · exact ⟨i, j, hij, hj, heq⟩
  · exact ⟨j, i, hji, hi, heq.symm⟩

/-- If every way of more steps than a limit passes some value twice, a target is reached within
the limit. -/
theorem exists_follow_le {limit n : Nat} {id target : ValueId}
    (hlimit : ∀ n, limit < n → follow next n id = some target →
      ∃ i j, i < j ∧ j ≤ n ∧ follow next i id = follow next j id)
    (h : follow next n id = some target) : ∃ m ≤ limit, follow next m id = some target := by
  induction n using Nat.strongRecOn with
  | ind n ih =>
      rcases Nat.lt_or_ge limit n with hlt | hge
      · -- leave out the circle between the two visits of a value
        obtain ⟨i, j, hij, hj, heq⟩ := hlimit n hlt h
        have hrest : j + (n - j) = n := Nat.add_sub_cancel' hj
        rw [← hrest, follow_add, ← heq, ← follow_add] at h
        exact ih (i + (n - j)) (by omega) h
      · exact ⟨n, hge, h⟩

section Bounded

variable {size : Nat} (hsize : ∀ id target, next id = some target → id < size)

include hsize

/-- Before its last step, a way is at values below the bound. -/
theorem exists_lt_of_follow {i n : Nat} {id target : ValueId} (hi : i < n)
    (h : follow next n id = some target) : ∃ here < size, follow next i id = some here := by
  obtain ⟨later, hlater⟩ := follow_isSome_of_le (show i + 1 ≤ n from hi) h
  rw [follow_add] at hlater
  obtain ⟨here, hhere, hstep⟩ := Option.bind_eq_some_iff.mp hlater
  obtain ⟨target, htarget, -⟩ := Option.bind_eq_some_iff.mp hstep
  exact ⟨here, hsize here target htarget, hhere⟩

/-- A value that is reached at all is reached by no more steps than the bound says. -/
theorem exists_follow_le_size {n : Nat} {id target : ValueId}
    (h : follow next n id = some target) : ∃ m ≤ size, follow next m id = some target := by
  refine exists_follow_le (fun n hn h => ?_) h
  obtain ⟨i, j, hij, hj, heq⟩ := exists_repeated hn fun i hi => exists_lt_of_follow hsize hi h
  exact ⟨i, j, hij, Nat.le_of_lt hj, heq⟩

/-- A value below the bound that is reached at all is reached by fewer steps. -/
theorem exists_follow_lt_size {n : Nat} {id target : ValueId} (htarget : target < size)
    (h : follow next n id = some target) : ∃ m < size, follow next m id = some target := by
  -- the target is below the bound too, so the way may not even take as many steps
  have hvalues : ∀ n, follow next n id = some target →
      ∀ i < n + 1, ∃ here < size, follow next i id = some here := by
    intro n h i hi
    rcases Nat.lt_succ_iff_lt_or_eq.mp hi with hi | rfl
    · exact exists_lt_of_follow hsize hi h
    · exact ⟨target, htarget, h⟩
  have hlimit : ∀ n, size - 1 < n → follow next n id = some target →
      ∃ i j, i < j ∧ j ≤ n ∧ follow next i id = follow next j id := by
    intro n hn h
    obtain ⟨i, j, hij, hj, heq⟩ := exists_repeated (show size < n + 1 by omega) (hvalues n h)
    exact ⟨i, j, hij, Nat.le_of_lt_succ hj, heq⟩
  obtain ⟨m, hm, h⟩ := exists_follow_le hlimit h
  have hpos : 0 < size := Nat.lt_of_le_of_lt (Nat.zero_le _) htarget
  exact ⟨m, by omega, h⟩

end Bounded

end BufferPromotion
