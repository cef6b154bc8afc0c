import BufferPromotion.Tile.Geometry
import Mathlib.Tactic.Linarith

/-! # Exact tile arithmetic

The size of a tile is computed in 32 bits. Where a geometry comes from a launch configuration
the arithmetic is exact: the extent is the block and twice the halo, and an accepted row is the
extent times the elements per pixel, as natural numbers.
-/

set_option autoImplicit false

namespace BufferPromotion

theorem checkedAdd_eq_some {a b sum : UInt32} (h : checkedAdd a b = some sum) :
    sum.toNat = a.toNat + b.toNat := by
  unfold checkedAdd at h
  split at h
  · next hlt =>
    cases h
    rw [UInt32.toNat_add, Nat.mod_eq_of_lt hlt]
  · cases h

theorem checkedMul_eq_some {a b product : UInt32} (h : checkedMul a b = some product) :
    product.toNat = a.toNat * b.toNat := by
  unfold checkedMul at h
  split at h
  · next hlt =>
    cases h
    rw [UInt32.toNat_mul, Nat.mod_eq_of_lt hlt]
  · cases h

/-- Doubling the half of a number does not overflow. -/
theorem toNat_two_mul_half (n : UInt32) : (2 * (n / 2)).toNat = 2 * (n / 2).toNat := by
  have hlt : n.toNat < 2 ^ 32 := n.toNat_lt
  have hhalf : (n / 2).toNat = n.toNat / 2 := rfl
  rw [UInt32.toNat_mul, hhalf]
  exact Nat.mod_eq_of_lt (by show 2 * (n.toNat / 2) < 2 ^ 32; omega)

namespace TileGeometry

/-- A row that is accepted was computed without overflow, and so was the tile. -/
theorem rowElements_eq_some {geometry : TileGeometry} {stride row : UInt32}
    (h : geometry.rowElements stride = some row) :
    ∃ width height : UInt32,
      width.toNat = geometry.block.x.toNat + (2 * geometry.halo.x).toNat ∧
      height.toNat = geometry.block.y.toNat + (2 * geometry.halo.y).toNat ∧
      row.toNat = width.toNat * stride.toNat ∧
      row.toNat * height.toNat ≤ elementLimit.toNat := by
  simp only [rowElements, Option.bind_eq_bind, Option.bind_eq_some_iff] at h
  obtain ⟨width, hwidth, height, hheight, row', hrow, elements, helements, hlimit⟩ := h
  split at hlimit
  · next hle =>
    cases hlimit
    refine ⟨width, height, checkedAdd_eq_some hwidth, checkedAdd_eq_some hheight,
      checkedMul_eq_some hrow, ?_⟩
    rw [← checkedMul_eq_some helements]
    exact UInt32.le_iff_toNat_le.mp hle
  · cases hlimit

theorem ofLaunch?_eq_some {config : LaunchConfig} {geometry : TileGeometry}
    (h : ofLaunch? config = some geometry) :
    geometry = ⟨config.block, ⟨config.filter.x / 2, config.filter.y / 2⟩⟩ ∧
      ∃ row, geometry.rowElements 1 = some row := by
  simp only [ofLaunch?] at h
  split at h
  · next hsome =>
    cases h
    exact ⟨rfl, Option.isSome_iff_exists.mp hsome⟩
  · cases h

/-- The extent of a geometry that comes from a launch configuration is the block and twice the
halo. -/
theorem toNat_extent {config : LaunchConfig} {geometry : TileGeometry}
    (h : ofLaunch? config = some geometry) :
    geometry.extent.x.toNat = geometry.block.x.toNat + 2 * geometry.halo.x.toNat ∧
      geometry.extent.y.toNat = geometry.block.y.toNat + 2 * geometry.halo.y.toNat := by
  obtain ⟨rfl, row, hrow⟩ := ofLaunch?_eq_some h
  obtain ⟨width, height, hwidth, hheight, -, -⟩ := rowElements_eq_some hrow
  have hwlt : width.toNat < 2 ^ 32 := width.toNat_lt
  have hhlt : height.toNat < 2 ^ 32 := height.toNat_lt
  simp only [toNat_two_mul_half] at hwidth hheight
  -- the checked sums exist, so the unchecked sums of the extent do not overflow either
  constructor
  · simp only [extent, UInt32.toNat_add, toNat_two_mul_half]
    exact Nat.mod_eq_of_lt (by omega)
  · simp only [extent, UInt32.toNat_add, toNat_two_mul_half]
    exact Nat.mod_eq_of_lt (by omega)

/-- An accepted row holds the elements of the pixels of a row, and the whole tile stays within
the limit. -/
theorem toNat_rowElements {config : LaunchConfig} {geometry : TileGeometry} {stride row : UInt32}
    (h : ofLaunch? config = some geometry) (hrow : geometry.rowElements stride = some row) :
    row.toNat = geometry.extent.x.toNat * stride.toNat ∧
      row.toNat * geometry.extent.y.toNat ≤ elementLimit.toNat := by
  obtain ⟨width, height, hwidth, hheight, hproduct, hlimit⟩ := rowElements_eq_some hrow
  obtain ⟨hx, hy⟩ := toNat_extent h
  obtain ⟨rfl, -⟩ := ofLaunch?_eq_some h
  simp only [toNat_two_mul_half] at hwidth hheight
  rw [hx, hy, ← hwidth, ← hheight]
  exact ⟨hproduct, hlimit⟩

end TileGeometry

end BufferPromotion
