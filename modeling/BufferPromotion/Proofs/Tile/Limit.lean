import BufferPromotion.Proofs.Tile.Geometry

/-! # Which tiles are accepted

A checked step succeeds if and only if its result fits into 32 bits. So as long as a block has
pixels, the checks that are made one after the other accept exactly the tiles whose number of
elements, as a natural number, is an `int`: no check refuses a tile that is small enough, and no
unchecked step overflows (`tile_arithmetic_is_exact`).
-/

set_option autoImplicit false

namespace BufferPromotion

theorem checkedAdd_eq_some_iff {a b sum : UInt32} :
    checkedAdd a b = some sum ↔ sum.toNat = a.toNat + b.toNat := by
  refine ⟨checkedAdd_eq_some, fun h => ?_⟩
  have hfits : a.toNat + b.toNat < UInt32.size := by
    rw [← h]
    exact sum.toNat_lt
  have hsum : (a + b).toNat = sum.toNat := by
    rw [UInt32.toNat_add, Nat.mod_eq_of_lt hfits, h]
  unfold checkedAdd
  rw [if_pos hfits, UInt32.toNat_inj.mp hsum]

theorem checkedMul_eq_some_iff {a b product : UInt32} :
    checkedMul a b = some product ↔ product.toNat = a.toNat * b.toNat := by
  refine ⟨checkedMul_eq_some, fun h => ?_⟩
  have hfits : a.toNat * b.toNat < UInt32.size := by
    rw [← h]
    exact product.toNat_lt
  have hproduct : (a * b).toNat = product.toNat := by
    rw [UInt32.toNat_mul, Nat.mod_eq_of_lt hfits, h]
  unfold checkedMul
  rw [if_pos hfits, UInt32.toNat_inj.mp hproduct]

/-- A number that fits into 32 bits is one of 32 bits. -/
theorem exists_toNat_eq {n : Nat} (h : n < UInt32.size) : ∃ word : UInt32, word.toNat = n :=
  ⟨UInt32.ofNat n, UInt32.toNat_ofNat_of_lt' h⟩

namespace LaunchConfig

/-- The width of a tile as a natural number: the block, and half the filter on either side. -/
def tileWidth (config : LaunchConfig) : Nat :=
  config.block.x.toNat + 2 * (config.filter.x.toNat / 2)

/-- The height of a tile as a natural number. -/
def tileHeight (config : LaunchConfig) : Nat :=
  config.block.y.toNat + 2 * (config.filter.y.toNat / 2)

end LaunchConfig

namespace TileGeometry

variable {config : LaunchConfig} {geometry : TileGeometry}

/-- A row is accepted if the tile can be computed without overflow and stays within the limit. -/
theorem rowElements_of_fits {stride row width height : UInt32}
    (hwidth : width.toNat = geometry.block.x.toNat + (2 * geometry.halo.x).toNat)
    (hheight : height.toNat = geometry.block.y.toNat + (2 * geometry.halo.y).toNat)
    (hrow : row.toNat = width.toNat * stride.toNat)
    (hlimit : row.toNat * height.toNat ≤ elementLimit.toNat) :
    geometry.rowElements stride = some row := by
  have hlt : row.toNat * height.toNat < UInt32.size := Nat.lt_of_le_of_lt hlimit elementLimit.toNat_lt
  obtain ⟨elements, helements⟩ := exists_toNat_eq hlt
  have hle : elements ≤ elementLimit := UInt32.le_iff_toNat_le.mpr (helements ▸ hlimit)
  simp [rowElements, checkedAdd_eq_some_iff.mpr hwidth, checkedAdd_eq_some_iff.mpr hheight,
    checkedMul_eq_some_iff.mpr hrow, checkedMul_eq_some_iff.mpr helements, hle]

/-- Doubling a halo does not overflow. -/
theorem toNat_two_mul_halo (h : ofLaunch? config = some geometry) :
    (2 * geometry.halo.x).toNat = 2 * geometry.halo.x.toNat ∧
      (2 * geometry.halo.y).toNat = 2 * geometry.halo.y.toNat := by
  obtain ⟨rfl, -⟩ := ofLaunch?_eq_some h
  exact ⟨toNat_two_mul_half _, toNat_two_mul_half _⟩

/-- A geometry that comes from a launch configuration has the size of its tiles. -/
theorem toNat_extent_eq (h : ofLaunch? config = some geometry) :
    geometry.extent.x.toNat = config.tileWidth ∧ geometry.extent.y.toNat = config.tileHeight := by
  obtain ⟨hx, hy⟩ := toNat_extent h
  obtain ⟨rfl, -⟩ := ofLaunch?_eq_some h
  exact ⟨hx, hy⟩

/-- An accepted tile has as many pixels as its width times its height, and these stay within the
limit. -/
theorem tileWidth_mul_tileHeight_le (h : ofLaunch? config = some geometry) :
    config.tileWidth * config.tileHeight ≤ elementLimit.toNat := by
  obtain ⟨-, row, hrow⟩ := ofLaunch?_eq_some h
  obtain ⟨hproduct, hlimit⟩ := toNat_rowElements h hrow
  obtain ⟨hextentX, hextentY⟩ := toNat_extent_eq h
  rw [hproduct, hextentX, hextentY, UInt32.toNat_one, Nat.mul_one] at hlimit
  exact hlimit

theorem toNat_pixelCount (h : ofLaunch? config = some geometry) :
    geometry.pixelCount.toNat = config.tileWidth * config.tileHeight := by
  obtain ⟨hextentX, hextentY⟩ := toNat_extent_eq h
  have hlt : config.tileWidth * config.tileHeight < UInt32.size :=
    Nat.lt_of_le_of_lt (tileWidth_mul_tileHeight_le h) elementLimit.toNat_lt
  unfold pixelCount
  rw [UInt32.toNat_mul, hextentX, hextentY, Nat.mod_eq_of_lt hlt]

/-- On an accepted geometry, a row is accepted if and only if the whole tile stays within the
limit. -/
theorem rowElements_eq_some_iff (h : ofLaunch? config = some geometry) {stride row : UInt32} :
    geometry.rowElements stride = some row ↔
      row.toNat = config.tileWidth * stride.toNat ∧
        config.tileWidth * stride.toNat * config.tileHeight ≤ elementLimit.toNat := by
  obtain ⟨hextentX, hextentY⟩ := toNat_extent_eq h
  constructor
  · intro hrow
    obtain ⟨hproduct, hlimit⟩ := toNat_rowElements h hrow
    rw [hextentX] at hproduct
    rw [hproduct, hextentY] at hlimit
    exact ⟨hproduct, hlimit⟩
  · rintro ⟨hproduct, hlimit⟩
    obtain ⟨hx, hy⟩ := toNat_extent h
    obtain ⟨hdoubleX, hdoubleY⟩ := toNat_two_mul_halo h
    rw [← hdoubleX] at hx
    rw [← hdoubleY] at hy
    refine rowElements_of_fits hx hy ?_ ?_
    · rw [hextentX, hproduct]
    · rw [hextentY, hproduct]
      exact hlimit

section Pixels

variable (hx : 1 ≤ config.block.x) (hy : 1 ≤ config.block.y)

include hx in
theorem one_le_tileWidth : 1 ≤ config.tileWidth :=
  Nat.le_trans (UInt32.le_iff_toNat_le.mp hx) (Nat.le_add_right _ _)

include hy in
theorem one_le_tileHeight : 1 ≤ config.tileHeight :=
  Nat.le_trans (UInt32.le_iff_toNat_le.mp hy) (Nat.le_add_right _ _)

include hx hy in
/-- If a tile has few enough pixels then neither its width nor its height is too large, since the
other one is not zero. -/
theorem isSome_ofLaunch?_iff :
    (ofLaunch? config).isSome = true ↔
      config.tileWidth * config.tileHeight ≤ elementLimit.toNat := by
  constructor
  · intro hsome
    obtain ⟨geometry, h⟩ := Option.isSome_iff_exists.mp hsome
    exact tileWidth_mul_tileHeight_le h
  · intro hlimit
    have hlimitLt : elementLimit.toNat < UInt32.size := elementLimit.toNat_lt
    have hwidthLe : config.tileWidth ≤ config.tileWidth * config.tileHeight :=
      Nat.le_mul_of_pos_right _ (one_le_tileHeight hy)
    have hheightLe : config.tileHeight ≤ config.tileWidth * config.tileHeight :=
      Nat.le_mul_of_pos_left _ (one_le_tileWidth hx)
    have hwidthLt : config.tileWidth < UInt32.size := by omega
    have hheightLt : config.tileHeight < UInt32.size := by omega
    obtain ⟨width, hwidth⟩ := exists_toNat_eq hwidthLt
    obtain ⟨height, hheight⟩ := exists_toNat_eq hheightLt
    have hwidthSum : width.toNat = config.block.x.toNat + (2 * (config.filter.x / 2)).toNat := by
      rw [hwidth, toNat_two_mul_half]
      rfl
    have hheightSum : height.toNat = config.block.y.toNat + (2 * (config.filter.y / 2)).toNat := by
      rw [hheight, toNat_two_mul_half]
      rfl
    have hone : width.toNat = width.toNat * (1 : UInt32).toNat := (Nat.mul_one _).symm
    have hproduct : width.toNat * height.toNat ≤ elementLimit.toNat := by
      rw [hwidth, hheight]
      exact hlimit
    have hrow : rowElements ⟨config.block, ⟨config.filter.x / 2, config.filter.y / 2⟩⟩ 1 =
        some width :=
      rowElements_of_fits hwidthSum hheightSum hone hproduct
    simp [ofLaunch?, hrow]

include hy in
/-- A row that is refused belongs to a tile over the limit: its own length is never the reason. -/
theorem rowElements_eq_none_iff (h : ofLaunch? config = some geometry) {stride : UInt32} :
    geometry.rowElements stride = none ↔
      elementLimit.toNat < config.tileWidth * stride.toNat * config.tileHeight := by
  rw [← Nat.not_le, ← Option.not_isSome_iff_eq_none, not_iff_not]
  constructor
  · intro hsome
    obtain ⟨row, hrow⟩ := Option.isSome_iff_exists.mp hsome
    exact ((rowElements_eq_some_iff h).mp hrow).2
  · intro hlimit
    have hlimitLt : elementLimit.toNat < UInt32.size := elementLimit.toNat_lt
    have hrowLe : config.tileWidth * stride.toNat ≤
        config.tileWidth * stride.toNat * config.tileHeight :=
      Nat.le_mul_of_pos_right _ (one_le_tileHeight hy)
    have hrowLt : config.tileWidth * stride.toNat < UInt32.size := by omega
    obtain ⟨row, hrow⟩ := exists_toNat_eq hrowLt
    rw [(rowElements_eq_some_iff h).mpr ⟨hrow, hlimit⟩]
    rfl

end Pixels

end TileGeometry

open TileGeometry in
/-- **Tile arithmetic is exact.** For a block with pixels and any filter, there is a geometry if and
only if the pixels of the tile, counted as natural numbers, are at most `2 ^ 31 - 1`. Its width, its
height and its number of pixels are then these numbers, and a row for pixels of any number of
elements is accepted, and is the width times this number, if and only if the whole tile has at most
`2 ^ 31 - 1` elements; otherwise it is refused. So every number of elements below an accepted one is
accepted. None of the unchecked steps overflows: doubling half of any filter is exact, and so are
the sums and the product that are computed from it on an accepted geometry. -/
theorem tile_arithmetic_is_exact {config : LaunchConfig} (hx : 1 ≤ config.block.x)
    (hy : 1 ≤ config.block.y) :
    let width := config.block.x.toNat + 2 * (config.filter.x.toNat / 2)
    let height := config.block.y.toNat + 2 * (config.filter.y.toNat / 2)
    ((ofLaunch? config).isSome = true ↔ width * height ≤ 2 ^ 31 - 1) ∧
    (2 * (config.filter.x / 2)).toNat = 2 * (config.filter.x.toNat / 2) ∧
    (2 * (config.filter.y / 2)).toNat = 2 * (config.filter.y.toNat / 2) ∧
    ∀ geometry, ofLaunch? config = some geometry →
      geometry.extent.x.toNat = width ∧ geometry.extent.y.toNat = height ∧
      geometry.pixelCount.toNat = width * height ∧
      (∀ stride row, geometry.rowElements stride = some row ↔
        row.toNat = width * stride.toNat ∧ width * stride.toNat * height ≤ 2 ^ 31 - 1) ∧
      (∀ stride, geometry.rowElements stride = none ↔
        2 ^ 31 - 1 < width * stride.toNat * height) ∧
      ∀ stride smaller, smaller ≤ stride → (geometry.rowElements stride).isSome = true →
        (geometry.rowElements smaller).isSome = true := by
  intro width height
  refine ⟨isSome_ofLaunch?_iff hx hy, toNat_two_mul_half _, toNat_two_mul_half _, ?_⟩
  intro geometry h
  obtain ⟨hextentX, hextentY⟩ := toNat_extent_eq h
  refine ⟨hextentX, hextentY, toNat_pixelCount h, fun stride row => rowElements_eq_some_iff h,
    fun stride => rowElements_eq_none_iff hy h, ?_⟩
  intro stride smaller hle haccepted
  -- a smaller tile is over the limit only if the larger one is
  rw [← Option.ne_none_iff_isSome, Ne, rowElements_eq_none_iff hy h, Nat.not_lt] at haccepted ⊢
  have hproduct : config.tileWidth * smaller.toNat ≤ config.tileWidth * stride.toNat :=
    Nat.mul_le_mul_left _ (UInt32.le_iff_toNat_le.mp hle)
  exact Nat.le_trans (Nat.mul_le_mul_right _ hproduct) haccepted

/-- The largest tile that is allowed is a single row of `2 ^ 31 - 1` pixels, which is a prime
number. Its pixels have one element each; with two elements the row alone would still fit into 32
bits, but it is refused. -/
theorem longest_row_is_accepted :
    let config : LaunchConfig := ⟨⟨2147483643, 1⟩, ⟨5, 1⟩⟩
    1 ≤ config.block.x ∧ 1 ≤ config.block.y ∧
      ∃ geometry, TileGeometry.ofLaunch? config = some geometry ∧
        geometry.pixelCount.toNat = 2 ^ 31 - 1 ∧ geometry.rowElements 2 = none ∧
        ∃ row, geometry.rowElements 1 = some row ∧ row.toNat = 2 ^ 31 - 1 := by
  intro config
  obtain ⟨haccepted, -, -, hgeometry⟩ :=
    @tile_arithmetic_is_exact config (by decide) (by decide)
  obtain ⟨geometry, h⟩ := Option.isSome_iff_exists.mp (haccepted.mpr (by decide))
  obtain ⟨-, -, hpixels, hrow, hrefused, -⟩ := hgeometry geometry h
  obtain ⟨row, hlength⟩ : ∃ row : UInt32, row.toNat = 2 ^ 31 - 1 := ⟨2147483647, by decide⟩
  refine ⟨by decide, by decide, geometry, h, hpixels.trans (by decide),
    (hrefused 2).mpr (by decide), row, ?_, hlength⟩
  exact (hrow 1 row).mpr ⟨hlength.trans (by decide), by decide⟩

end BufferPromotion
