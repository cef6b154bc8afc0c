import BufferPromotion.Launch.Config

/-! # Tile geometry

A tile holds the pixels that one block computes, and around them a halo of half the filter
on every side. So every pixel that a thread of the block can reach through the filter lies
in the tile. Generated code indexes tiles with `int`, so a tile that holds more elements than
an `int` can count is rejected.
-/

set_option autoImplicit false

namespace BufferPromotion

/-- The largest number of elements in a tile, the largest `int`. -/
def elementLimit : UInt32 := 2147483647

/-- The geometry of the tiles of a kernel. -/
structure TileGeometry where
  block : Size
  /-- The width of the border on either side. -/
  halo : Size
  deriving DecidableEq, Repr

namespace TileGeometry

/-- The number of elements in a row of a tile, `stride` for each pixel. There is none if the
whole tile has more elements than allowed. -/
def rowElements (geometry : TileGeometry) (stride : UInt32) : Option UInt32 := do
  let width ← checkedAdd geometry.block.x (2 * geometry.halo.x)
  let height ← checkedAdd geometry.block.y (2 * geometry.halo.y)
  let row ← checkedMul width stride
  let elements ← checkedMul row height
  if elements ≤ elementLimit then some row else none

/-- The geometry for a launch configuration, if a tile of that size is allowed at all. -/
def ofLaunch? (config : LaunchConfig) : Option TileGeometry :=
  let geometry : TileGeometry := ⟨config.block, ⟨config.filter.x / 2, config.filter.y / 2⟩⟩
  if (geometry.rowElements 1).isSome then some geometry else none

/-- The size of a tile in pixels. -/
def extent (geometry : TileGeometry) : Size :=
  ⟨geometry.block.x + 2 * geometry.halo.x, geometry.block.y + 2 * geometry.halo.y⟩

/-- The number of pixels in a tile. -/
def pixelCount (geometry : TileGeometry) : UInt32 := geometry.extent.x * geometry.extent.y

/-- Whether a tile has no pixels. -/
def isEmpty (geometry : TileGeometry) : Bool := geometry.pixelCount == 0

end TileGeometry

end BufferPromotion
