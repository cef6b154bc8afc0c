import BufferPromotion.Buffer.Image
import BufferPromotion.Code.Stmt
import BufferPromotion.Tile.Geometry

/-! # Filling tiles at kernel entry

The threads of a block fill its tiles together. Every thread copies the cells at its own
position and at every block size further on, until the extent of the tile is covered. One
barrier follows the copy loops of all tiles, before any thread reads a tile. All threads have
to reach it, so it stands outside of every loop and condition.
-/

set_option autoImplicit false

namespace BufferPromotion

/-- A tile to declare and fill at kernel entry. -/
structure Tile where
  /-- The name of the array in generated code. -/
  name : String
  buffer : ImageBuffer
  deriving DecidableEq, Repr

/-- The name of the tile of a buffer. -/
def tileArrayName (key : String) : String := "tile_" ++ key

namespace Tile

/-- The tile of a buffer, named after the buffer. -/
def ofKey (key : String) (buffer : ImageBuffer) : Tile := ⟨tileArrayName key, buffer⟩

/-- The array of a tile; `none` if the tile is too large. -/
def declaration? (geometry : TileGeometry) (tile : Tile) : Option Stmt :=
  (geometry.rowElements tile.buffer.stride).map fun row =>
    .sharedArray tile.buffer.elem.codeName tile.name geometry.extent.y.toNat row.toNat

/-- The pixel that a cell of the tile holds: `gy * width + gx`. -/
def sourcePixel (tile : Tile) : Expr :=
  ((Expr.var "gy").mul (.given tile.buffer.width)).add (.var "gx")

/-- The index of an element in the row of a pixel: the element itself if there is one per
pixel, else the number `c` of the element after the elements of the pixels before. -/
def elementIndex (pixel : Expr) (stride : UInt32) : Expr :=
  if stride == 1 then pixel else (pixel.mul (.word stride)).add (.var "c")

/-- The element of the buffer that is copied. -/
def sourceElement (tile : Tile) : Expr :=
  .element (.given tile.buffer.data) (elementIndex tile.sourcePixel tile.buffer.stride)

/-- The element of the tile that is written. -/
def targetElement (tile : Tile) : Expr :=
  .element (.element (.var tile.name) (.var "ly")) (elementIndex (.var "lx") tile.buffer.stride)

/-- Writes all elements of one cell. -/
def fillCell (tile : Tile) (value : Expr) : Stmt :=
  let stride := tile.buffer.stride
  let write : Stmt := .assign tile.targetElement value
  if stride == 1 then write else .loop "c" stride.toNat .byOne write

/-- The pixel lies inside the image. -/
def insideImage (tile : Tile) : Expr :=
  ((((Expr.var "gx").ge (.number 0)).and ((Expr.var "gx").lt (.given tile.buffer.width))).and
    ((Expr.var "gy").ge (.number 0))).and ((Expr.var "gy").lt (.given tile.buffer.height))

/-- The cell lies inside the tile. -/
def insideTile (geometry : TileGeometry) : Expr :=
  let extent := geometry.extent
  ((Expr.var "lx").lt (.word extent.x)).and ((Expr.var "ly").lt (.word extent.y))

/-- Fills one cell: from the image where there is a pixel, else as the border asks for. -/
def fillFromImage (border : BorderFill) (tile : Tile) : Stmt :=
  match border with
  | .leave => .when tile.insideImage (tile.fillCell tile.sourceElement)
  | .zero =>
      .choose tile.insideImage (tile.fillCell tile.sourceElement) (tile.fillCell (.number 0))

/-- The image coordinate of a tile coordinate, on one axis: `origin * block - halo + local`. -/
def globalCoordinate (origin : String) (block halo : UInt32) (cell : String) : Expr :=
  (((Expr.var origin).mul (.word block)).sub (.word halo)).add (.var cell)

/-- The loops in which a thread fills its cells of a tile. -/
def copyLoop (geometry : TileGeometry) (border : BorderFill) (tile : Tile) : Stmt :=
  let block := geometry.block
  let halo := geometry.halo
  let extent := geometry.extent
  .loop "j" extent.y.toNat (.byMany block.y.toNat)
    (.loop "i" extent.x.toNat (.byMany block.x.toNat)
      (.all [
        .declare "int" "lx" ((Expr.var "threadIdx.x").add (.var "i")),
        .declare "int" "ly" ((Expr.var "threadIdx.y").add (.var "j")),
        .declare "int" "gx" (globalCoordinate "blockIdx.x" block.x halo.x "lx"),
        .declare "int" "gy" (globalCoordinate "blockIdx.y" block.y halo.y "ly"),
        .when (insideTile geometry) (fillFromImage border tile)]))

/-- The point that all threads of the block reach before any of them goes on. -/
def barrier : Stmt := .effect (.call "__syncthreads" [])

end Tile

/-- Code that was written, and the tile at which writing stopped because it is too large. -/
structure TileCode where
  writer : LineWriter
  refused : Option Tile
  deriving DecidableEq, Repr

namespace TileCode

/-- Writes the arrays of tiles in order, up to the first tile that is too large. -/
def declarations (geometry : TileGeometry) (writer : LineWriter) : List Tile → TileCode
  | [] => ⟨writer, none⟩
  | tile :: rest =>
      match tile.declaration? geometry with
      | none => ⟨writer, some tile⟩
      | some stmt => declarations geometry (stmt.write writer) rest

/-- Writes the copy loops of tiles in order. -/
def copyLoops (geometry : TileGeometry) (border : BorderFill) (writer : LineWriter)
    (tiles : List Tile) : LineWriter :=
  tiles.foldl (fun writer tile => (tile.copyLoop geometry border).write writer) writer

/-- Writes the code at kernel entry: all arrays, then all copy loops, then the barrier.
Nothing is written if there are no tiles, and nothing after the arrays if one is too large. -/
def entry (geometry : TileGeometry) (border : BorderFill) (writer : LineWriter)
    (tiles : List Tile) : TileCode :=
  if tiles.isEmpty then ⟨writer, none⟩
  else
    let declared := declarations geometry writer tiles
    match declared.refused with
    | some _ => declared
    | none => ⟨Tile.barrier.write (copyLoops geometry border declared.writer tiles), none⟩

end TileCode

end BufferPromotion
