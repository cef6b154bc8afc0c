import BufferPromotion.Alias.Analysis
import BufferPromotion.Tile.Fill

/-! # Addresses in promoted buffers

Every address computation is a *site*. A site in a promoted buffer that has a coordinate for
each axis reads the tile, at the cell of its pixel. Every other site keeps its address in
global memory. A store through a pointer has to reach global memory, so no site on the way
from a written pointer back to its buffer reads the tile, wherever the store stands in the
kernel.
-/

set_option autoImplicit false

namespace BufferPromotion

/-- The address that a site evaluates to. -/
inductive SiteAddress where
  /-- A cell of a tile. -/
  | cell (tile : String) (row column : Expr)
  /-- An address in global memory. -/
  | memory (base : String) (offset : Expr)
  deriving DecidableEq, Repr

namespace SiteAddress

/-- Whether an address is that of a tile cell. -/
def isCell : SiteAddress → Bool
  | cell .. => true
  | memory .. => false

/-- The address as an expression. -/
def expr : SiteAddress → Expr
  | cell name row column => .addressOf (.element (.element (.var name) row) column)
  | memory base offset => (Expr.var base).add offset

/-- The parts of an address as they stand in its text. -/
def parts : SiteAddress → List String
  | cell name row column => [name, row.text, column.text]
  | memory base offset => [base, offset.textAsAddend]

end SiteAddress

/-- The pointers that are written to, and every pointer that these are derived from. -/
def storeSources (kernel : Kernel) (blacklisted : ValueSet) : ValueSet :=
  blacklisted.toList.foldl (fun written pointer =>
    (pointer :: kernel.derivationBases pointer).foldl Std.ExtTreeSet.insert written) ∅

/-- What the address of a site depends on. The analysis is that of the whole kernel. -/
structure SiteContext where
  kernel : Kernel
  analysis : Analysis
  geometry : TileGeometry
  buffers : BufferTable
  /-- Whether sites may read tiles at all. -/
  usesTiles : Bool
  /-- The pointers that lead to a store. -/
  written : ValueSet

namespace SiteContext

/-- The context of a kernel with its analysis. -/
def ofAnalysis (kernel : Kernel) (analysis : Analysis) (geometry : TileGeometry)
    (buffers : BufferTable) (usesTiles : Bool) : SiteContext :=
  ⟨kernel, analysis, geometry, buffers, usesTiles,
    storeSources kernel analysis.promotion.blacklisted⟩

/-- Whether a site addresses a promoted buffer that it may read through the tile. -/
def readsTile (context : SiteContext) (site : Operation) : Bool :=
  let promotion := context.analysis.promotion
  context.usesTiles && site.kind == .address && !context.written.contains site.id &&
    (promotion.hasPromoted site.id || site.base.any promotion.hasPromoted)

/-- Whether a site addresses a promoted buffer by a single index. There is no coordinate for
each axis then, so the site keeps reading global memory. -/
def lacksCoordinate (context : SiteContext) (site : Operation) : Bool :=
  context.readsTile site && site.indices.length < 2

/-- The variable of a value in generated code. -/
def nameOf (context : SiteContext) (id : ValueId) : Expr := .var (context.kernel.varName id)

/-- The tile coordinate of an image coordinate, on one axis: `x - origin * block + halo`. -/
def localCoordinate (coordinate : Expr) (origin : String) (block halo : UInt32) : Expr :=
  (coordinate.sub ((Expr.var origin).mul (.word block))).add (.word halo)

/-- The cell of a tile that holds a pixel. -/
def tileCell (context : SiteContext) (key : String) (stride : UInt32) (x y : Expr) : SiteAddress :=
  let block := context.geometry.block
  let halo := context.geometry.halo
  .cell (tileArrayName key) (localCoordinate y "blockIdx.y" block.y halo.y)
    ((localCoordinate x "blockIdx.x" block.x halo.x).scaled stride)

/-- The buffer whose tile a site would read: that of its result, or that of its base. -/
def tileBuffer (context : SiteContext) (site : Operation) (base : ValueId) : Option ValueId :=
  let aliases := context.analysis.aliases
  (aliases.bufferStart site.id).orElse fun _ => aliases.bufferStart base

/-- The cell that a site reads, if it can read a tile. -/
def tileCell? (context : SiteContext) (site : Operation) (base : ValueId) : Option SiteAddress :=
  if context.readsTile site then
    match context.tileBuffer site base, site.indices with
    | some buffer, [x, y] =>
        let stride := (context.buffers.image context.kernel buffer).stride
        let key := context.kernel.bufferStem buffer
        some (context.tileCell key stride (context.nameOf x) (context.nameOf y))
    | _, _ => none
  else none

/-- The offset of a pixel in global memory: its number in the image, times the number of
elements per pixel. -/
def pixelOffset (context : SiteContext) (base x y : ValueId) : Expr :=
  let image := (context.kernel.bufferStart base).map (context.buffers.image context.kernel)
  let width : Expr := image.elim (.var "width") fun buffer => .given buffer.width
  let pixel := ((context.nameOf y).mul width).add (context.nameOf x)
  pixel.scaled (image.elim 1 (·.stride))

/-- The address of a site in global memory. -/
def memoryAddress (context : SiteContext) (site : Operation) (base : ValueId) : SiteAddress :=
  let offset : Expr :=
    match site.indices with
    | [x, y] => context.pixelOffset base x y
    | [x] => context.nameOf x
    | _ => .number 0
  .memory (context.kernel.varName base) offset

/-- The address that a site evaluates to; `none` for any other operation. -/
def address? (context : SiteContext) (site : Operation) : Option SiteAddress :=
  match site.kind, site.base with
  | .address, some base =>
      some ((context.tileCell? site base).getD (context.memoryAddress site base))
  | _, _ => none

end SiteContext

end BufferPromotion
