import BufferPromotion.Alias.Analysis
import BufferPromotion.Kernel.Chain
import BufferPromotion.Tile.Geometry

/-! # Summaries

A summary shows the analysis of a kernel, one line for each set of values and one for the
tiles. An empty set is shown as `-`.
-/

set_option autoImplicit false

namespace BufferPromotion

namespace Summary

/-- A line that shows values. -/
def valuesLine (kernel : Kernel) (label : String) (ids : List ValueId) : String :=
  if ids.isEmpty then label ++ ": -"
  else label ++ ":" ++ String.join (ids.map fun id => " " ++ kernel.shownName id)

/-- How a buffer is shown: by its field path, or as a value if it has none. -/
def bufferText (kernel : Kernel) (buffer : ValueId) : String :=
  match kernel.memberPath buffer with
  | some path => "%" ++ String.intercalate "." path
  | none => kernel.shownName buffer

/-- The tiles of a kernel with their size; there are none without a geometry. -/
def tileLabels (kernel : Kernel) (analysis : Analysis) (geometry : Option TileGeometry) :
    List String :=
  match geometry with
  | none => []
  | some geometry =>
      analysis.pointerGroups.map fun group =>
        bufferText kernel group.buffer ++ " " ++ geometry.extent.text

/-- The line that shows the tiles. -/
def tilesLine (labels : List String) : String :=
  "tiles: " ++ if labels.isEmpty then "-" else String.intercalate ", " labels

/-- The lines of a summary. -/
def lines (kernel : Kernel) (analysis : Analysis) (geometry : Option TileGeometry) : List String :=
  ["kernel " ++ kernel.name,
   valuesLine kernel "references" analysis.aliases.references.keys,
   valuesLine kernel "pointers" analysis.aliases.pointers.keys,
   valuesLine kernel "promoted" analysis.promotion.promoted.toList,
   valuesLine kernel "blacklisted" analysis.promotion.blacklisted.toList,
   tilesLine (tileLabels kernel analysis geometry)]

/-- The summary of a kernel. The geometry is given if the target promotes. -/
def text (kernel : Kernel) (analysis : Analysis) (geometry : Option TileGeometry) : String :=
  String.join ((lines kernel analysis geometry).map fun line => line ++ "\n")

end Summary

end BufferPromotion
