import BufferPromotion.Proofs.Tile.CopyLoop
import BufferPromotion.Proofs.Tile.Geometry
import BufferPromotion.Site.Address
import Mathlib.Tactic.Ring

/-! # Filling a tile agrees with reading it

The copy loops and the addresses of sites are two pieces of index arithmetic that know nothing
of each other. The main statement (`fill_agrees_with_read`) puts them together: after the copy
loops, a site that asks for a pixel near its block finds this pixel in the tile, whatever the
sizes of block, halo and pixel are, and in whatever order the threads have written.
-/

set_option autoImplicit false

namespace BufferPromotion

/-! ## Elements of one origin -/

/-- If one element of a list is the only one to give something that a test keeps, then all that
the test keeps is what this element gives. -/
theorem filter_flatMap_of_unique {α β : Type} {xs : List α} {f : α → List β} {keep : β → Bool}
    {x : α} (hxs : xs.Nodup) (hx : x ∈ xs)
    (hother : ∀ y ∈ xs, y ≠ x → (f y).filter keep = []) :
    (xs.flatMap f).filter keep = (f x).filter keep := by
  obtain ⟨before, after, rfl⟩ := List.append_of_mem hx
  obtain ⟨-, hafter, hdisjoint⟩ := List.nodup_append.mp hxs
  have hnil : ∀ part : List α, (∀ y ∈ part, y ∈ before ++ x :: after ∧ y ≠ x) →
      (part.flatMap fun y => (f y).filter keep) = [] := by
    intro part hpart
    rw [List.flatMap_eq_nil_iff]
    exact fun y hy => hother y (hpart y hy).1 (hpart y hy).2
  rw [List.filter_flatMap, List.flatMap_append, List.flatMap_cons,
    hnil before fun y hy => ⟨List.mem_append_left _ hy,
      hdisjoint y hy x List.mem_cons_self⟩,
    hnil after fun y hy => ⟨List.mem_append_right _ (List.mem_cons_of_mem _ hy),
      fun h => (List.nodup_cons.mp hafter).1 (h ▸ hy)⟩,
    List.nil_append, List.append_nil]

/-- An element that is written at most once holds what is written, in whatever order the writes
come. -/
theorem contentAfter_of_perm {order writes : List ElementWrite} {array : String}
    {row column : Int} {content : Option Content} (horder : order.Perm writes)
    (h : (writes.filter (·.isAt array row column)).map (·.content) = content.toList) :
    contentAfter order array row column = content := by
  -- a list of at most one write has no other order
  have hperm := (horder.filter (·.isAt array row column)).map (·.content)
  rw [h] at hperm
  unfold contentAfter
  cases content with
  | none => rw [List.perm_nil.mp hperm]; rfl
  | some content => rw [List.perm_singleton.mp hperm]; rfl

namespace Tile

/-! ## What is written to an element -/

section Elements

variable (texts : Scope) (border : BorderFill) (tile : Tile)

theorem mem_cellWrites {lx ly gx gy : Int} {write : ElementWrite}
    (h : write ∈ tile.cellWrites texts border lx ly gx gy) :
    write.array = tile.name ∧ write.row = ly ∧
      ∃ c < tile.buffer.stride.toNat, write.column = lx * tile.buffer.stride.toNat + c := by
  obtain ⟨c, hc, h⟩ := List.mem_flatMap.mp h
  obtain ⟨content, -, rfl⟩ := List.mem_map.mp h
  exact ⟨rfl, rfl, c, List.mem_range.mp hc, rfl⟩

/-- A column belongs to one element of one cell. -/
theorem column_unique {stride lx lx' c c' : Nat} (hc : c < stride) (hc' : c' < stride)
    (h : (lx : Int) * stride + c = lx' * stride + c') : lx = lx' ∧ c = c' := by
  have hnat : lx * stride + c = lx' * stride + c' := by exact_mod_cast h
  have hpos : 0 < stride := by omega
  -- the quotient is the cell, the remainder the element
  have hdiv := congrArg (· / stride) hnat
  simp only [Nat.mul_comm _ stride, Nat.mul_add_div hpos, Nat.div_eq_of_lt hc,
    Nat.div_eq_of_lt hc', Nat.add_zero] at hdiv
  subst hdiv
  exact ⟨rfl, by omega⟩

/-- Of the writes to a cell, one at most goes to a given element. -/
theorem filter_cellWrites {lx ly c : Nat} {gx gy : Int} (hc : c < tile.buffer.stride.toNat) :
    ((tile.cellWrites texts border lx ly gx gy).filter
      (·.isAt tile.name ly (lx * tile.buffer.stride.toNat + c))).map (·.content) =
      (tile.content? texts border gx gy c).toList := by
  unfold cellWrites
  rw [filter_flatMap_of_unique List.nodup_range (List.mem_range.mpr hc)]
  · cases tile.content? texts border gx gy c <;> simp [ElementWrite.isAt]
  · intro c' hc' hne
    refine List.filter_eq_nil_iff.mpr fun write hwrite => ?_
    obtain ⟨content, -, rfl⟩ := List.mem_map.mp hwrite
    simp only [ElementWrite.isAt, decide_eq_true_eq, true_and]
    exact fun h => hne (column_unique (List.mem_range.mp hc') hc h).2

/-- Of the writes of a block, one at most goes to a given element: the one that is made when
the cell of the element is visited. -/
theorem filter_writesOf_blockSteps {outer : Scope} {geometry : TileGeometry} {origin : Int × Int}
    (hx : 0 < geometry.block.x.toNat) (hy : 0 < geometry.block.y.toNat) {lx ly c : Nat}
    (hlx : lx < geometry.extent.x.toNat) (hly : ly < geometry.extent.y.toNat)
    (hc : c < tile.buffer.stride.toNat) :
    ((writesOf texts
        (blockSteps texts outer geometry origin (tile.copyLoop geometry border))).filter
      (·.isAt tile.name ly (lx * tile.buffer.stride.toNat + c))).map (·.content) =
      (tile.content? texts border (pixelOf origin.1 geometry.block.x geometry.halo.x lx)
        (pixelOf origin.2 geometry.block.y geometry.halo.y ly) c).toList := by
  -- among the visited cells, only the one of the element writes to it
  rw [writesOf_blockSteps, filter_flatMap_of_unique (nodup_visitedCells hx hy)
    ((mem_visitedCells hx hy).mpr ⟨hlx, hly⟩)]
  · exact filter_cellWrites texts border tile hc
  · rintro ⟨lx', ly'⟩ - hne
    refine List.filter_eq_nil_iff.mpr fun write hwrite => ?_
    obtain ⟨-, hrow, c', hc', hcolumn⟩ := mem_cellWrites texts border tile hwrite
    simp only [ElementWrite.isAt, decide_eq_true_eq, hrow, hcolumn]
    rintro ⟨-, hly', hcolumn'⟩
    obtain ⟨rfl, -⟩ := column_unique hc' hc hcolumn'
    exact hne (Prod.ext rfl (Int.ofNat_inj.mp hly'))

/-- Every write of a block goes to an element of the tile. -/
theorem write_inside {outer : Scope} {geometry : TileGeometry} {origin : Int × Int}
    (hx : 0 < geometry.block.x.toNat) (hy : 0 < geometry.block.y.toNat) {write : ElementWrite}
    (h : write ∈
      writesOf texts (blockSteps texts outer geometry origin (tile.copyLoop geometry border))) :
    ∃ row column : Nat, write.array = tile.name ∧ write.row = row ∧ write.column = column ∧
      row < geometry.extent.y.toNat ∧
      column < geometry.extent.x.toNat * tile.buffer.stride.toNat := by
  rw [writesOf_blockSteps, List.mem_flatMap] at h
  obtain ⟨⟨lx, ly⟩, hcell, h⟩ := h
  obtain ⟨hlx, hly⟩ := (mem_visitedCells hx hy).mp hcell
  obtain ⟨harray, hrow, c, hc, hcolumn⟩ := mem_cellWrites texts border tile h
  refine ⟨ly, lx * tile.buffer.stride.toNat + c, harray, hrow, ?_, hly, ?_⟩
  · rw [hcolumn, Int.natCast_add, Int.natCast_mul]
  · calc lx * tile.buffer.stride.toNat + c
        < (lx + 1) * tile.buffer.stride.toNat := by rw [Nat.succ_mul]; omega
      _ ≤ geometry.extent.x.toNat * tile.buffer.stride.toNat := Nat.mul_le_mul_right _ hlx

end Elements

end Tile

/-! ## What a site reads -/

/-- The array, the row and the column that an address in a tile points at. -/
def SiteAddress.element? (texts scope : Scope) : SiteAddress → Option (String × Int × Int)
  | .cell tile row column =>
      match row.value? texts scope, column.value? texts scope with
      | some row, some column => some (tile, row, column)
      | _, _ => none
  | .memory .. => none

theorem value?_localCoordinate {texts scope : Scope} {coordinate : Expr} {origin : String}
    {block halo : UInt32} {position first : Int}
    (hcoordinate : coordinate.value? texts scope = some position) (horigin : scope origin = first) :
    (SiteContext.localCoordinate coordinate origin block halo).value? texts scope =
      some (position - first * block.toNat + halo.toNat) := by
  have hvar : (Expr.var origin).value? texts scope = some first := congrArg some horigin
  exact Expr.value?_add (Expr.value?_sub hcoordinate (Expr.value?_mul hvar rfl)) rfl

theorem element?_tileCell {texts scope : Scope} {context : SiteContext} {x y : Expr}
    {px py : Int} {origin : Int × Int} (key : String) (stride : UInt32)
    (hx : x.value? texts scope = some px) (hy : y.value? texts scope = some py)
    (hox : scope "blockIdx.x" = origin.1) (hoy : scope "blockIdx.y" = origin.2) :
    (context.tileCell key stride x y).element? texts scope =
      some (tileArrayName key,
        py - origin.2 * context.geometry.block.y.toNat + context.geometry.halo.y.toNat,
        (px - origin.1 * context.geometry.block.x.toNat + context.geometry.halo.x.toNat) *
          stride.toNat) := by
  have hrow := @value?_localCoordinate texts scope y "blockIdx.y" context.geometry.block.y
    context.geometry.halo.y py origin.2 hy hoy
  have hcolumn := @Expr.value?_scaled texts scope _ stride _
    (@value?_localCoordinate texts scope x "blockIdx.x" context.geometry.block.x
      context.geometry.halo.x px origin.1 hx hox)
  simp [SiteContext.tileCell, SiteAddress.element?, hrow, hcolumn]

/-! ## Filling and reading -/

/-- **Filling a tile agrees with reading it.** All threads of a block run the copy loops of the
tile of a buffer. Every cell of the tile is visited once. Nothing is written outside of the
declared array. Whatever the order of the writes is, afterwards each element holds the element of
the image pixel of its cell, and if there is no such pixel, zero or nothing, as the border asks
for. So a site of this block that asks for a pixel of the image not further from the block than
the halo finds the elements of the pixel in the tile. The texts of the image are read outside of the
scope of the loops, so this speaks of images that the loops do not capture: none of these texts
mentions a parameter that is called like a variable of the loops around it. -/
theorem fill_agrees_with_read {config : LaunchConfig} {geometry : TileGeometry}
    (hgeometry : TileGeometry.ofLaunch? config = some geometry)
    (hx : 1 ≤ geometry.block.x.toNat) (hy : 1 ≤ geometry.block.y.toNat)
    (key : String) (image : ImageBuffer) {row : UInt32}
    (hrow : geometry.rowElements image.stride = some row) (border : BorderFill)
    (origin : Int × Int) (texts outer : Scope) :
    let tile := Tile.ofKey key image
    let run := blockSteps texts outer geometry origin (tile.copyLoop geometry border)
    let blockX := geometry.block.x.toNat
    let blockY := geometry.block.y.toNat
    let haloX := geometry.halo.x.toNat
    let haloY := geometry.halo.y.toNat
    let extentX := blockX + 2 * haloX
    let extentY := blockY + 2 * haloY
    let stride := image.stride.toNat
    let width := texts image.width
    let height := texts image.height
    (∀ lx < extentX, ∀ ly < extentY,
      (run.filterMap (tile.visit? border)).count ((lx : Int), (ly : Int)) = 1) ∧
    tile.declaration? geometry =
      some (.sharedArray image.elem.codeName tile.name extentY (extentX * stride)) ∧
    (∀ write ∈ writesOf texts run, ∃ r < extentY, ∃ k < extentX * stride,
      write.array = tile.name ∧ write.row = (r : Nat) ∧ write.column = (k : Nat)) ∧
    ∀ order, order.Perm (writesOf texts run) →
      (∀ lx < extentX, ∀ ly < extentY, ∀ c < stride,
        let gx : Int := origin.1 * blockX - haloX + lx
        let gy : Int := origin.2 * blockY - haloY + ly
        contentAfter order tile.name ly (lx * stride + c) =
          if 0 ≤ gx ∧ gx < width ∧ 0 ≤ gy ∧ gy < height then
            some (.fetched image.data ((gy * width + gx) * stride + c))
          else if border = .zero then some (.number 0) else none) ∧
      ∀ (context : SiteContext) (scope : Scope) (x y : Expr) (px py : Int),
        context.geometry = geometry →
        scope "blockIdx.x" = origin.1 → scope "blockIdx.y" = origin.2 →
        x.value? texts scope = some px → y.value? texts scope = some py →
        origin.1 * blockX - haloX ≤ px → px < origin.1 * blockX + blockX + haloX →
        origin.2 * blockY - haloY ≤ py → py < origin.2 * blockY + blockY + haloY →
        0 ≤ px → px < width → 0 ≤ py → py < height →
        ∃ r < extentY, ∃ k, k + stride ≤ extentX * stride ∧
          (context.tileCell key image.stride x y).element? texts scope =
            some (tile.name, ((r : Nat) : Int), ((k : Nat) : Int)) ∧
          ∀ c < stride, contentAfter order tile.name r (k + c) =
            some (.fetched image.data ((py * width + px) * stride + c)) := by
  intro tile run blockX blockY haloX haloY extentX extentY stride width height
  have hex : geometry.extent.x.toNat = extentX := (TileGeometry.toNat_extent hgeometry).1
  have hey : geometry.extent.y.toNat = extentY := (TileGeometry.toNat_extent hgeometry).2
  have hcell : ∀ lx < extentX, ∀ ly < extentY, (lx, ly) ∈ Tile.visitedCells geometry := by
    intro lx hlx ly hly
    exact (Tile.mem_visitedCells hx hy).mpr ⟨hex ▸ hlx, hey ▸ hly⟩
  -- one write at most goes to an element, so the order of the writes does not matter
  have hcontent : ∀ order, order.Perm (writesOf texts run) →
      ∀ lx < extentX, ∀ ly < extentY, ∀ c < stride,
        contentAfter order tile.name ly (lx * stride + c) =
          tile.content? texts border (origin.1 * blockX - haloX + lx)
            (origin.2 * blockY - haloY + ly) c := by
    intro order horder lx hlx ly hly c hc
    exact contentAfter_of_perm horder
      (Tile.filter_writesOf_blockSteps texts border tile hx hy (hex ▸ hlx) (hey ▸ hly) hc)
  refine ⟨?_, ?_, ?_, fun order horder => ⟨?_, ?_⟩⟩
  · -- every cell is visited, and none of them twice
    intro lx hlx ly hly
    rw [Tile.visits_blockSteps]
    refine List.count_eq_one_of_mem ?_ (List.mem_map.mpr ⟨_, hcell lx hlx ly hly, rfl⟩)
    refine (Tile.nodup_visitedCells hx hy).map fun a b h => ?_
    simp only [Prod.mk.injEq, Int.ofNat_inj] at h
    exact Prod.ext h.1 h.2
  · -- the declared array has a row for every line of cells
    have hlength := (TileGeometry.toNat_rowElements hgeometry hrow).1
    rw [hex] at hlength
    show (geometry.rowElements image.stride).map _ = _
    rw [hrow, Option.map_some, hlength, hey]
    rfl
  · intro write hwrite
    obtain ⟨r, k, harray, hr, hk, hrlt, hklt⟩ := Tile.write_inside texts border tile hx hy hwrite
    rw [hey] at hrlt
    rw [hex] at hklt
    exact ⟨r, hrlt, k, hklt, harray, hr, hk⟩
  · intro lx hlx ly hly c hc
    exact hcontent order horder lx hlx ly hly c hc
  · intro context scope x y px py hcontext hox hoy hpx hpy hxlo hxhi hylo hyhi hx0 hxw hy0 hyh
    -- the cell of the pixel: the site subtracts the origin and adds the halo
    obtain ⟨lx, hlx⟩ := Int.eq_ofNat_of_zero_le (show 0 ≤ px - origin.1 * blockX + haloX by omega)
    obtain ⟨ly, hly⟩ := Int.eq_ofNat_of_zero_le (show 0 ≤ py - origin.2 * blockY + haloY by omega)
    have hlxlt : lx < extentX := by omega
    have hlylt : ly < extentY := by omega
    refine ⟨ly, hlylt, lx * stride, ?_, ?_, ?_⟩
    · rw [← Nat.succ_mul]
      exact Nat.mul_le_mul_right _ hlxlt
    · rw [element?_tileCell key image.stride hpx hpy hox hoy, hcontext]
      show some (tile.name, py - origin.2 * blockY + haloY,
        (px - origin.1 * blockX + haloX) * stride) = _
      rw [hlx, hly, Int.natCast_mul]
    · -- the copy loops go the other way, and arrive at the pixel again
      intro c hc
      have hgx : origin.1 * blockX - haloX + lx = px := by omega
      have hgy : origin.2 * blockY - haloY + ly = py := by omega
      have h := hcontent order horder lx hlxlt ly hlylt c hc
      rw [hgx, hgy] at h
      rw [Int.natCast_mul, h]
      exact if_pos ⟨hx0, hxw, hy0, hyh⟩

/-- The first block of an image of two elements per pixel: the second element of the corner cell
has no pixel, and one cell further in stands the second element of the first pixel. -/
theorem first_block_filled :
    let geometry : TileGeometry := ⟨⟨3, 2⟩, ⟨1, 1⟩⟩
    let texts : Scope := fun _ => 100
    let loop := (Tile.ofKey "uv" ⟨.f32, "uv", "w", "h", 2⟩).copyLoop geometry .zero
    let run := blockSteps texts (fun _ => 0) geometry (0, 0) loop
    TileGeometry.ofLaunch? ⟨⟨3, 2⟩, ⟨3, 3⟩⟩ = some geometry ∧
      geometry.rowElements 2 = some 10 ∧
      contentAfter (writesOf texts run) "tile_uv" 0 1 = some (.number 0) ∧
      contentAfter (writesOf texts run) "tile_uv" 1 3 = some (.fetched "uv" 1) := by
  intro geometry texts loop run
  have hgeometry : TileGeometry.ofLaunch? ⟨⟨3, 2⟩, ⟨3, 3⟩⟩ = some geometry := by decide
  have hrow : geometry.rowElements 2 = some 10 := by decide
  have h := ((fill_agrees_with_read hgeometry (by decide) (by decide) "uv"
    ⟨.f32, "uv", "w", "h", 2⟩ hrow .zero (0, 0) texts (fun _ => 0)).2.2.2 _ (List.Perm.refl _)).1
  exact ⟨hgeometry, hrow, h 0 (by decide) 0 (by decide) 1 (by decide),
    h 1 (by decide) 1 (by decide) 1 (by decide)⟩

end BufferPromotion
