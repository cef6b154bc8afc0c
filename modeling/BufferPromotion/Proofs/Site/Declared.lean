import BufferPromotion.Code.Kernel
import BufferPromotion.Proofs.Alias.Groups
import BufferPromotion.Proofs.Site.Written

/-! # Every tile that is read is declared

Each site decides on its own whether it reads a tile, from its result and its base. The tiles that
are declared and filled at kernel entry come from the promoted pointers instead, grouped by buffer.
In a valid kernel the two fit together: a site that reads a tile points to the place of a group, so
it names an array that is declared, with the stride that its cells are filled with
(`sites_read_declared_tiles`).
-/

set_option autoImplicit false

namespace BufferPromotion

namespace Emission

/-! ## The tiles of the groups -/

/-- The tile of a group of promoted pointers, which is filled from the image in its buffer. -/
def tileOf (emission : Emission) (group : PointerGroup) : Tile :=
  Tile.ofKey (emission.kernel.bufferStem group.buffer)
    (emission.buffers.image emission.kernel group.buffer)

theorem tiles_eq_map {emission : Emission} (htiles : emission.settings.usesTiles = true) :
    emission.tiles = emission.analysis.pointerGroups.map emission.tileOf :=
  if_pos htiles

/-- Where a group is, its tile is declared. -/
theorem tileOf_mem_tiles {emission : Emission} (htiles : emission.settings.usesTiles = true)
    {group : PointerGroup} (hgroup : group ∈ emission.analysis.pointerGroups) :
    emission.tileOf group ∈ emission.tiles := by
  rw [tiles_eq_map htiles]
  exact List.mem_map_of_mem hgroup

end Emission

/-! ## The tiles of sites -/

/-- A site that reads a tile points where its base points, and that place has a group: even if the
site itself is never loaded, its base is promoted. -/
theorem SiteContext.exists_source_of_readsTile {context : SiteContext} {kernel : Kernel}
    (hanalysis : context.analysis = Analysis.ofKernel kernel) (hvalid : kernel.check = .ok ())
    {site : Operation} (hsite : site ∈ kernel.operations)
    (hreads : context.readsTile site = true) :
    ∃ base source, site.base = some base ∧
      context.analysis.aliases.pointers[site.id]? = some source ∧
      context.analysis.aliases.pointers[base]? = some source ∧
      PointerGroup.Covers context.analysis.pointerGroups source := by
  obtain ⟨hkind, -, hpromoted, -⟩ := readsTile_iff.mp hreads
  have hsame : context.analysis.aliases.pointers[site.id]? =
      site.base.bind (context.analysis.aliases.pointers[·]?) := by
    rw [hanalysis]
    exact AliasSet.pointers_ofKernel_of_isDerivation hvalid hsite (by rw [hkind]; rfl)
  -- promoted pointers are tracked
  have hsource : ∀ id ∈ context.analysis.promotion.promoted,
      ∃ source, context.analysis.aliases.pointers[id]? = some source := by
    rw [hanalysis]
    intro id hid
    exact AliasSet.hasPointer_iff.mp (Promotion.mem_promoted_ofOperations.mp hid).2.1
  rcases hpromoted with hresult | ⟨base, hbase, hresult⟩
  · obtain ⟨source, hfound⟩ := hsource site.id hresult
    have hboth := hsame.symm.trans hfound
    obtain ⟨base, hbase, hpoints⟩ := Option.bind_eq_some_iff.mp hboth
    have hcovers := Analysis.covers_pointerGroups.mpr ⟨site.id, hresult, hfound⟩
    exact ⟨base, source, hbase, hfound, hpoints, hcovers⟩
  · obtain ⟨source, hfound⟩ := hsource base hresult
    rw [hbase, Option.bind_some] at hsame
    have hcovers := Analysis.covers_pointerGroups.mpr ⟨base, hresult, hfound⟩
    exact ⟨base, source, hbase, hsame.trans hfound, hfound, hcovers⟩

namespace Emission

variable {emission : Emission} {site : Operation}

/-- A site that reads a tile and has two indices names the tile of the group of its place. -/
theorem exists_group_of_readsTile
    (hanalysis : emission.analysis = Analysis.ofKernel emission.kernel)
    (hvalid : emission.kernel.check = .ok ()) (hsite : site ∈ emission.kernel.operations)
    (hreads : emission.context.readsTile site = true) (hlength : site.indices.length = 2) :
    ∃ group ∈ emission.analysis.pointerGroups, ∃ x y,
      emission.analysis.aliases.bufferStart site.id = some group.buffer ∧ site.indices = [x, y] ∧
        emission.context.address? site = some (.cell (emission.tileOf group).name
          (SiteContext.localCoordinate (emission.context.nameOf y) "blockIdx.y"
            emission.geometry.block.y emission.geometry.halo.y)
          ((SiteContext.localCoordinate (emission.context.nameOf x) "blockIdx.x"
            emission.geometry.block.x emission.geometry.halo.x).scaled
              (emission.tileOf group).buffer.stride)) := by
  have hkind := (SiteContext.readsTile_iff.mp hreads).1
  obtain ⟨x, y, hindices⟩ := List.length_eq_two.mp hlength
  -- the group is that of the place where both the site and its base point
  obtain ⟨base, source, hbase, hown, hsource, group, hgroup, -, hsame⟩ :=
    SiteContext.exists_source_of_readsTile hanalysis hvalid hsite hreads
  have hstart : emission.context.analysis.aliases.bufferStart site.id = some group.buffer := by
    unfold AliasSet.bufferStart
    rw [hown, hsame]
    rfl
  have hbuffer : emission.context.tileBuffer site base = some group.buffer :=
    (SiteContext.tileBuffer_eq_some (hown.trans hsource.symm)).mpr ⟨source, hsource, hsame.symm⟩
  have hcell := SiteContext.tileCell?_eq_some_iff.mpr
    ⟨hreads, group.buffer, x, y, hbuffer, hindices, rfl⟩
  exact ⟨group, hgroup, x, y, hstart, hindices,
    SiteContext.address?_eq_cell_iff.mpr ⟨base, hkind, hbase, hcell⟩⟩

/-- A cell that a site reads is one of the tile of the group of its place. -/
theorem exists_group_of_cell (hanalysis : emission.analysis = Analysis.ofKernel emission.kernel)
    (hvalid : emission.kernel.check = .ok ()) (hsite : site ∈ emission.kernel.operations)
    {tile : String} {row column : Expr}
    (haddress : emission.context.address? site = some (.cell tile row column)) :
    ∃ group ∈ emission.analysis.pointerGroups,
      emission.analysis.aliases.bufferStart site.id = some group.buffer ∧
        (emission.tileOf group).name = tile := by
  have hcell : ∃ tile row column,
      emission.context.address? site = some (.cell tile row column) := ⟨tile, row, column, haddress⟩
  have hreads : emission.context.readsTile site = true ∧ site.indices.length = 2 := by
    unfold context at hcell ⊢
    rw [hanalysis] at hcell ⊢
    exact SiteContext.exists_cell_ofAnalysis_iff.mp hcell
  obtain ⟨group, hgroup, x, y, hstart, -, hname⟩ :=
    exists_group_of_readsTile hanalysis hvalid hsite hreads.1 hreads.2
  rw [haddress] at hname
  cases hname
  exact ⟨group, hgroup, hstart, rfl⟩

/-- No tile is declared for a target that does not promote. -/
theorem tiles_eq_nil (htiles : emission.settings.usesTiles = false) : emission.tiles = [] := by
  unfold tiles
  rw [htiles]
  rfl

end Emission

/-- **Every tile that is read is declared.** A scheduled site of a valid kernel that may read a tile
and has two indices does read one. The buffer that the site points into has a group of promoted
pointers, the tile of this group is declared, and it is the one that the address names and whose
stride scales the column. For a target that does not promote, no tile is declared and none is
read. -/
theorem sites_read_declared_tiles {kernel : Kernel} (hvalid : kernel.check = .ok ())
    (geometry : TileGeometry) (buffers : BufferTable) (settings : LaunchSettings) :
    let emission : Emission := ⟨kernel, Analysis.ofKernel kernel, geometry, buffers, settings⟩
    let context := emission.context
    (∀ site ∈ kernel.operations, context.readsTile site = true → site.indices.length = 2 →
      ∃ group ∈ emission.analysis.pointerGroups, ∃ x y,
        emission.analysis.aliases.bufferStart site.id = some group.buffer ∧
        site.indices = [x, y] ∧
        let tile := emission.tileOf group
        tile ∈ emission.tiles ∧
          context.address? site = some (.cell tile.name
            (SiteContext.localCoordinate (context.nameOf y) "blockIdx.y" geometry.block.y
              geometry.halo.y)
            ((SiteContext.localCoordinate (context.nameOf x) "blockIdx.x" geometry.block.x
              geometry.halo.x).scaled tile.buffer.stride))) ∧
    (settings.usesTiles = false →
      emission.tiles = [] ∧
        ∀ site tile row column, context.address? site ≠ some (.cell tile row column)) := by
  intro emission context
  constructor
  · intro site hsite hreads hlength
    have htiles := (SiteContext.readsTile_iff.mp hreads).2.1
    obtain ⟨group, hgroup, x, y, hstart, hindices, haddress⟩ :=
      emission.exists_group_of_readsTile rfl hvalid hsite hreads hlength
    exact ⟨group, hgroup, x, y, hstart, hindices, Emission.tileOf_mem_tiles htiles hgroup, haddress⟩
  · intro htiles
    refine ⟨Emission.tiles_eq_nil htiles, ?_⟩
    intro site tile row column haddress
    have hreads := (SiteContext.exists_cell_ofAnalysis_iff.mp ⟨tile, row, column, haddress⟩).1
    have huses : settings.usesTiles = true := (SiteContext.readsTile_iff.mp hreads).2.1
    rw [htiles] at huses
    cases huses

/-- A site whose result is never loaded reads the tile of its base, which has two elements per
pixel. -/
theorem unloaded_site_reads_tile_of_base :
    let kernel := (((((Kernel.empty "k").addParameter "src" (some .pointer) false).addParameter "x"
      (some .scalar) false).addParameter "y" (some .scalar) false).append (.loadOf 0)).append
        (.addressOf 0 [1, 2])
    let image : ImageBuffer := ⟨.f32, "src", "w", "h", 2⟩
    let emission : Emission :=
      ⟨kernel, Analysis.ofKernel kernel, ⟨⟨4, 4⟩, ⟨1, 1⟩⟩, BufferTable.empty.insert 0 image,
        .standard⟩
    let site : Operation := ⟨.addressOf 0 [1, 2], 4⟩
    kernel.check = .ok () ∧ site ∈ kernel.operations ∧
      emission.context.readsTile site = true ∧ site.id ∉ emission.analysis.promotion.promoted ∧
      ∃ group ∈ emission.analysis.pointerGroups, group.buffer = 0 ∧
        (emission.tileOf group).buffer.stride = 2 ∧ emission.tileOf group ∈ emission.tiles ∧
        ∃ row column, emission.context.address? site =
          some (.cell (emission.tileOf group).name row column) := by
  intro kernel image emission site
  have hvalid : kernel.check = .ok () := by decide +kernel
  have hsite : site ∈ kernel.operations := by decide +kernel
  have hreads : emission.context.readsTile site = true := by decide +kernel
  have hunloaded : site.id ∉ emission.analysis.promotion.promoted := by decide +kernel
  have hown : emission.analysis.aliases.bufferStart site.id = some 0 := by decide +kernel
  have hstride : (emission.buffers.image kernel 0).stride = 2 := by decide +kernel
  obtain ⟨group, hgroup, x, y, hstart, -, hdeclared, haddress⟩ :=
    (sites_read_declared_tiles hvalid ⟨⟨4, 4⟩, ⟨1, 1⟩⟩ (BufferTable.empty.insert 0 image)
      .standard).1 site hsite hreads rfl
  have hbuffer : group.buffer = 0 := Option.some.inj (hstart.symm.trans hown)
  have hscaled : (emission.tileOf group).buffer.stride = 2 := by
    unfold Emission.tileOf
    rw [hbuffer]
    exact hstride
  exact ⟨hvalid, hsite, hreads, hunloaded, group, hgroup, hbuffer, hscaled, hdeclared, _, _,
    haddress⟩

end BufferPromotion
