import BufferPromotion.Compile.Basic
import BufferPromotion.Proofs.Buffer.Image
import BufferPromotion.Proofs.Code.Source
import BufferPromotion.Proofs.Listing.Reading
import BufferPromotion.Proofs.Tile.Geometry

/-! # Emission does not fail

Code is written only if the launch configuration gives a geometry and the tile of every declared
buffer fits. Emission then asks for the rows of tiles whose images may come from a declaration of
the buffer, a declaration of its parameter, or no declaration at all. All their strides have been
checked, so no tile is refused (`emission_succeeds`).
-/

set_option autoImplicit false

namespace BufferPromotion

/-! ## The check of the strides -/

/-- No error is reported if and only if every declared stride is accepted. -/
theorem ListedKernel.strideErrors_eq_nil_iff {listed : ListedKernel} {geometry : TileGeometry} :
    listed.strideErrors geometry = [] ↔
      ∀ id image, listed.buffers.get? id = some image →
        ∃ row, geometry.rowElements image.stride = some row := by
  unfold strideErrors
  rw [List.map_eq_nil_iff, List.filter_eq_nil_iff]
  constructor
  · intro h id image himage
    have haccepted := h (id, image) (BufferTable.mem_toList_iff.mpr himage)
    exact Option.ne_none_iff_exists'.mp (by simpa using haccepted)
  · rintro h ⟨id, image⟩ hmem
    obtain ⟨row, hrow⟩ := h id image (BufferTable.mem_toList_iff.mp hmem)
    simp [hrow]

/-- If all declared strides are accepted, then so is the stride of every image. -/
theorem ListedKernel.exists_rowElements_image {listed : ListedKernel} {config : LaunchConfig}
    {geometry : TileGeometry} (hgeometry : TileGeometry.ofLaunch? config = some geometry)
    (hfits : listed.strideErrors geometry = []) (kernel : Kernel) (buffer : ValueId) :
    ∃ row, geometry.rowElements (listed.buffers.image kernel buffer).stride = some row := by
  have hdeclared := strideErrors_eq_nil_iff.mp hfits
  have hone := (TileGeometry.ofLaunch?_eq_some hgeometry).2
  exact BufferTable.stride_image_of_declared
    (motive := fun stride => ∃ row, geometry.rowElements stride = some row) hone hdeclared kernel
    buffer

namespace Emission

variable {emission : Emission}

/-- Every tile is that of an image of the table. -/
theorem exists_image_of_mem_tiles {tile : Tile} (h : tile ∈ emission.tiles) :
    ∃ buffer, tile.buffer = emission.buffers.image emission.kernel buffer := by
  unfold tiles at h
  split at h
  · obtain ⟨group, -, rfl⟩ := List.mem_map.mp h
    exact ⟨group.buffer, rfl⟩
  · exact absurd h List.not_mem_nil

end Emission

/-! ## Compiling a kernel -/

/-- A kernel that gets past its checks is compiled to its output. -/
theorem ListedKernel.value_compile {listed : ListedKernel} {options : Options}
    {geometry : TileGeometry}
    (hgeometry : TileGeometry.ofLaunch? (listed.launchOf options.settings.launch) = some geometry)
    (hfits : listed.strideErrors geometry = []) :
    (listed.compile options).value =
      (listed.output options geometry (Analysis.ofKernel listed.kernel)).value := by
  unfold compile
  dsimp only
  rw [hgeometry]
  dsimp only
  rw [hfits, List.foldl_nil, Outcome.foldl_warn, Outcome.foldl_warn]
  rfl

/-- **Emission does not fail.** Whatever parts of the launch configuration a kernel declares itself
and whatever parts the options give, the extent of an accepted geometry and its number of pixels
are computed without overflow. If in addition the tiles of all declared buffers fit, then the row
of every tile of the kernel is accepted, and code is written. -/
theorem emission_succeeds {listed : ListedKernel} {options : Options} {geometry : TileGeometry}
    (hgeometry : TileGeometry.ofLaunch? (listed.launchOf options.settings.launch) =
      some geometry) :
    let launch := listed.launchOf options.settings.launch
    let width := launch.block.x.toNat + 2 * (launch.filter.x.toNat / 2)
    let height := launch.block.y.toNat + 2 * (launch.filter.y.toNat / 2)
    geometry.extent.x.toNat = width ∧ geometry.extent.y.toNat = height ∧
      geometry.pixelCount.toNat = width * height ∧
      (listed.strideErrors geometry = [] →
        let emission : Emission := ⟨listed.kernel, Analysis.ofKernel listed.kernel, geometry,
          listed.buffers, options.settings⟩
        (∀ tile ∈ emission.tiles, ∃ row,
          geometry.rowElements tile.buffer.stride = some row ∧
            row.toNat = width * tile.buffer.stride.toNat ∧
            row.toNat * height ≤ elementLimit.toNat) ∧
        ∃ code, emission.run = .ok code ∧ code.tiles = emission.tiles ∧
          (options.format = .kernel → (listed.compile options).value = some code.source)) := by
  intro launch width height
  obtain ⟨hblock, one, hone⟩ := TileGeometry.ofLaunch?_eq_some hgeometry
  have hextent := TileGeometry.toNat_extent hgeometry
  have hx : geometry.extent.x.toNat = width := by
    rw [hextent.1, hblock]
    rfl
  have hy : geometry.extent.y.toNat = height := by
    rw [hextent.2, hblock]
    rfl
  refine ⟨hx, hy, ?_, ?_⟩
  · -- a tile with one element per pixel was accepted, so its pixels can be counted
    obtain ⟨hrow, hlimit⟩ := TileGeometry.toNat_rowElements hgeometry hone
    have hbound : width * height ≤ elementLimit.toNat := by
      calc width * height
          = width * (1 : UInt32).toNat * height := by rw [UInt32.toNat_one, Nat.mul_one]
        _ = one.toNat * geometry.extent.y.toNat := by rw [hrow, hx, hy]
        _ ≤ elementLimit.toNat := hlimit
    have hlt : elementLimit.toNat < 2 ^ 32 := by decide
    unfold TileGeometry.pixelCount
    rw [UInt32.toNat_mul, hx, hy]
    exact Nat.mod_eq_of_lt (Nat.lt_of_le_of_lt hbound hlt)
  · intro hfits emission
    have haccepted : ∀ tile ∈ emission.tiles,
        ∃ row, geometry.rowElements tile.buffer.stride = some row := by
      intro tile htile
      obtain ⟨buffer, himage⟩ := Emission.exists_image_of_mem_tiles htile
      rw [himage]
      exact ListedKernel.exists_rowElements_image hgeometry hfits listed.kernel buffer
    refine ⟨fun tile htile => ?_, ?_⟩
    · obtain ⟨row, hrow⟩ := haccepted tile htile
      obtain ⟨hwidth, hlimit⟩ := TileGeometry.toNat_rowElements hgeometry hrow
      rw [hx] at hwidth
      rw [hy] at hlimit
      exact ⟨row, hrow, hwidth, hlimit⟩
    · have hrun := Emission.run_eq_ok_iff.mpr ⟨haccepted, rfl⟩
      refine ⟨_, hrun, rfl, fun hformat => ?_⟩
      rw [ListedKernel.value_compile hgeometry hfits]
      unfold ListedKernel.output ListedKernel.code
      rw [hformat]
      dsimp only
      rw [hrun]
      rfl

/-- The block is declared, the filter is that of the options, and the field of the image has the
stride that is declared for its parameter. -/
theorem declared_parameter_emits :
    let kernel := ((((Kernel.empty "k").addParameter "img" (some (.struct "Image")) false
      ).addParameter "x" (some .scalar) false).append (.extractOf 0 "data" .pointer)).append
        (.addressOf 2 [1, 1])
    let listed : ListedKernel := { ListedKernel.opened "k" ⟨0, 8⟩ with
      kernel := kernel.append (.loadOf 3)
      block := some ⟨⟨8, 6⟩, ⟨9, 9⟩⟩
      buffers := BufferTable.empty.insert 0 ⟨.u8, "img.data", "img.width", "img.height", 3⟩ }
    let options : Options := { Options.standard with format := .kernel }
    let geometry : TileGeometry := ⟨⟨8, 6⟩, ⟨2, 2⟩⟩
    let emission : Emission := ⟨listed.kernel, Analysis.ofKernel listed.kernel, geometry,
      listed.buffers, options.settings⟩
    options.check = .ok () ∧
      TileGeometry.ofLaunch? (listed.launchOf options.settings.launch) = some geometry ∧
      listed.strideErrors geometry = [] ∧ geometry.pixelCount.toNat = 12 * 10 ∧
      (∃ tile ∈ emission.tiles, ∃ row, geometry.rowElements tile.buffer.stride = some row ∧
        row.toNat = 12 * 3) ∧
      ∃ code, emission.run = .ok code ∧ (listed.compile options).value = some code.source := by
  intro kernel listed options geometry emission
  have hgeometry :
      TileGeometry.ofLaunch? (listed.launchOf options.settings.launch) = some geometry := by
    decide +kernel
  have hfits : listed.strideErrors geometry = [] := by decide +kernel
  obtain ⟨-, -, hcount, hemitted⟩ := emission_succeeds hgeometry
  obtain ⟨htiles, code, hrun, -, hvalue⟩ := hemitted hfits
  let tile : Tile := ⟨"tile_img_data", ⟨.u8, "img.data", "img.width", "img.height", 3⟩⟩
  have htile : tile ∈ emission.tiles := by decide +kernel
  obtain ⟨row, hrow, hwidth, -⟩ := htiles tile htile
  exact ⟨by decide +kernel, hgeometry, hfits, hcount.trans (by decide +kernel),
    ⟨tile, htile, row, hrow, hwidth.trans (by decide +kernel)⟩, code, hrun, hvalue rfl⟩

end BufferPromotion
