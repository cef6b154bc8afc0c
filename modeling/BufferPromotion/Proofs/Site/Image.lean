import BufferPromotion.Code.Kernel
import BufferPromotion.Proofs.Alias.Groups
import BufferPromotion.Proofs.Site.Written

/-! # The image that a site reads

A tile is declared and filled for the buffer that the alias set stores with a promoted pointer
(`mem_tiles_of_promoted`). An address in global memory takes width and stride from the buffer that
the chain of the base finds. Since set and chains agree, both forms of a site are about the same
image (`aliases_agree_with_chains`).
-/

set_option autoImplicit false

namespace BufferPromotion

/-- A promoted pointer has a tile, which is filled from the image in its buffer. -/
theorem Emission.mem_tiles_of_promoted {emission : Emission} {pointer : ValueId}
    {source : PointerSource} (htiles : emission.settings.usesTiles = true)
    (hpromoted : pointer ∈ emission.analysis.promotion.promoted)
    (hsource : emission.analysis.aliases.pointers[pointer]? = some source) :
    Tile.ofKey (emission.kernel.bufferStem source.buffer)
      (emission.buffers.image emission.kernel source.buffer) ∈ emission.tiles := by
  obtain ⟨group, hgroup, -, hbuffer⟩ :=
    Analysis.covers_pointerGroups.mpr ⟨pointer, hpromoted, hsource⟩
  unfold tiles
  rw [if_pos htiles, ← hbuffer]
  exact List.mem_map_of_mem hgroup

namespace SiteContext

variable {context : SiteContext} {site : Operation} {base buffer x y : ValueId}

/-- The address of a pixel in global memory, in the image of a buffer. -/
theorem memoryAddress_pixel (hindices : site.indices = [x, y])
    (hbuffer : context.kernel.bufferStart base = some buffer) :
    context.memoryAddress site base = .memory (context.kernel.varName base)
      ((((context.nameOf y).mul (.given (context.buffers.image context.kernel buffer).width)).add
        (context.nameOf x)).scaled (context.buffers.image context.kernel buffer).stride) := by
  unfold memoryAddress pixelOffset
  rw [hindices, hbuffer]
  rfl

end SiteContext

/-- **The alias set and the chains of a valid kernel agree.** A tracked value comes from the
parameter that its chain ends at, which is of known type and no filter. A value is a tracked
pointer if and only if its chain finds the start of a buffer that is one, and the two ways to ask
for the buffer of a tracked pointer give the same. So the cell of a site is that of a tile which is
filled from the very image whose width and stride its address in global memory is made of. -/
theorem aliases_agree_with_chains {kernel : Kernel} (hbuilt : kernel.Built)
    (hvalid : kernel.check = .ok ()) :
    let aliases := (Analysis.ofKernel kernel).aliases
    (∀ id, aliases.tracks id = true →
      ∃ param ∈ kernel.params, kernel.rootParam id = some param ∧
        aliases.paramOf id = some param.id ∧ param.isFilter = false ∧
        param.type.isSome = true) ∧
    (∀ id, aliases.hasPointer id = true ↔
      ∃ start, kernel.bufferStart id = some start ∧ aliases.hasPointer start = true) ∧
    (∀ id, aliases.hasPointer id = true → aliases.bufferStart id = kernel.bufferStart id) ∧
    ∀ (geometry : TileGeometry) (buffers : BufferTable) (settings : LaunchSettings),
      let emission : Emission := ⟨kernel, Analysis.ofKernel kernel, geometry, buffers, settings⟩
      let context := emission.context
      ∀ site ∈ kernel.operations, ∀ tile row column,
        context.address? site = some (.cell tile row column) →
        ∃ base buffer x y, site.base = some base ∧ site.indices = [x, y] ∧
          kernel.bufferStart base = some buffer ∧
          let image := buffers.image kernel buffer
          SiteAddress.cell tile row column = context.tileCell (kernel.bufferStem buffer)
            image.stride (context.nameOf x) (context.nameOf y) ∧
          Tile.ofKey (kernel.bufferStem buffer) image ∈ emission.tiles ∧
          (SiteContext.ofAnalysis kernel (Analysis.ofKernel kernel) geometry buffers
              false).address? site =
            some (.memory (kernel.varName base)
              ((((context.nameOf y).mul (.given image.width)).add (context.nameOf x)).scaled
                image.stride)) := by
  intro aliases
  refine ⟨?_, fun id => AliasSet.hasPointer_iff_bufferStart hbuilt hvalid,
    fun id h => AliasSet.bufferStart_eq_of_hasPointer hbuilt h, ?_⟩
  · intro id htracked
    obtain ⟨root, hroot⟩ := AliasSet.tracks_iff_exists_paramOf.mp htracked
    obtain ⟨param, hparam, hchain, rfl, hfilter, htype⟩ :=
      AliasSet.rootParam_of_paramOf hbuilt hvalid hroot
    exact ⟨param, hparam, hchain, hroot, hfilter, htype⟩
  · intro geometry buffers settings emission context site hsite tile row column haddress
    obtain ⟨base, hkind, hbase, hcell⟩ := SiteContext.address?_eq_cell_iff.mp haddress
    obtain ⟨hreads, buffer, x, y, hbuffer, hindices, hcell⟩ :=
      SiteContext.tileCell?_eq_some_iff.mp hcell
    obtain ⟨-, htiles, hpromoted, -⟩ := SiteContext.readsTile_iff.mp hreads
    -- the site points into the buffer of its base, which is the one that the chain finds
    have hsame : aliases.pointers[site.id]? = aliases.pointers[base]? := by
      have h := AliasSet.pointers_ofKernel_of_isDerivation hvalid hsite (by rw [hkind]; rfl)
      rw [hbase] at h
      exact h
    obtain ⟨source, hsource, rfl⟩ := (SiteContext.tileBuffer_eq_some hsame).mp hbuffer
    have hstart : kernel.bufferStart base = some source.buffer :=
      AliasSet.kernel_bufferStart_of_pointers hbuilt hsource
    refine ⟨base, source.buffer, x, y, hbase, hindices, hstart, hcell, ?_, ?_⟩
    · rcases hpromoted with hresult | ⟨base', hbase', hresult⟩
      · exact Emission.mem_tiles_of_promoted htiles hresult (hsame.trans hsource)
      · rw [hbase] at hbase'
        cases hbase'
        exact Emission.mem_tiles_of_promoted htiles hresult hsource
    · refine SiteContext.address?_eq_memory_iff.mpr ⟨base, hkind, hbase, rfl, ?_⟩
      exact SiteContext.memoryAddress_pixel hindices hstart

/-- A field of a nested struct that is seen as a pointer, by a reinterpretation whose own type is
another one. -/
theorem nested_field_agrees_with_chain :
    let kernel := ((((((((Kernel.empty "k").addParameter "img" (some (.struct "Image")) false
      ).addParameter "x" (some .scalar) false).addParameter "y" (some .scalar) false).append
        (.extractOf 0 "plane" (.struct "Plane"))).append (.extractOf 3 "data" .pointer)).append
          ⟨.reinterpret, some .scalar, [4]⟩).append (.addressOf 5 [1, 2])).append (.loadOf 6)
    let aliases := (Analysis.ofKernel kernel).aliases
    let emission : Emission :=
      ⟨kernel, Analysis.ofKernel kernel, ⟨⟨4, 4⟩, ⟨1, 1⟩⟩, .empty, .standard⟩
    kernel.Built ∧ kernel.check = .ok () ∧ aliases.tracks 6 = true ∧
      aliases.paramOf 6 = some 0 ∧ aliases.hasPointer 6 = true ∧
      kernel.bufferStart 6 = some 4 ∧ aliases.bufferStart 6 = some 4 ∧
      (∃ site ∈ kernel.operations, (∃ tile row column,
        emission.context.address? site = some (.cell tile row column)) ∧
        ∃ base buffer, site.base = some base ∧ kernel.bufferStart base = some buffer ∧
          Tile.ofKey (kernel.bufferStem buffer) (BufferTable.empty.image kernel buffer) ∈
            emission.tiles) := by
  intro kernel aliases emission
  have hbuilt : kernel.Built :=
    .append (.append (.append (.append (.append (.addParameter (.addParameter (.addParameter
      (.empty "k") ..) ..) ..) _) _) _) _) _
  have hvalid : kernel.check = .ok () := by decide +kernel
  obtain ⟨hparams, -, hbuffers, hsites⟩ := aliases_agree_with_chains hbuilt hvalid
  have htracked : aliases.tracks 6 = true := by decide +kernel
  have hpointer : aliases.hasPointer 6 = true := by decide +kernel
  have hstart : kernel.bufferStart 6 = some 4 := by decide +kernel
  have hparam : aliases.paramOf 6 = some 0 := by
    obtain ⟨param, -, hroot, hsame, -⟩ := hparams 6 htracked
    have hfirst : kernel.rootParam 6 = some ⟨0, "img", some (.struct "Image"), false⟩ := by
      decide +kernel
    rw [hfirst] at hroot
    cases hroot
    exact hsame
  let site : Operation := ⟨.addressOf 5 [1, 2], 6⟩
  have hsite : site ∈ kernel.operations := by decide +kernel
  have hcell : ∃ tile row column,
      emission.context.address? site = some (.cell tile row column) := ⟨_, _, _, rfl⟩
  obtain ⟨tile, row, column, haddress⟩ := hcell
  obtain ⟨base, buffer, x, y, hbase, -, hbuffer, -, htile, -⟩ :=
    hsites ⟨⟨4, 4⟩, ⟨1, 1⟩⟩ .empty .standard site hsite tile row column haddress
  exact ⟨hbuilt, hvalid, htracked, hparam, hpointer, hstart, (hbuffers 6 hpointer).trans hstart,
    site, hsite, ⟨tile, row, column, haddress⟩, base, buffer, hbase, hbuffer, htile⟩

end BufferPromotion
