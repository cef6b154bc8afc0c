import BufferPromotion.Proofs.Buffer.Path
import BufferPromotion.Proofs.Listing.Reading
import BufferPromotion.Proofs.Site.Declared

/-! # Names of tiles

A tile is named after the path to its buffer, joined by `_`, while buffers are told apart by their
ids. Two promoted buffers share a name if their joined paths are the same: because one field is
extracted twice, or because a word of a path has a `_` of its own. `tile_names_distinct_iff` says
that nothing else goes wrong, and what follows where no two paths meet.
-/

set_option autoImplicit false

namespace BufferPromotion

/-- Parameters of a kernel that is read from a listing have different names. -/
theorem Kernel.Named.eq_of_name_eq {kernel : Kernel} (h : kernel.Named) {param other : Parameter}
    (hparam : param ∈ kernel.params) (hother : other ∈ kernel.params)
    (hname : param.name = other.name) : param = other := by
  have hid := h.eq_of_givenName? (h.param param hparam) ((h.param other hother).trans (by rw [hname]))
  exact h.listable.built.eq_of_id_eq hparam hother hid

theorem tileArrayName_inj {key other : String} :
    tileArrayName key = tileArrayName other ↔ key = other :=
  String.append_right_inj _

namespace Emission

variable {emission : Emission} (hanalysis : emission.analysis = Analysis.ofKernel emission.kernel)

include hanalysis

/-- The groups of two tiles are the same as soon as their buffers are. -/
theorem eq_of_buffer_eq {group other : PointerGroup}
    (hgroup : group ∈ emission.analysis.pointerGroups)
    (hother : other ∈ emission.analysis.pointerGroups) (hbuffer : group.buffer = other.buffer) :
    group = other := by
  rw [hanalysis] at hgroup hother
  have hnodup : ((Analysis.ofKernel emission.kernel).pointerGroups.map (·.buffer)).Nodup :=
    Analysis.nodup_buffers (AliasSet.startsKnown_ofKernel _)
  exact List.inj_on_of_nodup_map hnodup hgroup hother hbuffer

section Valid

variable (hbuilt : emission.kernel.Built) (hvalid : emission.kernel.check = .ok ())

include hbuilt hvalid

/-- The name of a tile is made from the path to its buffer, which starts at the parameter of its
group. -/
theorem exists_path_of_group {group : PointerGroup}
    (hgroup : group ∈ emission.analysis.pointerGroups) :
    ∃ param ∈ emission.kernel.params, param.id = group.root ∧
      ∃ fields, emission.kernel.memberPath group.buffer = some (param.name :: fields) ∧
        (emission.tileOf group).name =
          tileArrayName (String.intercalate "_" (param.name :: fields)) := by
  rw [hanalysis] at hgroup
  obtain ⟨param, hparam, hroot, fields, hpath⟩ := AliasSet.hasPath_of_pointers hbuilt hvalid
    (Analysis.pointers_buffer_of_mem (AliasSet.startsKnown_ofKernel _) hgroup)
  refine ⟨param, hparam, hroot, fields, hpath, ?_⟩
  exact congrArg tileArrayName (Kernel.bufferStem_of_memberPath hpath)

/-- Tiles have different names if and only if joined paths tell the promoted buffers apart. -/
theorem nodup_names_iff (htiles : emission.settings.usesTiles = true) :
    (emission.tiles.map (·.name)).Nodup ↔
      ∀ group ∈ emission.analysis.pointerGroups, ∀ other ∈ emission.analysis.pointerGroups,
        ∀ path path', emission.kernel.memberPath group.buffer = some path →
          emission.kernel.memberPath other.buffer = some path' →
          String.intercalate "_" path = String.intercalate "_" path' →
            group.buffer = other.buffer := by
  have hgroups : emission.analysis.pointerGroups.Nodup :=
    List.Nodup.of_map _ (Analysis.nodup_places emission.analysis)
  rw [tiles_eq_map htiles, List.map_map, List.nodup_map_iff_inj_on hgroups]
  constructor
  · intro h group hgroup other hother path path' hpath hpath' hjoined
    have hname : (emission.tileOf group).name = (emission.tileOf other).name := by
      unfold tileOf Tile.ofKey
      dsimp only
      rw [Kernel.bufferStem_of_memberPath hpath, Kernel.bufferStem_of_memberPath hpath', hjoined]
    rw [h group hgroup other hother hname]
  · intro h group hgroup other hother hname
    obtain ⟨_, -, -, fields, hpath, hstem⟩ :=
      exists_path_of_group hanalysis hbuilt hvalid hgroup
    obtain ⟨_, -, -, fields', hpath', hstem'⟩ :=
      exists_path_of_group hanalysis hbuilt hvalid hother
    have hjoined := tileArrayName_inj.mp (hstem.symm.trans (hname.trans hstem'))
    have hbuffer := h group hgroup other hother _ _ hpath hpath' hjoined
    exact eq_of_buffer_eq hanalysis hgroup hother hbuffer

omit hbuilt in
/-- If no two tiles have one name, sites that read cells of one array point into one buffer. -/
theorem bufferStart_eq_of_cells (htiles : emission.settings.usesTiles = true)
    (hnames : (emission.tiles.map (·.name)).Nodup) {site other : Operation}
    (hsite : site ∈ emission.kernel.operations) (hother : other ∈ emission.kernel.operations)
    {tile : String} {row column row' column' : Expr}
    (hcell : emission.context.address? site = some (.cell tile row column))
    (hcell' : emission.context.address? other = some (.cell tile row' column')) :
    emission.analysis.aliases.bufferStart site.id =
      emission.analysis.aliases.bufferStart other.id := by
  obtain ⟨group, hgroup, hstart, hname⟩ := exists_group_of_cell hanalysis hvalid hsite hcell
  obtain ⟨group', hgroup', hstart', hname'⟩ := exists_group_of_cell hanalysis hvalid hother hcell'
  rw [tiles_eq_map htiles, List.map_map] at hnames
  have hsame := List.inj_on_of_nodup_map hnames hgroup hgroup' (hname.trans hname'.symm)
  rw [hstart, hstart', hsame]

end Valid

end Emission

/-- A listing gives kernels if something is known of its first one. -/
theorem exists_listed_of_head {α : Type} {source : String} {part : ListedKernel → α} {known : α}
    (h : ((readListing source).value.bind List.head?).map part = some known) :
    ∃ kernels listed, (readListing source).value = some kernels ∧ listed ∈ kernels ∧
      part listed = known := by
  obtain ⟨listed, hfirst, hknown⟩ := Option.map_eq_some_iff.mp h
  obtain ⟨kernels, hread, hhead⟩ := Option.bind_eq_some_iff.mp hfirst
  exact ⟨kernels, listed, hread, List.mem_of_mem_head? hhead, hknown⟩

/-- **When every promoted buffer has a tile of its own.** In a kernel that is read from a listing,
the tile of a promoted buffer is named after the path to the buffer, the name of its parameter and
the fields from there, joined by `_`. So the names of the tiles are distinct if and only if no two
promoted buffers have the same joined path, and then sites that read cells of one array point into
one buffer. Where no word of the paths has a `_` of its own, this only depends on the paths as they
are; and two buffers with one path are the same field, extracted twice from one parameter. -/
theorem tile_names_distinct_iff {source : String} {kernels : List ListedKernel}
    {listed : ListedKernel} (hread : (readListing source).value = some kernels)
    (hlisted : listed ∈ kernels) (geometry : TileGeometry) (buffers : BufferTable)
    (settings : LaunchSettings) (htiles : settings.usesTiles = true) :
    let kernel := listed.kernel
    let emission : Emission := ⟨kernel, Analysis.ofKernel kernel, geometry, buffers, settings⟩
    let groups := emission.analysis.pointerGroups
    (∀ group ∈ groups, ∃ param ∈ kernel.params, param.id = group.root ∧
      ∃ fields, kernel.memberPath group.buffer = some (param.name :: fields) ∧
        (emission.tileOf group).name =
          tileArrayName (String.intercalate "_" (param.name :: fields))) ∧
    ((emission.tiles.map (·.name)).Nodup ↔
      ∀ group ∈ groups, ∀ other ∈ groups, ∀ path path', kernel.memberPath group.buffer = some path →
        kernel.memberPath other.buffer = some path' →
        String.intercalate "_" path = String.intercalate "_" path' →
          group.buffer = other.buffer) ∧
    ((emission.tiles.map (·.name)).Nodup →
      ∀ site ∈ kernel.operations, ∀ other ∈ kernel.operations, ∀ tile row column row' column',
        emission.context.address? site = some (.cell tile row column) →
        emission.context.address? other = some (.cell tile row' column') →
          emission.analysis.aliases.bufferStart site.id =
            emission.analysis.aliases.bufferStart other.id) ∧
    ((∀ group ∈ groups, ∀ path, kernel.memberPath group.buffer = some path →
        ∀ word ∈ path, '_' ∉ word.toList) →
      ((emission.tiles.map (·.name)).Nodup ↔
        ∀ group ∈ groups, ∀ other ∈ groups,
          kernel.memberPath group.buffer = kernel.memberPath other.buffer →
            group.buffer = other.buffer)) ∧
    ∀ group ∈ groups, ∀ other ∈ groups,
      kernel.memberPath group.buffer = kernel.memberPath other.buffer →
        group.root = other.root := by
  intro kernel emission groups
  have hnamed := named_of_readListing hread listed hlisted
  have hbuilt := hnamed.listable.built
  have hvalid := hnamed.listable.check_eq_ok
  have hpaths : ∀ group ∈ groups, _ :=
    fun _ hgroup => emission.exists_path_of_group rfl hbuilt hvalid hgroup
  have hnames := emission.nodup_names_iff rfl hbuilt hvalid htiles
  refine ⟨hpaths, hnames, ?_, ?_, ?_⟩
  · intro hnodup site hsite other hother tile row column row' column' hcell hcell'
    exact emission.bufferStart_eq_of_cells rfl hvalid htiles hnodup hsite hother hcell hcell'
  · intro hfree
    rw [hnames]
    -- without `_` in the words, joined paths are the same only if the paths are
    constructor
    · intro h group hgroup other hother hsame
      obtain ⟨_, -, -, fields, hpath, -⟩ := hpaths group hgroup
      exact h group hgroup other hother _ _ hpath (hsame.symm.trans hpath) rfl
    · intro h group hgroup other hother path path' hpath hpath' hjoined
      have hsame : path = path' :=
        (intercalate_inj (Kernel.memberPath_ne_nil hpath) (Kernel.memberPath_ne_nil hpath')
          (hfree group hgroup path hpath) (hfree other hother path' hpath')).mp hjoined
      exact h group hgroup other hother (by rw [hpath, hpath', hsame])
  · intro group hgroup other hother hsame
    obtain ⟨param, hparam, hroot, fields, hpath, -⟩ := hpaths group hgroup
    obtain ⟨param', hparam', hroot', fields', hpath', -⟩ := hpaths other hother
    rw [hpath, hpath'] at hsame
    obtain ⟨hname, -⟩ := List.cons.inj (Option.some.inj hsame)
    rw [← hroot, ← hroot', hnamed.eq_of_name_eq hparam hparam' hname]

/-- Two fields of one parameter get tiles with different names. -/
theorem fields_get_own_tiles :
    let source := "kernel k\nparam %img : struct Image\nparam %x : scalar\n" ++
      "%p = extract %img, data : ptr\n%q = extract %img, aux : ptr\n" ++
      "%a = lea %p, %x, %x\n%b = lea %q, %x, %x\n%v = load %a\n%w = load %b\n"
    ∃ kernels listed, (readListing source).value = some kernels ∧ listed ∈ kernels ∧
      let kernel := listed.kernel
      let emission : Emission :=
        ⟨kernel, Analysis.ofKernel kernel, ⟨⟨4, 4⟩, ⟨1, 1⟩⟩, .empty, .standard⟩
      emission.settings.usesTiles = true ∧
        emission.tiles.map (·.name) = ["tile_img_data", "tile_img_aux"] ∧
        ∀ site ∈ kernel.operations, ∀ other ∈ kernel.operations, ∀ tile row column row' column',
          emission.context.address? site = some (.cell tile row column) →
          emission.context.address? other = some (.cell tile row' column') →
            emission.analysis.aliases.bufferStart site.id =
              emission.analysis.aliases.bufferStart other.id := by
  intro source
  let fields := (((((Kernel.empty "k").addParameter "img" (some (.struct "Image")) false
    ).addParameter "x" (some .scalar) false).append (.extractOf 0 "data" .pointer)).withName 2 "p"
      |>.append (.extractOf 0 "aux" .pointer)).withName 3 "q"
  let sites := (((fields.append (.addressOf 2 [1, 1])).withName 4 "a").append
    (.addressOf 3 [1, 1])).withName 5 "b"
  let kernel := (((sites.append (.loadOf 4)).withName 6 "v").append (.loadOf 5)).withName 7 "w"
  have hfirst : ((readListing source).value.bind List.head?).map (·.kernel) = some kernel := by
    decide +kernel
  obtain ⟨kernels, listed, hread, hlisted, hkernel⟩ := exists_listed_of_head hfirst
  have hnames : (⟨listed.kernel, Analysis.ofKernel listed.kernel, ⟨⟨4, 4⟩, ⟨1, 1⟩⟩, .empty,
      .standard⟩ : Emission).tiles.map (·.name) = ["tile_img_data", "tile_img_aux"] := by
    rw [hkernel]
    decide +kernel
  obtain ⟨-, -, hcells, -⟩ :=
    tile_names_distinct_iff hread hlisted ⟨⟨4, 4⟩, ⟨1, 1⟩⟩ .empty .standard rfl
  refine ⟨kernels, listed, hread, hlisted, rfl, hnames, hcells ?_⟩
  rw [hnames]
  decide

/-- The field `data` of `img` and the parameter `img_data` share a name: the array is declared
twice, and two sites in different buffers have one and the same address. -/
theorem joined_paths_share_tile :
    let source := "kernel k\nparam %img : struct Image\nparam %img_data : ptr\n" ++
      "param %x : scalar\nparam %y : scalar\n%p = extract %img, data : ptr\n" ++
      "%a = lea %p, %x, %y\n%b = lea %img_data, %x, %y\n%v = load %a\n%w = load %b\n"
    ∃ kernels listed, (readListing source).value = some kernels ∧ listed ∈ kernels ∧
      let kernel := listed.kernel
      let emission : Emission :=
        ⟨kernel, Analysis.ofKernel kernel, ⟨⟨4, 4⟩, ⟨1, 1⟩⟩, .empty, .standard⟩
      emission.settings.usesTiles = true ∧
        (emission.tiles.map fun tile => (tile.name, tile.buffer.data)) =
          [("tile_img_data", "img.data"), ("tile_img_data", "img_data")] ∧
        ¬ (emission.tiles.map (·.name)).Nodup ∧
        ∃ site ∈ kernel.operations, ∃ other ∈ kernel.operations,
          (∃ tile row column, emission.context.address? site = some (.cell tile row column) ∧
            emission.context.address? other = some (.cell tile row column)) ∧
          emission.analysis.aliases.bufferStart site.id ≠
            emission.analysis.aliases.bufferStart other.id := by
  intro source
  let fields := (((((Kernel.empty "k").addParameter "img" (some (.struct "Image")) false
    ).addParameter "img_data" (some .pointer) false).addParameter "x" (some .scalar) false
      ).addParameter "y" (some .scalar) false).append (.extractOf 0 "data" .pointer)
        |>.withName 4 "p"
  let sites := (((fields.append (.addressOf 4 [2, 3])).withName 5 "a").append
    (.addressOf 1 [2, 3])).withName 6 "b"
  let kernel := (((sites.append (.loadOf 5)).withName 7 "v").append (.loadOf 6)).withName 8 "w"
  have hfirst : ((readListing source).value.bind List.head?).map (·.kernel) = some kernel := by
    decide +kernel
  obtain ⟨kernels, listed, hread, hlisted, hkernel⟩ := exists_listed_of_head hfirst
  let row := SiteContext.localCoordinate (.var "y") "blockIdx.y" 4 1
  let column := (SiteContext.localCoordinate (.var "x") "blockIdx.x" 4 1).scaled 1
  refine ⟨kernels, listed, hread, hlisted, ?_⟩
  rw [hkernel]
  refine ⟨rfl, by decide +kernel, by decide +kernel, ⟨.addressOf 4 [2, 3], 5⟩, by decide +kernel,
    ⟨.addressOf 1 [2, 3], 6⟩, by decide +kernel, ⟨"tile_img_data", row, column, ?_, ?_⟩, ?_⟩
  · decide +kernel
  · decide +kernel
  · decide +kernel

end BufferPromotion
