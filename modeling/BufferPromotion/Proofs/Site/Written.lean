import BufferPromotion.Proofs.Alias.Promotion
import BufferPromotion.Proofs.Kernel.Derivation
import BufferPromotion.Proofs.Kernel.Validity
import BufferPromotion.Site.Address

/-! # Stores never reach a tile

A tile is private to its block and is thrown away at the end of the kernel, so a store has to go
to global memory. The main statement (`site_reads_tile_iff`) says which sites read a tile: exactly
those with two indices in a promoted buffer that no store of the kernel leads back to.
-/

set_option autoImplicit false

namespace BufferPromotion

/-! ## The written pointers -/

/-- The sources of some pointers are all the values that the pointers lead to. -/
theorem mem_storeSources {kernel : Kernel} {blacklisted : ValueSet} {id : ValueId} :
    id ∈ storeSources kernel blacklisted ↔ ∃ pointer ∈ blacklisted, kernel.LeadsTo pointer id := by
  -- each pointer adds itself and its bases, which are all the values it leads to
  have hfold : ∀ (pointers : List ValueId) (written : ValueSet),
      id ∈ pointers.foldl (fun written pointer =>
          (pointer :: kernel.derivationBases pointer).foldl Std.ExtTreeSet.insert written) written ↔
        (∃ pointer ∈ pointers, kernel.LeadsTo pointer id) ∨ id ∈ written := by
    intro pointers
    induction pointers with
    | nil => simp
    | cons pointer pointers ih =>
        intro written
        rw [List.foldl_cons, ih, ValueSet.mem_insertAll, Kernel.mem_cons_derivationBases]
        simp only [List.mem_cons, exists_eq_or_imp]
        rw [or_left_comm, or_assoc]
  unfold storeSources
  rw [hfold, or_iff_left Std.ExtTreeSet.not_mem_empty]
  simp only [Std.ExtTreeSet.mem_toList]

namespace SiteContext

/-! ## Which sites read a tile -/

section Decision

variable {context : SiteContext} {site : Operation}

/-- The result or the base of a site is promoted. -/
def InPromotedBuffer (context : SiteContext) (site : Operation) : Prop :=
  site.id ∈ context.analysis.promotion.promoted ∨
    ∃ base, site.base = some base ∧ base ∈ context.analysis.promotion.promoted

theorem readsTile_iff :
    context.readsTile site = true ↔
      site.kind = .address ∧ context.usesTiles = true ∧ context.InPromotedBuffer site ∧
        site.id ∉ context.written := by
  unfold readsTile InPromotedBuffer Promotion.hasPromoted
  cases hbase : site.base with
  | none =>
      simp only [Bool.and_eq_true, Bool.or_eq_true, Option.any_none, beq_iff_eq,
        Bool.not_eq_true', Std.ExtTreeSet.contains_iff_mem, ← Bool.not_eq_true]
      tauto
  | some base =>
      simp only [Bool.and_eq_true, Bool.or_eq_true, Option.any_some, beq_iff_eq,
        Bool.not_eq_true', Std.ExtTreeSet.contains_iff_mem, ← Bool.not_eq_true,
        Option.some.injEq, exists_eq_left']
      tauto

/-- Whether a site has the address of a tile cell. -/
theorem address?_eq_cell_iff {tile : String} {row column : Expr} :
    context.address? site = some (.cell tile row column) ↔
      ∃ base, site.kind = .address ∧ site.base = some base ∧
        context.tileCell? site base = some (.cell tile row column) := by
  unfold address?
  split
  · next base hkind hbase =>
    constructor
    · intro h
      cases hcell : context.tileCell? site base with
      | none => simp [hcell, memoryAddress] at h
      | some cell =>
          rw [hcell, Option.getD_some] at h
          exact ⟨base, hkind, hbase, hcell.trans h⟩
    · rintro ⟨base', -, hbase', hcell⟩
      rw [hbase] at hbase'
      cases hbase'
      rw [hcell, Option.getD_some]
  · next hother =>
    refine ⟨nofun, ?_⟩
    rintro ⟨base, hkind, hbase, -⟩
    exact absurd hbase (hother base hkind)

/-- A site that is known to point where its base points has the buffer of its base. -/
theorem tileBuffer_eq_some {base buffer : ValueId} (hsame : context.analysis.aliases.pointers[site.id]? =
    context.analysis.aliases.pointers[base]?) :
    context.tileBuffer site base = some buffer ↔
      ∃ source, context.analysis.aliases.pointers[base]? = some source ∧
        source.buffer = buffer := by
  unfold tileBuffer AliasSet.bufferStart
  rw [Option.orElse_eq_or, hsame, Option.or_self, Option.map_eq_some_iff]

/-- The cell of a site is that of the pixel at its two indices, in the tile of its buffer. -/
theorem tileCell?_eq_some_iff {base : ValueId} {cell : SiteAddress} :
    context.tileCell? site base = some cell ↔
      context.readsTile site = true ∧ ∃ buffer x y, context.tileBuffer site base = some buffer ∧
        site.indices = [x, y] ∧
        cell = context.tileCell (context.kernel.bufferStem buffer)
          (context.buffers.image context.kernel buffer).stride (context.nameOf x)
          (context.nameOf y) := by
  unfold tileCell?
  split
  · next hreads =>
    split
    · next buffer x y hbuffer hindices =>
      constructor
      · intro h
        exact ⟨hreads, buffer, x, y, hbuffer, hindices, (Option.some.inj h).symm⟩
      · rintro ⟨-, buffer', x', y', hbuffer', hindices', rfl⟩
        rw [hbuffer] at hbuffer'
        rw [hindices] at hindices'
        cases hbuffer'
        cases hindices'
        rfl
    · next hother =>
      refine ⟨nofun, ?_⟩
      rintro ⟨-, buffer, x, y, hbuffer, hindices, -⟩
      exact absurd hindices (hother buffer x y hbuffer)
  · next hreads => exact ⟨nofun, fun h => absurd h.1 hreads⟩

/-- A site that reads no tile keeps its address in global memory. -/
theorem address?_eq_memory_iff {name : String} {offset : Expr} :
    context.address? site = some (.memory name offset) ↔
      ∃ base, site.kind = .address ∧ site.base = some base ∧ context.tileCell? site base = none ∧
        context.memoryAddress site base = .memory name offset := by
  unfold address?
  split
  · next base hkind hbase =>
    cases hcell : context.tileCell? site base with
    | none =>
        rw [Option.getD_none, Option.some.injEq]
        constructor
        · exact fun h => ⟨base, hkind, hbase, hcell, h⟩
        · rintro ⟨base', -, hbase', -, h⟩
          rw [hbase] at hbase'
          cases hbase'
          exact h
    | some cell =>
        -- a cell is never an address in global memory
        obtain ⟨-, buffer, x, y, -, -, rfl⟩ := tileCell?_eq_some_iff.mp hcell
        refine ⟨nofun, ?_⟩
        rintro ⟨base', -, hbase', hnone, -⟩
        rw [hbase] at hbase'
        cases hbase'
        rw [hcell] at hnone
        cases hnone
  · next hother =>
    refine ⟨nofun, ?_⟩
    rintro ⟨base, hkind, hbase, -⟩
    exact absurd hbase (hother base hkind)

/-- A site whose buffer is known reads a tile as soon as it may and has two indices. -/
theorem tileCell?_isSome_iff {base : ValueId}
    (hbuffer : context.readsTile site = true → (context.tileBuffer site base).isSome = true) :
    (∃ cell, context.tileCell? site base = some cell) ↔
      context.readsTile site = true ∧ site.indices.length = 2 := by
  constructor
  · rintro ⟨cell, hcell⟩
    obtain ⟨hreads, buffer, x, y, -, hindices, -⟩ := tileCell?_eq_some_iff.mp hcell
    exact ⟨hreads, by rw [hindices]; rfl⟩
  · rintro ⟨hreads, hlength⟩
    obtain ⟨buffer, hsome⟩ := Option.isSome_iff_exists.mp (hbuffer hreads)
    obtain ⟨x, y, hindices⟩ := List.length_eq_two.mp hlength
    exact ⟨_, tileCell?_eq_some_iff.mpr ⟨hreads, buffer, x, y, hsome, hindices, rfl⟩⟩

end Decision

end SiteContext

/-! ## Sites of an analysed kernel -/

/-- An address computation with an index has a base. -/
theorem Node.exists_base_of_indices {node : Node} (hkind : node.kind = .address)
    (hlength : 0 < node.indices.length) : ∃ base, node.base = some base := by
  unfold Node.indices at hlength
  unfold Node.base
  rw [hkind] at hlength ⊢
  cases hoperands : node.operands with
  | nil => simp [hoperands] at hlength
  | cons base rest => exact ⟨base, rfl⟩

/-- A promoted pointer is tracked, so the start of its buffer is known. -/
theorem Analysis.bufferStart_isSome {kernel : Kernel} {id : ValueId}
    (h : id ∈ (Analysis.ofKernel kernel).promotion.promoted) :
    ((Analysis.ofKernel kernel).aliases.bufferStart id).isSome = true := by
  have htracked : (Analysis.ofKernel kernel).aliases.hasPointer id = true :=
    (Promotion.mem_promoted_ofOperations.mp h).2.1
  unfold AliasSet.hasPointer at htracked
  rw [Std.ExtTreeMap.contains_eq_isSome_getElem?] at htracked
  unfold AliasSet.bufferStart
  rw [Option.isSome_map, htracked]

namespace SiteContext

section Analysed

variable {kernel : Kernel} {geometry : TileGeometry} {buffers : BufferTable} {usesTiles : Bool}

/-- The written values are those that written pointers lead to. -/
theorem mem_written_ofAnalysis {id : ValueId} :
    id ∈ (ofAnalysis kernel (Analysis.ofKernel kernel) geometry buffers usesTiles).written ↔
      ∃ store ∈ kernel.operations, ∃ pointer,
        store.WritesThrough pointer ∧ kernel.LeadsTo pointer id := by
  show id ∈ storeSources kernel _ ↔ _
  rw [mem_storeSources]
  constructor
  · rintro ⟨pointer, hbarred, hleads⟩
    obtain ⟨store, hstore, hwrites⟩ := Promotion.mem_blacklisted_ofOperations.mp hbarred
    exact ⟨store, hstore, pointer, hwrites, hleads⟩
  · rintro ⟨store, hstore, pointer, hwrites, hleads⟩
    exact ⟨pointer, Promotion.mem_blacklisted_ofOperations.mpr ⟨store, hstore, hwrites⟩, hleads⟩

/-- A site has the address of a tile cell as soon as it may read a tile and has two indices. -/
theorem exists_cell_ofAnalysis_iff {site : Operation} :
    (∃ tile row column,
      (ofAnalysis kernel (Analysis.ofKernel kernel) geometry buffers usesTiles).address? site =
        some (.cell tile row column)) ↔
      (ofAnalysis kernel (Analysis.ofKernel kernel) geometry buffers usesTiles).readsTile site =
        true ∧ site.indices.length = 2 := by
  -- a promoted pointer is tracked, so the buffer of a site that may read a tile is known
  have hbuffer : ∀ base, site.base = some base →
      (ofAnalysis kernel (Analysis.ofKernel kernel) geometry buffers usesTiles).readsTile site =
        true →
      ((ofAnalysis kernel (Analysis.ofKernel kernel) geometry buffers usesTiles).tileBuffer site
        base).isSome = true := by
    intro base hbase hreads
    unfold tileBuffer
    rw [Option.orElse_eq_or, Option.isSome_or, Bool.or_eq_true]
    rcases (readsTile_iff.mp hreads).2.2.1 with hsite | ⟨base', hbase', hpromoted⟩
    · exact Or.inl (Analysis.bufferStart_isSome hsite)
    · rw [hbase] at hbase'
      cases hbase'
      exact Or.inr (Analysis.bufferStart_isSome hpromoted)
  constructor
  · rintro ⟨tile, row, column, h⟩
    obtain ⟨base, -, hbase, hcell⟩ := address?_eq_cell_iff.mp h
    exact (tileCell?_isSome_iff (hbuffer base hbase)).mp ⟨_, hcell⟩
  · rintro ⟨hreads, hlength⟩
    have hkind := (readsTile_iff.mp hreads).1
    obtain ⟨base, hbase⟩ := Node.exists_base_of_indices hkind (by omega)
    obtain ⟨cell, hcell⟩ := (tileCell?_isSome_iff (hbuffer base hbase)).mpr ⟨hreads, hlength⟩
    obtain ⟨-, buffer, x, y, -, -, rfl⟩ := tileCell?_eq_some_iff.mp hcell
    exact ⟨_, _, _, address?_eq_cell_iff.mpr ⟨base, hkind, hbase, hcell⟩⟩

end Analysed

end SiteContext

/-- **Stores never reach a tile, and nothing else is held back.** A site reads a tile if and only
if tiles are used, it has two indices, its result or its base is promoted, and no pointer that
any operation of the kernel writes through leads back to it. So no address computation between a
written pointer and the buffer it points into has the address of a tile cell. -/
theorem site_reads_tile_iff (kernel : Kernel) (geometry : TileGeometry) (buffers : BufferTable)
    (usesTiles : Bool) :
    let context :=
      SiteContext.ofAnalysis kernel (Analysis.ofKernel kernel) geometry buffers usesTiles
    (∀ site : Operation,
      (∃ tile row column, context.address? site = some (.cell tile row column)) ↔
        site.kind = .address ∧ usesTiles = true ∧ site.indices.length = 2 ∧
          context.InPromotedBuffer site ∧
          ∀ store ∈ kernel.operations, ∀ pointer, store.WritesThrough pointer →
            ¬ kernel.LeadsTo pointer site.id) ∧
    ∀ store ∈ kernel.operations, ∀ pointer, store.WritesThrough pointer →
      ∀ (site : Operation) (address : SiteAddress), kernel.LeadsTo pointer site.id →
        context.address? site = some address → address.isCell = false := by
  intro context
  constructor
  · intro site
    rw [SiteContext.exists_cell_ofAnalysis_iff, SiteContext.readsTile_iff,
      SiteContext.mem_written_ofAnalysis]
    constructor
    · rintro ⟨⟨hkind, htiles, hpromoted, hfree⟩, hlength⟩
      refine ⟨hkind, htiles, hlength, hpromoted, ?_⟩
      intro store hstore pointer hwrites hleads
      exact hfree ⟨store, hstore, pointer, hwrites, hleads⟩
    · rintro ⟨hkind, htiles, hlength, hpromoted, hfree⟩
      refine ⟨⟨hkind, htiles, hpromoted, ?_⟩, hlength⟩
      rintro ⟨store, hstore, pointer, hwrites, hleads⟩
      exact hfree store hstore pointer hwrites hleads
  · intro store hstore pointer hwrites site address hleads haddress
    cases address with
    | memory base offset => rfl
    | cell tile row column =>
        have hreads :=
          (SiteContext.exists_cell_ofAnalysis_iff.mp ⟨tile, row, column, haddress⟩).1
        refine absurd ?_ (SiteContext.readsTile_iff.mp hreads).2.2.2
        exact SiteContext.mem_written_ofAnalysis.mpr ⟨store, hstore, pointer, hwrites, hleads⟩

end BufferPromotion
