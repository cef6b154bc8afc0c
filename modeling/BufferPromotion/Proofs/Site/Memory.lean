import BufferPromotion.Proofs.Site.Coordinates

/-! # Sites that keep their address in global memory

In global memory the address of a site is the value of its base, moved by an offset. That value
was computed by generated code as well: it is a pointer into a tile as soon as some address
computation that the base leads back to has the address of a tile cell (`inTile_iff`). The choice
between the two forms of a site looks at the site and its base only, not at the form that the base
has got. So an offset can be added to the address of a tile cell (`linear_site_offsets_cell`), and
the main statement (`memory_site_base`) says which sites this happens to.
-/

set_option autoImplicit false

namespace BufferPromotion

namespace SiteContext

/-- The variable of a value holds a pointer into a tile: the address of a cell, or such a pointer
after it was moved by an offset or reinterpreted. -/
inductive InTile (context : SiteContext) : ValueId → Prop where
  | cell {op : Operation} {tile : String} {row column : Expr}
      (hop : context.kernel.operation? op.id = some op)
      (haddress : context.address? op = some (.cell tile row column)) : InTile context op.id
  | moved {op : Operation} {base : ValueId} {name : String} {offset : Expr}
      (hop : context.kernel.operation? op.id = some op) (hbase : op.base = some base)
      (haddress : context.address? op = some (.memory name offset)) (h : InTile context base) :
      InTile context op.id
  | reinterpreted {id base : ValueId} (hstep : context.kernel.ReinterpretedFrom id base)
      (h : InTile context base) : InTile context id

variable {context : SiteContext}

theorem exists_address {site : Operation} {base : ValueId} (hkind : site.kind = .address)
    (hbase : site.base = some base) : ∃ address, context.address? site = some address := by
  unfold address?
  rw [hkind, hbase]
  exact ⟨_, rfl⟩

/-- A pointer is in a tile if and only if it leads back to the address of a cell. -/
theorem inTile_iff {id : ValueId} :
    context.InTile id ↔ ∃ op, context.kernel.operation? op.id = some op ∧
      context.kernel.LeadsTo id op.id ∧
      ∃ tile row column, context.address? op = some (.cell tile row column) := by
  constructor
  · intro h
    induction h with
    | @cell op tile row column hop haddress =>
        exact ⟨op, hop, .refl, tile, row, column, haddress⟩
    | @moved op base name offset hop hbase haddress _ ih =>
        obtain ⟨inner, hinner, hleads, hcell⟩ := ih
        obtain ⟨-, hkind, -⟩ := address?_eq_memory_iff.mp haddress
        have hstep : context.kernel.DerivedFrom op.id base :=
          Kernel.derivedFrom_iff_or.mpr (Or.inr ⟨op, hop, hkind, hbase⟩)
        exact ⟨inner, hinner, .head hstep hleads, hcell⟩
    | @reinterpreted id base hstep _ ih =>
        obtain ⟨inner, hinner, hleads, hcell⟩ := ih
        exact ⟨inner, hinner, .head (Kernel.derivedFrom_iff_or.mpr (Or.inl hstep)) hleads, hcell⟩
  · rintro ⟨op, hop, hleads, tile, row, column, haddress⟩
    induction hleads using Relation.ReflTransGen.head_induction_on with
    | refl => exact .cell hop haddress
    | @head id base hstep _ ih =>
        rcases Kernel.derivedFrom_iff_or.mp hstep with hreinterpreted | ⟨first, hfirst, hkind, hbase⟩
        · exact .reinterpreted hreinterpreted ih
        · -- an address computation on the way is a cell itself, or moves its base
          obtain ⟨address, haddress⟩ := exists_address hkind hbase
          have hid := Kernel.operation?_id hfirst
          rw [← hid] at hfirst ⊢
          cases address with
          | cell tile row column => exact .cell hfirst haddress
          | memory name offset => exact .moved hfirst hbase haddress ih

/-! ## Analysed kernels -/

section Analysed

variable {kernel : Kernel} {geometry : TileGeometry} {buffers : BufferTable} {usesTiles : Bool}
  {id : ValueId}

theorem inTile_ofAnalysis_iff (hbuilt : kernel.Built) :
    (ofAnalysis kernel (Analysis.ofKernel kernel) geometry buffers usesTiles).InTile id ↔
      ∃ inner ∈ kernel.operations, kernel.LeadsTo id inner.id ∧ ∃ tile row column,
        (ofAnalysis kernel (Analysis.ofKernel kernel) geometry buffers usesTiles).address? inner =
          some (.cell tile row column) := by
  rw [inTile_iff]
  refine exists_congr fun inner => ?_
  constructor
  · rintro ⟨hop, hleads, tile, row, column, hcell⟩
    obtain ⟨base, -, hbase, -⟩ := address?_eq_cell_iff.mp hcell
    exact ⟨Kernel.mem_operations_of_base hbuilt hop hbase, hleads, tile, row, column, hcell⟩
  · rintro ⟨hmem, hleads, hcell⟩
    exact ⟨Kernel.operation?_of_mem hmem, hleads, hcell⟩

/-- A pointer that a store leads back to is in no tile. -/
theorem not_inTile_of_writesThrough (hbuilt : kernel.Built) {store : Operation}
    (hstore : store ∈ kernel.operations) {pointer : ValueId} (hwrites : store.WritesThrough pointer)
    (hleads : kernel.LeadsTo pointer id) :
    ¬ (ofAnalysis kernel (Analysis.ofKernel kernel) geometry buffers usesTiles).InTile id := by
  rw [inTile_ofAnalysis_iff hbuilt]
  rintro ⟨inner, -, hinner, hcell⟩
  -- the way of the store goes on to the cell, but no cell is written
  have hreads := (exists_cell_ofAnalysis_iff.mp hcell).1
  refine absurd ?_ (readsTile_iff.mp hreads).2.2.2
  exact mem_written_ofAnalysis.mpr ⟨store, hstore, pointer, hwrites, hleads.trans hinner⟩

/-- A pointer is in no tile if and only if there are no tiles, or a store leads back to every
address computation on its way that could have the address of a cell. -/
theorem not_inTile_ofAnalysis_iff (hbuilt : kernel.Built) :
    ¬ (ofAnalysis kernel (Analysis.ofKernel kernel) geometry buffers usesTiles).InTile id ↔
      usesTiles = false ∨ ∀ inner ∈ kernel.operations, kernel.LeadsTo id inner.id →
        inner.kind = .address → inner.indices.length = 2 →
        (ofAnalysis kernel (Analysis.ofKernel kernel) geometry buffers usesTiles).InPromotedBuffer
          inner →
        ∃ store ∈ kernel.operations, ∃ pointer,
          store.WritesThrough pointer ∧ kernel.LeadsTo pointer inner.id := by
  rw [inTile_ofAnalysis_iff hbuilt]
  simp only [exists_cell_ofAnalysis_iff, readsTile_iff, mem_written_ofAnalysis]
  constructor
  · intro hnone
    cases htiles : usesTiles with
    | false => exact Or.inl rfl
    | true =>
        refine Or.inr fun inner hinner hleads hkind hlength hpromoted => ?_
        by_contra hfree
        rw [htiles] at hnone
        exact hnone ⟨inner, hinner, hleads, ⟨hkind, rfl, hpromoted, hfree⟩, hlength⟩
  · rintro hcause ⟨inner, hinner, hleads, ⟨hkind, htiles, hpromoted, hfree⟩, hlength⟩
    rcases hcause with hnone | hall
    · rw [show usesTiles = true from htiles] at hnone
      cases hnone
    · exact hfree (hall inner hinner hleads hkind hlength hpromoted)

/-- A site without a coordinate for each axis has a single index, which is added to its base. -/
theorem address?_of_lacksCoordinate (hvalid : kernel.check = .ok ()) {site : Operation}
    (hsite : site ∈ kernel.operations) (hlacks : context.lacksCoordinate site = true) :
    ∃ base x, site.base = some base ∧ site.indices = [x] ∧
      context.address? site =
        some (.memory (context.kernel.varName base) (context.nameOf x)) := by
  unfold lacksCoordinate at hlacks
  rw [Bool.and_eq_true, decide_eq_true_eq] at hlacks
  obtain ⟨hreads, hfew⟩ := hlacks
  have hkind := (readsTile_iff.mp hreads).1
  have hlength : site.indices.length = 1 := by
    have h := Kernel.indices_length hvalid hsite hkind
    omega
  obtain ⟨x, hindices⟩ := List.length_eq_one_iff.mp hlength
  obtain ⟨base, hbase⟩ := Node.exists_base_of_indices hkind (by omega)
  have hcell : context.tileCell? site base = none := by
    refine Option.eq_none_iff_forall_ne_some.mpr fun cell hcell => ?_
    obtain ⟨-, buffer, x, y, -, htwo, -⟩ := tileCell?_eq_some_iff.mp hcell
    rw [hindices] at htwo
    cases htwo
  refine ⟨base, x, hbase, hindices, address?_eq_memory_iff.mpr ⟨base, hkind, hbase, hcell, ?_⟩⟩
  unfold memoryAddress
  rw [hindices]

end Analysed

end SiteContext

/-- **When the base of a site is not in a tile.** A site in a promoted buffer that lacks a
coordinate has the sum of base and index in global memory as its address. The base of a site with
such an address is no pointer into a tile if and only if none of the address computations that it
leads back to has the address of a tile cell. This is so if there are no tiles, or if a store leads
back to each address computation with two indices in a promoted buffer on this way, and in no other
case; in particular if a store leads back to the site itself. -/
theorem memory_site_base {kernel : Kernel} (hbuilt : kernel.Built) (hvalid : kernel.check = .ok ())
    (geometry : TileGeometry) (buffers : BufferTable) (usesTiles : Bool) :
    let context :=
      SiteContext.ofAnalysis kernel (Analysis.ofKernel kernel) geometry buffers usesTiles
    (∀ site ∈ kernel.operations, context.lacksCoordinate site = true →
      ∃ base x, site.base = some base ∧ site.indices = [x] ∧
        context.address? site = some (.memory (kernel.varName base) (context.nameOf x))) ∧
    ∀ site ∈ kernel.operations, ∀ name offset,
      context.address? site = some (.memory name offset) →
      ∃ base, site.base = some base ∧ name = kernel.varName base ∧
        (¬ context.InTile base ↔ ∀ inner ∈ kernel.operations, kernel.LeadsTo base inner.id →
          ∀ tile row column, context.address? inner ≠ some (.cell tile row column)) ∧
        (¬ context.InTile base ↔
          usesTiles = false ∨ ∀ inner ∈ kernel.operations, kernel.LeadsTo base inner.id →
            inner.kind = .address → inner.indices.length = 2 → context.InPromotedBuffer inner →
            ∃ store ∈ kernel.operations, ∃ pointer,
              store.WritesThrough pointer ∧ kernel.LeadsTo pointer inner.id) ∧
        ∀ store ∈ kernel.operations, ∀ pointer, store.WritesThrough pointer →
          kernel.LeadsTo pointer site.id → ¬ context.InTile base := by
  intro context
  refine ⟨fun site hsite hlacks => SiteContext.address?_of_lacksCoordinate hvalid hsite hlacks, ?_⟩
  intro site hsite name offset haddress
  obtain ⟨base, hkind, hbase, -, hform⟩ := SiteContext.address?_eq_memory_iff.mp haddress
  refine ⟨base, hbase, ?_, ?_, SiteContext.not_inTile_ofAnalysis_iff hbuilt, ?_⟩
  · cases hform
    rfl
  · rw [SiteContext.inTile_ofAnalysis_iff hbuilt]
    simp only [not_exists, not_and, ne_eq]
    exact Iff.rfl
  · -- the way of the store goes on from the site to its base
    intro store hstore pointer hwrites hleads
    have hstep : kernel.DerivedFrom site.id base :=
      Kernel.derivedFrom_iff_or.mpr (Or.inr ⟨site, Kernel.operation?_of_mem hsite, hkind, hbase⟩)
    exact SiteContext.not_inTile_of_writesThrough hbuilt hstore hwrites (hleads.tail hstep)

/-- A store through a site with a single index, whose base is read. -/
theorem written_site_offsets_global :
    let kernel := ((((((((Kernel.empty "k").addParameter "src" (some .pointer) false).addParameter
      "x" (some .scalar) false).addParameter "y" (some .scalar) false).append
        (.addressOf 0 [1, 2])).append (.loadOf 3)).append (.addressOf 3 [1])).append (.storeOf 5 4))
    let context := SiteContext.ofAnalysis kernel (Analysis.ofKernel kernel) ⟨⟨4, 4⟩, ⟨1, 1⟩⟩
      .empty true
    kernel.Built ∧ kernel.check = .ok () ∧ ∃ site ∈ kernel.operations,
      (∃ name offset, context.address? site = some (.memory name offset)) ∧
        site.base = some 3 ∧ ¬ context.InTile 3 := by
  intro kernel context
  have hbuilt : kernel.Built :=
    .append (.append (.append (.append (.addParameter (.addParameter (.addParameter (.empty "k") ..)
      ..) ..) _) _) _) _
  have hvalid : kernel.check = .ok () := by decide +kernel
  let site : Operation := ⟨.addressOf 3 [1], 5⟩
  have hsite : site ∈ kernel.operations := by decide +kernel
  obtain ⟨-, hsites⟩ := memory_site_base hbuilt hvalid ⟨⟨4, 4⟩, ⟨1, 1⟩⟩ .empty true
  obtain ⟨base, hbase, -, -, -, hwritten⟩ := hsites site hsite "v3" (.var "x") (by decide +kernel)
  cases (show some 3 = some base from hbase)
  have hstore : (⟨.storeOf 5 4, 6⟩ : Operation) ∈ kernel.operations := by decide +kernel
  exact ⟨hbuilt, hvalid, site, hsite, ⟨"v3", .var "x", by decide +kernel⟩, rfl,
    hwritten _ hstore 5 ⟨rfl, rfl⟩ .refl⟩

/-- A site with a single index keeps reading global memory, but its base is the address of a tile
cell. -/
theorem linear_site_offsets_cell :
    let kernel := ((((((((Kernel.empty "k").addParameter "src" (some .pointer) false).addParameter
      "x" (some .scalar) false).addParameter "y" (some .scalar) false).append
        (.addressOf 0 [1, 2])).append (.loadOf 3)).append (.addressOf 3 [1])).append (.loadOf 5))
    let context := SiteContext.ofAnalysis kernel (Analysis.ofKernel kernel) ⟨⟨4, 4⟩, ⟨1, 1⟩⟩
      .empty true
    kernel.Built ∧ kernel.check = .ok () ∧ ∃ site ∈ kernel.operations,
      context.lacksCoordinate site = true ∧
        context.address? site = some (.memory "v3" (.var "x")) ∧ site.base = some 3 ∧
        ∃ inner ∈ kernel.operations, kernel.LeadsTo 3 inner.id ∧
          (∃ tile row column, context.address? inner = some (.cell tile row column)) ∧
          context.InTile 3 := by
  intro kernel context
  have hbuilt : kernel.Built :=
    .append (.append (.append (.append (.addParameter (.addParameter (.addParameter (.empty "k") ..)
      ..) ..) _) _) _) _
  let inner : Operation := ⟨.addressOf 0 [1, 2], 3⟩
  have hcell : ∃ tile row column, context.address? inner = some (.cell tile row column) :=
    ⟨_, _, _, rfl⟩
  obtain ⟨tile, row, column, haddress⟩ := hcell
  exact ⟨hbuilt, by decide +kernel, ⟨.addressOf 3 [1], 5⟩, by decide +kernel, by decide +kernel,
    by decide +kernel, rfl, inner, by decide +kernel, .refl, ⟨tile, row, column, haddress⟩,
    .cell rfl haddress⟩

end BufferPromotion
