import BufferPromotion.Proofs.Code.Source
import BufferPromotion.Proofs.Listing.Decoding
import BufferPromotion.Proofs.Site.Declared

/-! # The code for different targets

Emissions of one kernel and one table of buffers may have different geometries, borders and targets.
Their lines differ where an address of one of them is a cell of a tile, and only there
(`Emission.linesOf_congr`). On a host there are no cells and no tiles, so its code is the same for
all launch configurations, and the code of an accelerator is that of a host but for its tile sites
(`targets_differ_at_tile_sites`).
-/

set_option autoImplicit false

namespace BufferPromotion

/-! ## Addresses that are no cells -/

namespace SiteContext

variable {context other : SiteContext} {site : Operation}

/-- Whether the address of a site is a cell of a tile. -/
def ReadsCell (context : SiteContext) (site : Operation) : Prop :=
  ∃ tile row column, context.address? site = some (.cell tile row column)

theorem readsCell_iff :
    context.ReadsCell site ↔ ∃ base cell, site.kind = .address ∧ site.base = some base ∧
      context.tileCell? site base = some cell := by
  constructor
  · rintro ⟨tile, row, column, haddress⟩
    obtain ⟨base, hkind, hbase, hcell⟩ := address?_eq_cell_iff.mp haddress
    exact ⟨base, _, hkind, hbase, hcell⟩
  · rintro ⟨base, cell, hkind, hbase, hcell⟩
    obtain ⟨-, buffer, x, y, -, -, rfl⟩ := tileCell?_eq_some_iff.mp hcell
    exact ⟨_, _, _, address?_eq_cell_iff.mpr ⟨base, hkind, hbase, hcell⟩⟩

/-- An address that is no cell is in global memory. -/
theorem address?_of_not_readsCell {base : ValueId} (hkind : site.kind = .address)
    (hbase : site.base = some base) (h : ¬ context.ReadsCell site) :
    context.address? site = some (context.memoryAddress site base) := by
  have hnone : context.tileCell? site base = none := by
    rw [Option.eq_none_iff_forall_ne_some]
    exact fun cell hcell => h (readsCell_iff.mpr ⟨base, cell, hkind, hbase, hcell⟩)
  unfold address?
  rw [hkind, hbase]
  dsimp only
  rw [hnone, Option.getD_none]

/-- Addresses that are no cells depend on the kernel and the buffers alone. -/
theorem address?_congr (hkernel : context.kernel = other.kernel)
    (hbuffers : context.buffers = other.buffers) (h : ¬ context.ReadsCell site)
    (hother : ¬ other.ReadsCell site) : context.address? site = other.address? site := by
  by_cases hsite : site.kind = .address ∧ ∃ base, site.base = some base
  · obtain ⟨hkind, base, hbase⟩ := hsite
    rw [address?_of_not_readsCell hkind hbase h, address?_of_not_readsCell hkind hbase hother]
    unfold memoryAddress pixelOffset nameOf
    rw [hkernel, hbuffers]
  · have hnone : ∀ context : SiteContext, context.address? site = none := by
      intro context
      unfold address?
      split
      · next base hkind hbase => exact absurd ⟨hkind, base, hbase⟩ hsite
      · rfl
    rw [hnone, hnone]

theorem not_readsCell (h : context.readsTile site = false) : ¬ context.ReadsCell site := by
  rw [readsCell_iff]
  rintro ⟨base, cell, -, -, hcell⟩
  have hreads := (tileCell?_eq_some_iff.mp hcell).1
  rw [h] at hreads
  cases hreads

theorem readsTile_of_usesTiles_eq_false (h : context.usesTiles = false) :
    context.readsTile site = false := by
  unfold readsTile
  rw [h]
  rfl

/-- Without promoted pointers no site reads a tile. -/
theorem readsTile_of_promoted_empty (h : context.analysis.promotion.promoted = ∅) :
    context.readsTile site = false := by
  refine Bool.eq_false_iff.mpr fun hreads => ?_
  obtain ⟨-, -, hpromoted, -⟩ := readsTile_iff.mp hreads
  unfold InPromotedBuffer at hpromoted
  rw [h] at hpromoted
  rcases hpromoted with hresult | ⟨base, -, hbase⟩
  · exact Std.ExtTreeSet.not_mem_empty hresult
  · exact Std.ExtTreeSet.not_mem_empty hbase

end SiteContext

/-! ## The texts of addresses -/

/-- A text ends as its last part does. -/
theorem getLast?_toList_append (text : String) {last : String} (h : last.toList ≠ []) :
    (text ++ last).toList.getLast? = last.toList.getLast? := by
  rw [String.toList_append, List.getLast?_append_of_ne_nil _ h]

/-- The text of the address of a cell ends with the bracket after its column. -/
theorem SiteAddress.getLast?_cell (tile : String) (row column : Expr) :
    (cell tile row column).expr.text.toList.getLast? = some ']' := by
  show ("&" ++ (_ ++ "]")).toList.getLast? = _
  rw [getLast?_toList_append _ (by simp), getLast?_toList_append _ (by simp)]
  rfl

/-- The text of an address in global memory with two indices ends with a parenthesis, or with the
number of elements per pixel. -/
theorem SiteContext.getLast?_memoryAddress {context : SiteContext} {site : Operation}
    {base x y : ValueId} (hindices : site.indices = [x, y]) :
    (context.memoryAddress site base).expr.text.toList.getLast? ≠ some ']' := by
  have hoffset : ∀ (row width column : Expr) (stride : UInt32),
      (SiteAddress.memory (context.kernel.varName base)
        (((row.mul width).add column).scaled stride)).expr.text.toList.getLast? ≠ some ']' := by
    intro row width column stride
    unfold Expr.scaled
    split
    · show (_ ++ (_ ++ ")")).toList.getLast? ≠ _
      rw [getLast?_toList_append _ (by simp), getLast?_toList_append _ (by simp)]
      decide
    · show (_ ++ (_ ++ toString stride.toNat)).toList.getLast? ≠ _
      have hword := isWord_toString stride.toNat
      rw [getLast?_toList_append _ (by simp),
        getLast?_toList_append _ hword.nonempty]
      intro hlast
      exact absurd (hword.chars _ (List.mem_of_getLast? hlast)) (by decide)
  unfold memoryAddress
  rw [hindices]
  exact hoffset _ _ _ _

namespace Emission

variable {emission other : Emission} {op : Operation}

theorem linesOf_congr (hkernel : emission.kernel = other.kernel)
    (hbuffers : emission.buffers = other.buffers) (h : ¬ emission.context.ReadsCell op)
    (hother : ¬ other.context.ReadsCell op) : emission.linesOf op = other.linesOf op := by
  have haddress : emission.context.address? op = other.context.address? op :=
    SiteContext.address?_congr hkernel hbuffers h hother
  unfold linesOf statement operand stored elementType extractsFromStruct
  rw [haddress, hkernel, hbuffers]

theorem linesOf_ne (hkernel : emission.kernel = other.kernel) (h : emission.context.ReadsCell op)
    (hother : ¬ other.context.ReadsCell op) : emission.linesOf op ≠ other.linesOf op := by
  obtain ⟨tile, row, column, haddress⟩ := h
  obtain ⟨base, hkind, hbase, hcell⟩ := SiteContext.address?_eq_cell_iff.mp haddress
  obtain ⟨-, -, x, y, -, hindices, -⟩ := SiteContext.tileCell?_eq_some_iff.mp hcell
  have hmemory := SiteContext.address?_of_not_readsCell hkind hbase hother
  intro heq
  unfold linesOf statement at heq
  simp only [hkind, haddress, hmemory, hkernel, Option.elim_some, Stmt.lines_declare,
    List.singleton_inj, CodeLine.mk.injEq, true_and, String.append_left_inj,
    String.append_right_inj] at heq
  -- the same text would end with a bracket, and would not
  have hlast : (other.context.memoryAddress op base).expr.text.toList.getLast? ≠ some ']' :=
    SiteContext.getLast?_memoryAddress hindices
  rw [← heq] at hlast
  exact hlast (SiteAddress.getLast?_cell tile row column)

/-! ## Code without tiles -/

/-- Without promoted pointers there are no tiles. -/
theorem tiles_of_promoted_empty (h : emission.analysis.promotion.promoted = ∅) :
    emission.tiles = [] := by
  unfold tiles Analysis.pointerGroups
  rw [h]
  split <;> rfl

/-- Without tiles code is always written, and consists of the lines of the operations between the
braces of the function. -/
theorem run_of_no_tiles (h : emission.tiles = []) (hreads : ∀ op, emission.context.readsTile op = false) :
    emission.run = .ok ⟨String.join ((⟨0, emission.headerLine ++ " \x7b"⟩ ::
      (emission.kernel.operations.flatMap emission.linesOf ++ [⟨0, "\x7d"⟩])).map
        CodeLine.render), [], []⟩ := by
  have haccepted : ∀ tile ∈ emission.tiles, ∃ row,
      emission.geometry.rowElements tile.buffer.stride = some row := by
    rw [h]
    nofun
  have hmapped : emission.kernel.operations.filter emission.context.lacksCoordinate = [] := by
    refine List.filter_eq_nil_iff.mpr fun op _ => ?_
    unfold SiteContext.lacksCoordinate
    rw [hreads]
    exact Bool.false_ne_true
  refine run_eq_ok_iff.mpr ⟨haccepted, ?_⟩
  unfold codeLines bodyLines
  rw [h, hmapped]
  rfl

/-- Code that uses no tiles depends on the kernel and the buffers alone. -/
theorem run_of_usesTiles_eq_false (htiles : emission.settings.usesTiles = false)
    (htilesOther : other.settings.usesTiles = false) (hkernel : emission.kernel = other.kernel)
    (hbuffers : emission.buffers = other.buffers) :
    emission.run = .ok ⟨String.join ((⟨0, other.headerLine ++ " \x7b"⟩ ::
      (other.kernel.operations.flatMap other.linesOf ++ [⟨0, "\x7d"⟩])).map CodeLine.render),
        [], []⟩ := by
  have hreads : ∀ op, emission.context.readsTile op = false :=
    fun _ => SiteContext.readsTile_of_usesTiles_eq_false htiles
  have hlines : emission.linesOf = other.linesOf :=
    funext fun op => linesOf_congr hkernel hbuffers (SiteContext.not_readsCell (hreads op))
      (SiteContext.not_readsCell (SiteContext.readsTile_of_usesTiles_eq_false htilesOther))
  have hheader : emission.headerLine = other.headerLine := by
    unfold headerLine paramCodeType
    rw [htiles, htilesOther, hkernel, hbuffers]
  have hrun := run_of_no_tiles (tiles_eq_nil htiles) hreads
  rwa [hlines, hkernel, hheader] at hrun

/-- Code that uses tiles has a mark in front of its first line. -/
theorem headerLine_of_usesTiles (htiles : emission.settings.usesTiles = true)
    (htilesOther : other.settings.usesTiles = false) (hkernel : emission.kernel = other.kernel)
    (hbuffers : emission.buffers = other.buffers) :
    emission.headerLine = "__global__ " ++ other.headerLine := by
  unfold headerLine paramCodeType
  rw [htiles, htilesOther, hkernel, hbuffers]
  simp only [if_true, Bool.false_eq_true, if_false, String.append_assoc, String.empty_append]

/-- A mark in front of the first line is a mark in front of the code. -/
theorem join_render_mark (mark text : String) (lines : List CodeLine) :
    String.join ((⟨0, mark ++ text⟩ :: lines).map CodeLine.render) =
      mark ++ String.join ((⟨0, text⟩ :: lines).map CodeLine.render) := by
  simp [CodeLine.render, String.append_assoc]

/-- An operation is written as nothing, as the declaration of its variable, as an assignment, or,
if it is a call without a result, as this call. -/
theorem statement_form (emission : Emission) (context : SiteContext) (op : Operation) :
    emission.statement context op = .skip ∨
      (∃ value, emission.statement context op =
        .declare "auto" (emission.kernel.varName op.id) value) ∨
      (∃ place value, emission.statement context op = .assign place value) ∨
      ∃ function, op.kind = .other function ∧ op.type = none ∧
        emission.statement context op =
          .effect (.call function (op.operands.map emission.kernel.varName)) := by
  unfold statement
  cases hkind : op.kind with
  | param => exact Or.inl rfl
  | extract field | reinterpret | load => exact Or.inr (Or.inl ⟨_, rfl⟩)
  | store => exact Or.inr (Or.inr (Or.inl ⟨_, _, rfl⟩))
  | address =>
      cases context.address? op with
      | none => exact Or.inl rfl
      | some address => exact Or.inr (Or.inl ⟨_, rfl⟩)
  | other function =>
      cases htype : op.type with
      | none => exact Or.inr (Or.inr (Or.inr ⟨function, rfl, rfl, rfl⟩))
      | some type => exact Or.inr (Or.inl ⟨_, rfl⟩)

end Emission

/-- **Promotion changes nothing but tile sites.** The lines of an operation for an accelerator are
those for a host unless the address of the operation is a cell of a tile, and then they differ.
Between the braces of the function a host has the lines of the operations and nothing else: no
array, no loop, and no call that the kernel does not make itself. So its code does not depend on
the launch configuration. If no pointer is promoted, the code for an accelerator is that for a host
with the mark of an accelerator's kernel in front. -/
theorem targets_differ_at_tile_sites (kernel : Kernel) (analysis : Analysis)
    (buffers : BufferTable) (geometry geometry' : TileGeometry) (launch launch' : LaunchConfig)
    (border border' : BorderFill) :
    let accelerator : Emission :=
      ⟨kernel, analysis, geometry, buffers, ⟨.accelerator, launch, border⟩⟩
    let host : Emission := ⟨kernel, analysis, geometry', buffers, ⟨.host, launch', border'⟩⟩
    (∀ op, (accelerator.context.ReadsCell op → op.kind = .address) ∧
      (accelerator.linesOf op = host.linesOf op ↔ ¬ accelerator.context.ReadsCell op)) ∧
    (∀ code, accelerator.run = .ok code → code.source = String.join (
      (⟨0, "__global__ " ++ host.headerLine ++ " \x7b"⟩ ::
        (TileCode.entryLines geometry border 1 accelerator.tiles ++
          kernel.operations.flatMap accelerator.linesOf ++ [⟨0, "\x7d"⟩])).map CodeLine.render)) ∧
    (∀ geometry launch border,
      (⟨kernel, analysis, geometry, buffers, ⟨.host, launch, border⟩⟩ : Emission).run =
        .ok ⟨String.join ((⟨0, host.headerLine ++ " \x7b"⟩ ::
          (kernel.operations.flatMap host.linesOf ++ [⟨0, "\x7d"⟩])).map CodeLine.render), [], []⟩) ∧
    (∀ op, host.statement host.context op = .skip ∨
      (∃ value, host.statement host.context op = .declare "auto" (kernel.varName op.id) value) ∨
      (∃ place value, host.statement host.context op = .assign place value) ∨
      ∃ function, op.kind = .other function ∧ op.type = none ∧
        host.statement host.context op =
          .effect (.call function (op.operands.map kernel.varName))) ∧
    (analysis.promotion.promoted = ∅ → ∃ code code', host.run = .ok code ∧
      accelerator.run = .ok code' ∧ code'.source = "__global__ " ++ code.source) := by
  intro accelerator host
  have hkernel : accelerator.kernel = host.kernel := rfl
  have hheader : accelerator.headerLine = "__global__ " ++ host.headerLine :=
    Emission.headerLine_of_usesTiles rfl rfl rfl rfl
  have hhost : ∀ op, ¬ host.context.ReadsCell op := fun op => SiteContext.not_readsCell rfl
  refine ⟨fun op => ⟨?_, ?_, ?_⟩, fun code hrun => ?_, fun geometry launch border =>
    Emission.run_of_usesTiles_eq_false rfl rfl rfl rfl, host.statement_form host.context,
    fun hnone => ?_⟩
  · rintro ⟨tile, row, column, haddress⟩
    obtain ⟨base, hkind, -⟩ := SiteContext.address?_eq_cell_iff.mp haddress
    exact hkind
  · exact fun hsame hcell => Emission.linesOf_ne hkernel hcell (hhost op) hsame
  · exact fun hcell => Emission.linesOf_congr hkernel rfl hcell (hhost op)
  · obtain ⟨-, rfl⟩ := Emission.run_eq_ok_iff.mp hrun
    unfold Emission.codeLines Emission.bodyLines
    rw [hheader]
  · have hreads : ∀ op, accelerator.context.readsTile op = false :=
      fun op => SiteContext.readsTile_of_promoted_empty hnone
    have hlines : accelerator.linesOf = host.linesOf :=
      funext fun op =>
        Emission.linesOf_congr hkernel rfl (SiteContext.not_readsCell (hreads op)) (hhost op)
    have hrun := accelerator.run_of_no_tiles (Emission.tiles_of_promoted_empty hnone) hreads
    refine ⟨_, _, Emission.run_of_usesTiles_eq_false rfl rfl rfl rfl, hrun, ?_⟩
    rw [hlines, hheader, String.append_assoc]
    exact Emission.join_render_mark _ _ _

/-- A pixel is loaded, and another place of the buffer is only addressed: the lines differ where the
pixel is addressed, and nowhere else. Without the load they differ by the mark alone. -/
theorem loaded_site_differs :
    let addressed := (((((Kernel.empty "k").addParameter "src" (some .pointer) false).addParameter
      "x" (some .scalar) false).append (.addressOf 0 [1, 1])).append (.addressOf 0 [1]))
    let loaded := addressed.append (.loadOf 2)
    let accelerator (kernel : Kernel) : Emission :=
      ⟨kernel, Analysis.ofKernel kernel, ⟨⟨4, 4⟩, ⟨1, 1⟩⟩, .empty, ⟨.accelerator, .standard, .zero⟩⟩
    let host (kernel : Kernel) : Emission :=
      ⟨kernel, Analysis.ofKernel kernel, ⟨⟨8, 2⟩, ⟨0, 0⟩⟩, .empty, ⟨.host, .standard, .leave⟩⟩
    (∃ tile row column before site after, loaded.operations = before ++ site :: after ∧
      (accelerator loaded).context.address? site = some (.cell tile row column) ∧
      (accelerator loaded).linesOf site ≠ (host loaded).linesOf site ∧
      ∀ op ∈ before ++ after, (accelerator loaded).linesOf op = (host loaded).linesOf op) ∧
    ∃ code code', (host addressed).run = .ok code ∧ (accelerator addressed).run = .ok code' ∧
      code'.source = "__global__ " ++ code.source := by
  intro addressed loaded accelerator host
  have hempty : (Analysis.ofKernel addressed).promotion.promoted = ∅ :=
    Std.ExtTreeSet.isEmpty_iff.mp (by decide +kernel)
  obtain ⟨-, -, -, -, hmark⟩ := targets_differ_at_tile_sites addressed (Analysis.ofKernel addressed)
    .empty ⟨⟨4, 4⟩, ⟨1, 1⟩⟩ ⟨⟨8, 2⟩, ⟨0, 0⟩⟩ .standard .standard .zero .leave
  obtain ⟨hlines, -⟩ := targets_differ_at_tile_sites loaded (Analysis.ofKernel loaded)
    .empty ⟨⟨4, 4⟩, ⟨1, 1⟩⟩ ⟨⟨8, 2⟩, ⟨0, 0⟩⟩ .standard .standard .zero .leave
  have hcell : ∃ tile row column, (accelerator loaded).context.address? ⟨.addressOf 0 [1, 1], 2⟩ =
      some (.cell tile row column) := ⟨_, _, _, rfl⟩
  obtain ⟨tile, row, column, haddress⟩ := hcell
  refine ⟨⟨tile, row, column, [], ⟨.addressOf 0 [1, 1], 2⟩, [⟨.addressOf 0 [1], 3⟩, ⟨.loadOf 2, 4⟩],
    by decide +kernel, haddress, fun hsame => (hlines _).2.mp hsame ⟨tile, row, column, haddress⟩,
    fun op hop => (hlines op).2.mpr ?_⟩, hmark hempty⟩
  rintro ⟨tile, row, column, hother⟩
  rcases List.mem_pair.mp hop with rfl | rfl
  · cases (show some (SiteAddress.memory "src" (.var "x")) = _ from hother)
  · cases (show (none : Option SiteAddress) = _ from hother)

end BufferPromotion
