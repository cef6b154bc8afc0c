import BufferPromotion.Proofs.Alias.References
import BufferPromotion.Proofs.Buffer.Image
import BufferPromotion.Proofs.Code.Meaning
import BufferPromotion.Proofs.Site.Written

/-! # Sites that take their indices as coordinates of pixels

The tile form of a site reads the pixel whose coordinates are the indices of the site. Its form
in global memory moves on from the value of the base. The two mean the same place if and only if
the base is the start of the buffer, and nothing in the choice between the forms sees to that
(`tile_form_iff_reinterpretations`, `nested_site_reads_tile`).
-/

set_option autoImplicit false

namespace BufferPromotion

namespace Kernel

/-! ## The two kinds of derivation -/

/-- A value is another one, seen as a pointer of some type. -/
def ReinterpretedFrom (kernel : Kernel) (id base : ValueId) : Prop :=
  ∃ op, kernel.operation? id = some op ∧ op.kind = .reinterpret ∧ op.base = some base

/-- A value is computed from another one, as an address at some indices. -/
def ComputedFrom (kernel : Kernel) (id base : ValueId) : Prop :=
  ∃ op, kernel.operation? id = some op ∧ op.kind = .address ∧ op.base = some base

/-- Any number of steps back, all of them reinterpretations. -/
def ReinterpretsTo (kernel : Kernel) (id target : ValueId) : Prop :=
  Relation.ReflTransGen kernel.ReinterpretedFrom id target

variable {kernel : Kernel}

theorem derivedFrom_iff_or {id base : ValueId} :
    kernel.DerivedFrom id base ↔
      kernel.ReinterpretedFrom id base ∨ kernel.ComputedFrom id base := by
  rw [derivedFrom_iff]
  constructor
  · rintro ⟨op, hop, hkind, hbase⟩
    cases h : op.kind with
    | reinterpret => exact Or.inl ⟨op, hop, h, hbase⟩
    | address => exact Or.inr ⟨op, hop, h, hbase⟩
    | param | extract field | load | store | other name =>
        rw [h] at hkind
        cases hkind
  · rintro (⟨op, hop, hkind, hbase⟩ | ⟨op, hop, hkind, hbase⟩)
    · exact ⟨op, hop, by rw [hkind]; rfl, hbase⟩
    · exact ⟨op, hop, by rw [hkind]; rfl, hbase⟩

/-- A step back is determined by where it starts, so is its kind. -/
theorem ReinterpretedFrom.not_computedFrom {id base next : ValueId}
    (h : kernel.ReinterpretedFrom id base) : ¬ kernel.ComputedFrom id next := by
  rintro ⟨op', hop', hkind', -⟩
  obtain ⟨op, hop, hkind, -⟩ := h
  rw [hop] at hop'
  cases hop'
  rw [hkind] at hkind'
  cases hkind'

/-- The steps back from a value to a start are all reinterpretations if and only if none of them
computes an address. -/
theorem reinterpretsTo_iff {id start : ValueId} (hstart : kernel.derivedFrom? start = none)
    (h : kernel.LeadsTo id start) :
    kernel.ReinterpretsTo id start ↔
      ∀ between next, kernel.LeadsTo id between → ¬ kernel.ComputedFrom between next := by
  constructor
  · clear h
    intro h
    induction h using Relation.ReflTransGen.head_induction_on with
    | refl =>
        intro between next hleads hcomputed
        rw [hleads.eq_of_derivedFrom?_eq_none hstart] at hcomputed
        have hstep : kernel.derivedFrom? start = some next :=
          derivedFrom_iff_or.mpr (Or.inr hcomputed)
        rw [hstart] at hstep
        cases hstep
    | @head id base hstep _ ih =>
        intro between next hleads hcomputed
        rcases hleads.eq_or_of_derivedFrom (derivedFrom_iff_or.mpr (Or.inl hstep)) with rfl | hrest
        · exact hstep.not_computedFrom hcomputed
        · exact ih between next hrest hcomputed
  · induction h using Relation.ReflTransGen.head_induction_on with
    | refl => exact fun _ => .refl
    | @head id base hstep _ ih =>
        intro hnone
        rcases derivedFrom_iff_or.mp hstep with hreinterpreted | hcomputed
        · refine .head hreinterpreted (ih fun between next hleads => ?_)
          exact hnone between next (.head hstep hleads)
        · exact absurd hcomputed (hnone id base .refl)

/-! ## Indices -/

/-- A scheduled address computation has one or two indices. -/
theorem indices_length (hvalid : kernel.check = .ok ()) {op : Operation}
    (hop : op ∈ kernel.operations) (hkind : op.kind = .address) :
    op.indices.length = 1 ∨ op.indices.length = 2 := by
  obtain ⟨before, after, hops⟩ := List.append_of_mem hop
  have hcount := NodeKind.accepts_iff.mp (check_eq_ok_iff.mp hvalid before op after hops).count
  rw [hkind] at hcount
  have hleast : 2 ≤ op.operands.length := hcount.1
  have hmost : op.operands.length ≤ 3 := hcount.2 3 rfl
  have hlength : op.indices.length = min 2 (op.operands.length - 1) := by
    unfold Node.indices
    rw [hkind]
    dsimp only
    rw [List.length_take, List.length_drop]
  omega

end Kernel

namespace SiteContext

/-! ## Where a pointer points -/

/-- What a site adds to its base to get its address in global memory. -/
def memoryOffset (context : SiteContext) (site : Operation) (base : ValueId) : Expr :=
  match context.memoryAddress site base with
  | .memory _ offset => offset
  | .cell .. => .number 0

/-- The number of elements from the start of its buffer to where a pointer points in global
memory: a reinterpretation stays in place, an address computation moves on by its offset. -/
inductive Distance (context : SiteContext) (texts scope : Scope) : ValueId → Int → Prop where
  | start {id : ValueId} (h : context.kernel.derivedFrom? id = none) :
      Distance context texts scope id 0
  | reinterpreted {id base : ValueId} {distance : Int}
      (hstep : context.kernel.ReinterpretedFrom id base)
      (h : Distance context texts scope base distance) : Distance context texts scope id distance
  | moved {id base : ValueId} {op : Operation} {distance amount : Int}
      (hop : context.kernel.operation? id = some op) (hkind : op.kind = .address)
      (hbase : op.base = some base)
      (hamount : (context.memoryOffset op base).value? texts scope = some amount)
      (h : Distance context texts scope base distance) :
      Distance context texts scope id (distance + amount)

section Values

variable {context : SiteContext} {texts scope : Scope}

theorem value?_pixelOffset {base buffer x y : ValueId}
    (hbuffer : context.kernel.bufferStart base = some buffer) :
    (context.pixelOffset base x y).value? texts scope =
      some ((scope (context.kernel.varName y) *
          texts (context.buffers.image context.kernel buffer).width +
        scope (context.kernel.varName x)) *
          (context.buffers.image context.kernel buffer).stride.toNat) := by
  unfold pixelOffset
  rw [hbuffer]
  exact Expr.value?_scaled (Expr.value?_add (Expr.value?_mul rfl rfl) rfl)

/-- The declared strides are not zero. -/
def StridesNonzero (buffers : BufferTable) : Prop :=
  ∀ id image, buffers.get? id = some image → image.stride ≠ 0

theorem image_stride_ne_zero {buffers : BufferTable} (h : StridesNonzero buffers) (kernel : Kernel)
    (buffer : ValueId) : (buffers.image kernel buffer).stride ≠ 0 :=
  BufferTable.stride_image_of_declared (motive := fun stride => stride ≠ 0) (by decide) h kernel
    buffer

theorem memoryOffset_eq (op : Operation) (base : ValueId) :
    context.memoryOffset op base =
      match op.indices with
      | [x, y] => context.pixelOffset base x y
      | [x] => context.nameOf x
      | _ => .number 0 := rfl

/-- Where all variables and texts stand for one, an address computation moves on. -/
theorem value?_memoryOffset_pos (hstrides : StridesNonzero context.buffers) {op : Operation}
    {base : ValueId} (hlength : op.indices.length = 1 ∨ op.indices.length = 2) :
    ∃ amount, (context.memoryOffset op base).value? (fun _ => 1) (fun _ => 1) = some amount ∧
      0 < amount := by
  rw [memoryOffset_eq]
  rcases hlength with hlength | hlength
  · -- one index is added as it is
    obtain ⟨x, hindices⟩ := List.length_eq_one_iff.mp hlength
    rw [hindices]
    exact ⟨1, rfl, by decide⟩
  · -- two indices are those of a pixel, whose elements are counted with the stride
    obtain ⟨x, y, hindices⟩ := List.length_eq_two.mp hlength
    rw [hindices]
    cases hbuffer : context.kernel.bufferStart base with
    | none =>
        refine ⟨(1 * 1 + 1) * 1, ?_, by decide⟩
        show (context.pixelOffset base x y).value? _ _ = _
        unfold pixelOffset
        rw [hbuffer]
        exact Expr.value?_scaled (Expr.value?_add (Expr.value?_mul rfl rfl) rfl)
    | some buffer =>
        refine ⟨_, value?_pixelOffset hbuffer, ?_⟩
        have hpos := one_le_toNat (image_stride_ne_zero hstrides context.kernel buffer)
        omega

end Values

/-! ## Pointers at the start of a buffer -/

section Distances

variable {context : SiteContext}

theorem Distance.of_reinterpretsTo {texts scope : Scope} {id start : ValueId}
    (hstart : context.kernel.derivedFrom? start = none)
    (h : context.kernel.ReinterpretsTo id start) : context.Distance texts scope id 0 := by
  induction h using Relation.ReflTransGen.head_induction_on with
  | refl => exact .start hstart
  | head hstep _ ih => exact .reinterpreted hstep ih

/-- An address computation is as far away as its base, and its offset further. -/
theorem Distance.of_computed {texts scope : Scope} {id base : ValueId} {op : Operation}
    {distance : Int} (hop : context.kernel.operation? id = some op) (hkind : op.kind = .address)
    (hbase : op.base = some base) (h : context.Distance texts scope id distance) :
    ∃ before amount, context.Distance texts scope base before ∧
      (context.memoryOffset op base).value? texts scope = some amount ∧
      distance = before + amount := by
  have hcomputed : context.kernel.ComputedFrom id base := ⟨op, hop, hkind, hbase⟩
  cases h with
  | start hnone =>
      have hstep : context.kernel.derivedFrom? id = some base :=
        Kernel.derivedFrom_iff_or.mpr (Or.inr hcomputed)
      rw [hnone] at hstep
      cases hstep
  | reinterpreted hstep _ => exact absurd hcomputed hstep.not_computedFrom
  | moved hop' _ hbase' hamount h =>
      rw [hop] at hop'
      cases hop'
      rw [hbase] at hbase'
      cases hbase'
      exact ⟨_, _, h, hamount, rfl⟩

/-- Where all variables and texts stand for one, no pointer is before the start of its buffer, and
one at the start has got there by reinterpretations. -/
theorem Distance.nonneg_of_ones (hbuilt : context.kernel.Built)
    (hvalid : context.kernel.check = .ok ()) (hstrides : StridesNonzero context.buffers)
    {id : ValueId} {distance : Int}
    (h : context.Distance (fun _ => 1) (fun _ => 1) id distance) :
    0 ≤ distance ∧ (distance = 0 →
      ∀ start, context.kernel.derivedFrom? start = none → context.kernel.LeadsTo id start →
        context.kernel.ReinterpretsTo id start) := by
  induction h with
  | @start id hnone =>
      refine ⟨Int.le_refl 0, fun _ start _ hleads => ?_⟩
      rw [hleads.eq_of_derivedFrom?_eq_none hnone]
      exact .refl
  | @reinterpreted id base distance hstep _ ih =>
      obtain ⟨op, hop, hkind, hbase⟩ := hstep
      obtain ⟨hnonneg, hzero⟩ := ih
      refine ⟨hnonneg, fun heq start hstart hleads => ?_⟩
      have hstep : context.kernel.ReinterpretedFrom id base := ⟨op, hop, hkind, hbase⟩
      have hderived : context.kernel.derivedFrom? id = some base :=
        Kernel.derivedFrom_iff_or.mpr (Or.inl hstep)
      rcases hleads.eq_or_of_derivedFrom hderived with rfl | hrest
      · rw [hstart] at hderived
        cases hderived
      · exact .head hstep (hzero heq start hstart hrest)
  | @moved id base op distance amount hop hkind hbase hamount _ ih =>
      -- the offset is positive, so a pointer past an address computation is not at the start
      have hmem : op ∈ context.kernel.operations :=
        Kernel.mem_operations_of_base hbuilt hop hbase
      obtain ⟨hnonneg, -⟩ := ih
      obtain ⟨amount', hamount', hpos⟩ :=
        value?_memoryOffset_pos hstrides (Kernel.indices_length hvalid hmem hkind)
      rw [hamount] at hamount'
      cases hamount'
      refine ⟨by omega, fun heq => ?_⟩
      omega

end Distances

end SiteContext

/-! ## The two forms of a site -/

/-- **When the two forms of a site mean the same place.** A site with the address of a tile cell
is in the buffer that its base leads back to, and its cell is that of the pixel at its indices.
Its base is the start of the buffer, up to reinterpretations, if and only if no address
computation lies between them; and this is the case if and only if the form in global memory
points at the same pixel, for all values of the variables and of the texts of the listing. -/
theorem tile_form_iff_reinterpretations {kernel : Kernel} (hbuilt : kernel.Built)
    (hvalid : kernel.check = .ok ()) (geometry : TileGeometry) (buffers : BufferTable)
    (usesTiles : Bool) {site : Operation} (hsite : site ∈ kernel.operations) {tile : String}
    {row column : Expr}
    (hcell : (SiteContext.ofAnalysis kernel (Analysis.ofKernel kernel) geometry buffers
      usesTiles).address? site = some (.cell tile row column)) :
    let context :=
      SiteContext.ofAnalysis kernel (Analysis.ofKernel kernel) geometry buffers usesTiles
    ∃ base buffer x y, site.base = some base ∧ site.indices = [x, y] ∧
      context.analysis.aliases.bufferStart site.id = some buffer ∧ kernel.LeadsTo base buffer ∧
      let image := buffers.image kernel buffer
      SiteAddress.cell tile row column = context.tileCell (kernel.bufferStem buffer) image.stride
        (context.nameOf x) (context.nameOf y) ∧
      (kernel.ReinterpretsTo base buffer ↔
        ∀ between next, kernel.LeadsTo base between → ¬ kernel.ComputedFrom between next) ∧
      (SiteContext.StridesNonzero buffers →
        (kernel.ReinterpretsTo base buffer ↔ ∀ texts scope, context.Distance texts scope site.id
          ((scope (kernel.varName y) * texts image.width + scope (kernel.varName x)) *
            image.stride.toNat))) := by
  intro context
  obtain ⟨base, hkind, hbase, hcell⟩ := SiteContext.address?_eq_cell_iff.mp hcell
  obtain ⟨hreads, buffer, x, y, hbuffer, hindices, hcell⟩ :=
    SiteContext.tileCell?_eq_some_iff.mp hcell
  -- the site points into the buffer of its base, so either of them gives the tile
  have hsame : context.analysis.aliases.pointers[site.id]? =
      context.analysis.aliases.pointers[base]? := by
    have h := AliasSet.pointers_ofKernel_of_isDerivation hvalid hsite (by rw [hkind]; rfl)
    rw [hbase] at h
    exact h
  obtain ⟨source, hsource, rfl⟩ := (SiteContext.tileBuffer_eq_some hsame).mp hbuffer
  have hstart : context.analysis.aliases.bufferStart site.id = some source.buffer := by
    unfold AliasSet.bufferStart
    rw [hsame, hsource]
    rfl
  obtain ⟨hleads, start, hop, hstartKind, hpointer⟩ :=
    AliasSet.leadBack_ofKernel hbuilt base source hsource
  -- parameters and extracted pointers are derived from nothing
  have hend : kernel.derivedFrom? source.buffer = none := by
    unfold Kernel.derivedFrom?
    rw [hop]
    rcases hstartKind with h | ⟨field, h⟩ <;> simp [h, NodeKind.isDerivation]
  -- the form in global memory finds the same buffer, so it has the same width and stride
  have hoffset : ∀ texts scope, (context.memoryOffset site base).value? texts scope =
      some ((scope (kernel.varName y) * texts (buffers.image kernel source.buffer).width +
        scope (kernel.varName x)) * (buffers.image kernel source.buffer).stride.toNat) := by
    intro texts scope
    rw [SiteContext.memoryOffset_eq, hindices]
    exact SiteContext.value?_pixelOffset
      (Kernel.bufferStart_of_leadsTo hleads hop hstartKind hpointer)
  refine ⟨base, source.buffer, x, y, hbase, hindices, hstart, hleads, hcell,
    Kernel.reinterpretsTo_iff hend hleads, ?_⟩
  intro hstrides
  constructor
  · -- from the start of the buffer, the offset of the site alone leads to the pixel
    intro h texts scope
    have hzero : context.Distance texts scope base 0 := .of_reinterpretsTo hend h
    have hmoved := SiteContext.Distance.moved (Kernel.operation?_of_mem hsite) hkind hbase
      (hoffset texts scope) hzero
    rw [Int.zero_add] at hmoved
    exact hmoved
  · -- where all variables are one, an offset before that of the site would lead past the pixel
    intro h
    obtain ⟨before, amount, hbefore, hamount, hsum⟩ :=
      SiteContext.Distance.of_computed (Kernel.operation?_of_mem hsite) hkind hbase
        (h (fun _ => 1) (fun _ => 1))
    rw [hoffset, Option.some.injEq] at hamount
    have hzero : before = 0 := by omega
    exact (hbefore.nonneg_of_ones hbuilt hvalid hstrides).2 hzero _ hend hleads

/-- A site whose base is a reinterpreted parameter. -/
theorem reinterpreted_site_reads_pixel :
    let kernel := ((((((Kernel.empty "k").addParameter "src" (some .pointer) false).addParameter
      "x" (some .scalar) false).addParameter "y" (some .scalar) false).append
        (.reinterpretOf 0)).append (.addressOf 3 [1, 2])).append (.loadOf 4)
    let context := SiteContext.ofAnalysis kernel (Analysis.ofKernel kernel) ⟨⟨4, 4⟩, ⟨1, 1⟩⟩
      .empty true
    ∃ site ∈ kernel.operations, (∃ tile row column,
      context.address? site = some (.cell tile row column)) ∧
      site.base = some 3 ∧ context.analysis.aliases.bufferStart site.id = some 0 ∧
      kernel.ReinterpretsTo 3 0 := by
  intro kernel context
  have hbuilt : kernel.Built :=
    .append (.append (.append (.addParameter (.addParameter (.addParameter (.empty "k") ..) ..)
      ..) _) _) _
  let site : Operation := ⟨.addressOf 3 [1, 2], 4⟩
  have hsite : site ∈ kernel.operations := by decide
  obtain ⟨base, buffer, x, y, hbase, -, hbuffer, -, -, hiff, -⟩ :=
    tile_form_iff_reinterpretations hbuilt rfl ⟨⟨4, 4⟩, ⟨1, 1⟩⟩ .empty true hsite rfl
  cases (show some 3 = some base from hbase)
  cases (show some 0 = some buffer from hbuffer)
  refine ⟨site, hsite, ⟨_, _, _, rfl⟩, rfl, rfl, hiff.mpr ?_⟩
  rintro between next hleads ⟨op, hop, hkind, -⟩
  rcases hleads.cases_head with rfl | ⟨middle, hstep, hrest⟩
  · cases (show some ⟨.reinterpretOf 0, 3⟩ = some op from hop)
    cases hkind
  · cases (show some 0 = some middle from hstep)
    have hend : kernel.derivedFrom? 0 = none := rfl
    rw [Kernel.LeadsTo.eq_of_derivedFrom?_eq_none hrest hend] at hop
    cases (show some ⟨⟨.param, some .pointer, []⟩, 0⟩ = some op from hop)
    cases hkind

/-- The base of a site with the address of a tile cell can be an address inside the buffer. -/
theorem nested_site_reads_tile :
    let kernel := ((((((Kernel.empty "k").addParameter "src" (some .pointer) false).addParameter
      "x" (some .scalar) false).addParameter "y" (some .scalar) false).append
        (.addressOf 0 [1, 2])).append (.addressOf 3 [1, 2])).append (.loadOf 4)
    let context := SiteContext.ofAnalysis kernel (Analysis.ofKernel kernel) ⟨⟨4, 4⟩, ⟨1, 1⟩⟩
      .empty true
    kernel.Built ∧ kernel.check = .ok () ∧
      ∃ site ∈ kernel.operations, (∃ tile row column,
        context.address? site = some (.cell tile row column)) ∧
        site.base = some 3 ∧ context.analysis.aliases.bufferStart site.id = some 0 ∧
        ¬ kernel.ReinterpretsTo 3 0 := by
  intro kernel context
  have hbuilt : kernel.Built :=
    .append (.append (.append (.addParameter (.addParameter (.addParameter (.empty "k") ..) ..)
      ..) _) _) _
  refine ⟨hbuilt, rfl, ⟨.addressOf 3 [1, 2], 4⟩, by decide, ⟨_, _, _, rfl⟩, rfl, rfl, ?_⟩
  intro h
  rcases h.cases_head with heq | ⟨base, ⟨op, hop, hkind, -⟩, -⟩
  · cases heq
  · cases (show some ⟨.addressOf 0 [1, 2], 3⟩ = some op from hop)
    cases hkind

end BufferPromotion
