import BufferPromotion.Proofs.Kernel.Chain
import BufferPromotion.Proofs.Listing.Recorded

/-! # Tables of a listed kernel

Next to its kernel, a listed kernel has tables that are indexed by values: the lines of the values,
the images of the declared buffers, and the lines of the declarations. Every accepted line makes one
value and records its line, or changes the launch configuration or one buffer. So the tables fit the
kernel at every moment (`ListedKernel.Fits`), and whoever looks up a value of the kernel finds an
entry (`tables_fit_kernel`).
-/

set_option autoImplicit false

namespace BufferPromotion

/-! ## Values that take a declaration -/

namespace Kernel

/-- A buffer can be declared for a parameter, and for a value that starts its own buffer. -/
def TakesBuffer (kernel : Kernel) (id : ValueId) : Prop :=
  (∃ param ∈ kernel.params, param.id = id) ∨ kernel.bufferStart id = some id

variable {kernel later : Kernel} {node : Node} {id : ValueId}

theorem takesBuffer_iff :
    kernel.TakesBuffer id ↔
      (kernel.param? id).isSome = true ∨ kernel.bufferStart id = some id := by
  unfold TakesBuffer param?
  simp only [List.find?_isSome, beq_iff_eq]

/-- A new node takes no declaration away. -/
theorem TakesBuffer.of_push (h : kernel.TakesBuffer id)
    (hnodes : later.nodes = kernel.nodes.push node) (hparams : kernel.params ⊆ later.params) :
    later.TakesBuffer id := by
  rcases h with ⟨param, hparam, rfl⟩ | hstart
  · exact Or.inl ⟨param, hparams hparam, rfl⟩
  · obtain ⟨op, hop, hkind, hpointer⟩ := exists_start_of_bufferStart hstart
    exact Or.inr (bufferStart_of_leadsTo .refl (operation?_of_push hnodes hop) hkind hpointer)

end Kernel

theorem Size.one_le_of_hasZero {size : Size} (h : size.hasZero = false) :
    1 ≤ size.x.toNat ∧ 1 ≤ size.y.toNat := by
  unfold hasZero at h
  rw [Bool.or_eq_false_iff, beq_eq_false_iff_ne, beq_eq_false_iff_ne] at h
  exact ⟨one_le_toNat h.1, one_le_toNat h.2⟩

namespace ListedKernel

/-- The tables of a listed kernel are about its values, and what they declare can be used. -/
structure Fits (listed : ListedKernel) : Prop where
  /-- A value has a line, and nothing else has. -/
  spans : ∀ id, (listed.spans[id]?).isSome = true ↔ id < listed.kernel.size
  /-- An image has a line, and nothing else has. -/
  bufferLines : ∀ id, (listed.bufferLines[id]?).isSome = (listed.buffers.get? id).isSome
  buffers : ∀ id image, listed.buffers.get? id = some image →
    listed.kernel.TakesBuffer id ∧ image.stride ≠ 0
  block : ∀ declared, listed.block = some declared → declared.size.hasZero = false
  filter : ∀ declared, listed.filter = some declared → declared.size.hasZero = false

theorem fits_opened (name : String) (line : Span) : (opened name line).Fits where
  spans id := by
    have hspans : (opened name line).spans[id]? = none := Std.ExtTreeMap.getElem?_empty
    rw [hspans]
    exact iff_of_false nofun (Nat.not_lt_zero id)
  bufferLines id := by
    have hlines : (opened name line).bufferLines[id]? = none := Std.ExtTreeMap.getElem?_empty
    have himages : (opened name line).buffers.get? id = none := Std.ExtTreeMap.getElem?_empty
    rw [hlines, himages]
    rfl
  buffers id image himage := by
    have himages : (opened name line).buffers.get? id = none := Std.ExtTreeMap.getElem?_empty
    rw [himages] at himage
    cases himage
  block := nofun
  filter := nofun

variable {draft next : Draft} {line : Span}

/-- A line that makes a value keeps the tables in step. -/
theorem Fits.of_adds (h : draft.Fits) (hadds : draft.Adds line next) : next.Fits := by
  obtain ⟨node, hnodes⟩ := hadds.nodes
  have hsize : next.kernel.size = draft.kernel.size + 1 := by
    unfold Kernel.size
    rw [hnodes, Array.size_push]
  rw [hadds.rest]
  refine ⟨fun id => ?_, h.bufferLines, fun id image himage => ?_, h.block, h.filter⟩
  · show ((draft.spans.insert draft.kernel.nextId line)[id]?).isSome = true ↔
      id < next.kernel.size
    rw [Kernel.getElem?_insert_value, hsize, Nat.lt_succ_iff_lt_or_eq, ← h.spans id]
    by_cases hid : id = draft.kernel.nextId
    · rw [if_pos hid]
      exact iff_of_true rfl (Or.inr hid)
    · rw [if_neg hid]
      exact (or_iff_left hid).symm
  · obtain ⟨htakes, hstride⟩ := h.buffers id image himage
    exact ⟨htakes.of_push hnodes hadds.params, hstride⟩

/-- A line about the launch or a buffer puts into its table what it has checked. -/
theorem Fits.of_sets (h : draft.Fits) {first : Token} {tokens : List Token}
    (hsets : draft.Sets line first tokens next) : next.Fits := by
  cases hsets with
  | block size hfirst hsize =>
      refine ⟨h.spans, h.bufferLines, h.buffers, fun declared hdeclared => ?_, h.filter⟩
      cases hdeclared
      exact hsize
  | filter size hfirst hsize =>
      refine ⟨h.spans, h.bufferLines, h.buffers, h.block, fun declared hdeclared => ?_⟩
      cases hdeclared
      exact hsize
  | buffer id image hfirst hvalue hstart hstride =>
      refine ⟨h.spans, fun other => ?_, fun other declared hdeclared => ?_, h.block, h.filter⟩
      · show ((draft.bufferLines.insert id line)[other]?).isSome =
          ((draft.buffers.insert id image).get? other).isSome
        rw [Kernel.getElem?_insert_value, BufferTable.get?_insert]
        split
        · rfl
        · exact h.bufferLines other
      · change (draft.buffers.insert id image).get? other = some declared at hdeclared
        rw [BufferTable.get?_insert] at hdeclared
        split at hdeclared
        · next hother =>
          subst hother
          cases hdeclared
          exact ⟨Kernel.takesBuffer_iff.mpr hstart, hstride⟩
        · exact h.buffers other declared hdeclared

/-- Every accepted line keeps the tables in step. -/
theorem Fits.of_readLine (h : draft.Fits) {first : Token} {tokens : List Token}
    {warnings : List Diagnostic} (hfirst : first.lexeme ≠ .word "kernel")
    (hread : Draft.readLine line first tokens ⟨draft, []⟩ = .ok () ⟨next, warnings⟩) :
    next.Fits := by
  rcases Draft.adds_or_sets_of_readLine hfirst hread with ⟨-, hadds⟩ | hsets
  · exact h.of_adds hadds
  · exact h.of_sets hsets

end ListedKernel

/-! ## The kernels of a listing -/

/-- What holds of a kernel that is opened, and is kept by the accepted lines, holds of every kernel
that is read. -/
theorem Reading.listed_induction {motive : ListedKernel → Prop}
    (hopened : ∀ name line, motive (ListedKernel.opened name line))
    (haccepted : ∀ (draft next : Draft) (line : Span) (first : Token) (tokens : List Token)
      (warnings : List Diagnostic), first.lexeme ≠ .word "kernel" →
        Draft.readLine line first tokens ⟨draft, []⟩ = .ok () ⟨next, warnings⟩ →
        motive draft.toListedKernel → motive next.toListedKernel)
    (lines : List SourceLine) :
    ∀ listed ∈ (lines.foldl readLine start).listed, motive listed := by
  induction lines using List.reverseRecOn with
  | nil => exact nofun
  | append_singleton lines line ih =>
      rw [List.foldl_concat, readLine_eq (sound_foldl_readLine lines)]
      generalize lines.foldl readLine start = reading at ih ⊢
      cases heffect : lineEffect reading.current line with
      | nothing | refused warnings diagnostic => exact ih
      | opened name span =>
          intro entry hentry
          rcases List.mem_append.mp hentry with hold | hnew
          · exact ih entry hold
          · rw [List.mem_singleton.mp hnew]
            exact hopened name span
      | accepted warnings next =>
          obtain ⟨draft, first, tokens, hcurrent, -, hfirst, hread⟩ :=
            exists_readLine_of_accepted heffect
          intro entry hentry
          rcases List.mem_append.mp hentry with hclosed | hopen
          · exact ih entry (List.mem_append_left _ hclosed)
          · rw [List.mem_singleton.mp hopen]
            -- the open kernel is one of those read before
            refine haccepted draft next _ first tokens warnings hfirst hread (ih _ ?_)
            unfold listed
            rw [hcurrent]
            exact List.mem_append_right _ List.mem_cons_self

section Listing

variable {source : String} {kernels : List ListedKernel}
  (h : (readListing source).value = some kernels) {listed : ListedKernel}
  (hlisted : listed ∈ kernels)

include h hlisted

theorem fits_of_readListing : listed.Fits := by
  rw [← listed_of_readListing h] at hlisted
  refine Reading.listed_induction ListedKernel.fits_opened ?_ (sourceLines source) listed hlisted
  intro draft next line first tokens warnings hfirst hread hfits
  exact hfits.of_readLine hfirst hread

end Listing

/-- Every operand of a node is shown. -/
theorem Kernel.Named.shows_operand {kernel : Kernel} (h : kernel.Named) {id : ValueId}
    {op : Operation} (hop : kernel.operation? id = some op) {operand : ValueId}
    (hoperand : operand ∈ op.operands) : kernel.Shows operand := by
  rcases Kernel.param_or_mem_operations h.listable.built hop with ⟨param, -, -, rfl⟩ | hmem
  · exact absurd hoperand List.not_mem_nil
  · exact h.listable.shows_operand hmem hoperand

/-- **The tables of a listed kernel fit the kernel.** There is a line for every id of the kernel and
for no other id. The parameters and the operations with a result have a name, and nothing else has;
names are not empty and tell the values apart, and every operand is one of these values. The images
and the lines of buffers are for the same values, each of which is a parameter or starts its own
buffer; and a declared stride is at least one, as are both dimensions of a declared block and
filter. So the line of a value and that of a declared buffer are never those of the kernel. -/
theorem tables_fit_kernel {source : String} {kernels : List ListedKernel}
    (h : (readListing source).value = some kernels) :
    ∀ listed ∈ kernels,
      (∀ id, (listed.spans[id]?).isSome = true ↔ id < listed.kernel.size) ∧
      (∀ id, (listed.kernel.givenName? id).isSome = true ↔ listed.kernel.Shows id) ∧
      (∀ id name, listed.kernel.givenName? id = some name → name ≠ "" ∧
        ∀ other, listed.kernel.givenName? other = some name → other = id) ∧
      (∀ id op, listed.kernel.operation? id = some op →
        ∀ operand ∈ op.operands, listed.kernel.Shows operand) ∧
      (∀ id, (listed.bufferLines[id]?).isSome = (listed.buffers.get? id).isSome) ∧
      (∀ id image, listed.buffers.get? id = some image →
        listed.kernel.TakesBuffer id ∧ 1 ≤ image.stride.toNat) ∧
      (∀ declared, listed.block = some declared ∨ listed.filter = some declared →
        1 ≤ declared.size.x.toNat ∧ 1 ≤ declared.size.y.toNat) ∧
      (∀ id < listed.kernel.size, listed.spans[id]? = some (listed.lineOf id)) ∧
      ∀ entry ∈ listed.buffers.toList,
        listed.bufferLines[entry.1]? = some (listed.bufferLineOf entry.1) := by
  intro listed hlisted
  have hfits := fits_of_readListing h hlisted
  have hnamed := named_of_readListing h listed hlisted
  refine ⟨hfits.spans, hnamed.shown, fun id name hname => ?_, fun id op hop operand hoperand => ?_,
    hfits.bufferLines, fun id image himage => ?_, fun declared hdeclared => ?_, fun id hid => ?_,
    fun entry hentry => ?_⟩
  · exact ⟨hnamed.name_ne_empty hname, fun other hother => hnamed.eq_of_givenName? hother hname⟩
  · exact hnamed.shows_operand hop hoperand
  · obtain ⟨htakes, hstride⟩ := hfits.buffers id image himage
    exact ⟨htakes, one_le_toNat hstride⟩
  · refine Size.one_le_of_hasZero ?_
    rcases hdeclared with hblock | hfilter
    · exact hfits.block declared hblock
    · exact hfits.filter declared hfilter
  · obtain ⟨span, hspan⟩ := Option.isSome_iff_exists.mp ((hfits.spans id).mpr hid)
    unfold ListedKernel.lineOf
    rw [hspan]
    rfl
  · have himage : listed.buffers.get? entry.1 = some entry.2 :=
      BufferTable.mem_toList_iff.mp hentry
    have hsome := hfits.bufferLines entry.1
    rw [himage] at hsome
    obtain ⟨span, hspan⟩ := Option.isSome_iff_exists.mp hsome
    unfold ListedKernel.bufferLineOf
    rw [hspan]
    rfl

/-- The store, which has no result, has its own line and no name. The buffer of the extracted pointer
is declared before the kernel is complete. -/
theorem store_has_its_line :
    let source := "kernel k\nparam %img : struct S\n%d = extract %img, data : ptr\n" ++
      "buffer %d f32 stride=2\nparam %x : scalar\nstore %d, %x\n"
    ∃ listed, (readListing source).value = some [listed] ∧ listed.kernel.size = 4 ∧
      listed.lineOf 3 = ⟨102, 12⟩ ∧ listed.spans[3]? = some (listed.lineOf 3) ∧
      listed.kernel.givenName? 3 = none ∧ ¬ listed.kernel.Shows 3 ∧
      ∃ image, listed.buffers.get? 1 = some image ∧ listed.kernel.TakesBuffer 1 ∧
        1 ≤ image.stride.toNat ∧ (listed.bufferLines[1]?).isSome = true := by
  intro source
  have hread : (readListing source).value.map (fun kernels => kernels.map fun listed =>
      (listed.kernel.size, listed.lineOf 3, listed.kernel.givenName? 3,
        (listed.buffers.get? 1).map (·.stride))) = some [(4, ⟨102, 12⟩, none, some 2)] := by
    decide +kernel
  obtain ⟨kernels, hkernels, hparts⟩ := Option.map_eq_some_iff.mp hread
  obtain ⟨listed, rfl, hpart⟩ := List.map_eq_singleton_iff.mp hparts
  simp only [Prod.mk.injEq] at hpart
  obtain ⟨hsize, hline, hname, hstride⟩ := hpart
  obtain ⟨image, himage, -⟩ := Option.map_eq_some_iff.mp hstride
  obtain ⟨-, hshown, -, -, hlines, hbuffers, -, hlineOf, -⟩ :=
    tables_fit_kernel hkernels listed List.mem_cons_self
  obtain ⟨htakes, hone⟩ := hbuffers 1 image himage
  refine ⟨listed, hkernels, hsize, hline, hlineOf 3 (by rw [hsize]; decide), hname, ?_, image,
    himage, htakes, hone, ?_⟩
  · rw [← hshown, hname]
    exact nofun
  · rw [hlines, himage]
    rfl

end BufferPromotion
