import BufferPromotion.Compile.Basic
import BufferPromotion.Proofs.Listing.Renaming.Reading
import BufferPromotion.Proofs.Site.Written

/-! # Value names never matter

A name stands for the value that it is given to and says nothing about this value. So a listing with
other names is accepted if the listing is, with diagnostics of the same codes, and its kernels are
launched, analysed and rewritten in the same way (`value_names_never_matter`). What changes is what
shows a name: messages, places, and the texts of the buffers without a declaration.
-/

set_option autoImplicit false

namespace BufferPromotion

/-! ## Sites of a renamed kernel -/

/-- Two contexts in which the same becomes of every site: it reads a tile, and then that of the same
buffer with the same number of elements per pixel, or it keeps its address in global memory, and
then it is reported in both if it has no coordinate for each axis. -/
structure SiteContext.SameSites (context context' : SiteContext) : Prop where
  isCell : ∀ site, (context'.address? site).map (·.isCell) = (context.address? site).map (·.isCell)
  tileBuffer : ∀ site base, context'.tileBuffer site base = context.tileBuffer site base
  stride : ∀ id, (context'.buffers.image context'.kernel id).stride =
    (context.buffers.image context.kernel id).stride
  lacksCoordinate : ∀ site, context'.lacksCoordinate site = context.lacksCoordinate site

theorem storeSources_rename {kernel : Kernel} {name : String → String} (blacklisted : ValueSet) :
    storeSources (kernel.rename name) blacklisted = storeSources kernel blacklisted := by
  have hbases : (kernel.rename name).derivationBases = kernel.derivationBases :=
    funext fun _ => Kernel.derivationBases_rename
  unfold storeSources
  rw [hbases]

namespace SiteContext

variable {context context' : SiteContext}

/-- Whether a site reads a tile depends on two questions about it only. -/
theorem isCell_congr (hreads : ∀ site, context'.readsTile site = context.readsTile site)
    (htile : ∀ site base, context'.tileBuffer site base = context.tileBuffer site base)
    (site : Operation) :
    (context'.address? site).map (·.isCell) = (context.address? site).map (·.isCell) := by
  unfold address?
  split
  · next base hkind hbase =>
    unfold tileCell?
    rw [hreads, htile]
    by_cases hsite : context.readsTile site = true
    · rw [if_pos hsite, if_pos hsite]
      split <;> rfl
    · rw [if_neg hsite, if_neg hsite]
      rfl
  · rfl

end SiteContext

namespace ListedKernel

variable {r : Renaming} {listed listed' : ListedKernel}

/-- The context of the sites of a kernel, once it has been analysed. -/
def siteContext (listed : ListedKernel) (geometry : TileGeometry) (usesTiles : Bool) :
    SiteContext :=
  .ofAnalysis listed.kernel (.ofKernel listed.kernel) geometry listed.buffers usesTiles

/-- Two kernels that are launched, analysed and rewritten in the same way. -/
structure CompiledAlike (listed listed' : ListedKernel) : Prop where
  launch : ∀ launch, listed'.launchOf launch = listed.launchOf launch
  analysis : Analysis.ofKernel listed'.kernel = Analysis.ofKernel listed.kernel
  sites : ∀ geometry usesTiles,
    (listed.siteContext geometry usesTiles).SameSites (listed'.siteContext geometry usesTiles)
  reported : ∀ geometry usesTiles,
    (listed'.accessWarnings (listed'.siteContext geometry usesTiles)).map (·.code) =
      (listed.accessWarnings (listed.siteContext geometry usesTiles)).map (·.code)

section Renamed

variable (h : listed.Renamed r listed.kernel listed')

include h

theorem launchOf_renamed (launch : LaunchConfig) :
    listed'.launchOf launch = listed.launchOf launch := by
  have helim : ∀ (declared : Option DeclaredSize) (size : Size),
      declared.elim size (·.size) = (declared.map (·.size)).getD size := by
    intro declared size
    cases declared <;> rfl
  unfold launchOf
  rw [helim, helim, helim, helim, h.block, h.filter]

/-- The number of elements per pixel is declared, or it is that of a buffer without a declaration,
whatever its texts are. -/
theorem stride_image_renamed (id : ValueId) :
    (listed'.buffers.image listed'.kernel id).stride =
      (listed.buffers.image listed.kernel id).stride := by
  have hstride : ∀ id, (listed'.buffers.get? id).map (·.stride) =
      (listed.buffers.get? id).map (·.stride) := by
    intro id
    have hbuffer := h.buffers id
    generalize listed.buffers.get? id = image at hbuffer ⊢
    generalize listed'.buffers.get? id = image' at hbuffer ⊢
    cases hbuffer with
    | none => rfl
    | some himage => exact congrArg some himage.stride
  have helim : ∀ (listed : ListedKernel), (listed.buffers.image listed.kernel id).stride =
      ((listed.buffers.get? id).map (·.stride)).getD
        (((listed.kernel.rootParam id).bind fun param =>
          (listed.buffers.get? param.id).map (·.stride)).getD 1) := by
    intro listed
    unfold BufferTable.image
    cases listed.buffers.get? id with
    | some declared => rfl
    | none =>
        cases listed.kernel.rootParam id with
        | none => exact ImageBuffer.stride_ofValue _ _
        | some param =>
            dsimp only [Option.bind_some]
            cases listed.buffers.get? param.id with
            | some declared => rfl
            | none => exact ImageBuffer.stride_ofValue _ _
  rw [helim, helim, hstride, h.kernel, Kernel.rootParam_rename, Option.bind_map]
  congr 3
  funext param
  exact hstride param.id

/-- Nothing that decides about a site looks at a name. -/
theorem siteContext_renamed (geometry : TileGeometry) (usesTiles : Bool) :
    (listed.siteContext geometry usesTiles).SameSites (listed'.siteContext geometry usesTiles) := by
  have hanalysis : Analysis.ofKernel listed'.kernel = Analysis.ofKernel listed.kernel := by
    rw [h.kernel, Kernel.analysis_rename]
  have hwritten : (listed'.siteContext geometry usesTiles).written =
      (listed.siteContext geometry usesTiles).written := by
    unfold siteContext SiteContext.ofAnalysis
    rw [hanalysis, h.kernel, storeSources_rename]
  have hreads : ∀ site, (listed'.siteContext geometry usesTiles).readsTile site =
      (listed.siteContext geometry usesTiles).readsTile site := by
    intro site
    unfold SiteContext.readsTile
    rw [hwritten]
    unfold siteContext SiteContext.ofAnalysis
    rw [hanalysis]
  have htile : ∀ site base, (listed'.siteContext geometry usesTiles).tileBuffer site base =
      (listed.siteContext geometry usesTiles).tileBuffer site base := by
    intro site base
    unfold SiteContext.tileBuffer siteContext SiteContext.ofAnalysis
    rw [hanalysis]
  refine ⟨SiteContext.isCell_congr hreads htile, htile, stride_image_renamed h, fun site => ?_⟩
  unfold SiteContext.lacksCoordinate
  rw [hreads]

theorem compiledAlike_renamed : listed.CompiledAlike listed' where
  launch := launchOf_renamed h
  analysis := by rw [h.kernel, Kernel.analysis_rename]
  sites := siteContext_renamed h
  reported geometry usesTiles := by
    unfold accessWarnings
    rw [h.kernel, Kernel.operations_rename,
      funext (siteContext_renamed h geometry usesTiles).lacksCoordinate, List.map_map,
      List.map_map]
    rfl

end Renamed

end ListedKernel

/-- Two words exchange what they name. -/
def Renaming.exchange {first second : String} (hfirst : IsWord first) (hsecond : IsWord second) :
    Renaming where
  word := Equiv.swap first second
  isWord name hname := by
    rw [Equiv.swap_apply_def]
    split_ifs
    · exact hsecond
    · exact hfirst
    · exact hname
  injOn := (Equiv.swap first second).injective.injOn

/-- **Value names never matter.** If every token that names a value gets another name, the same
problems are reported with the same codes, and the kernels stay the same but for the names of
values, the places, and the texts of the buffers without a declaration. They are launched in the
same way, the same values are tracked, promoted and blacklisted, and every site reads the tile that
it read before, keeps its address in global memory as before, or is reported as before. -/
theorem value_names_never_matter (r : Renaming) (source : String) :
    List.Forall₂ (fun line line' => Agree (List.Forall₂ (Token.Renamed r)) (tokensOfLine line)
        (tokensOfLine line')) (sourceLines source) (sourceLines (r.source source)) ∧
      (readListing (r.source source)).codes = (readListing source).codes ∧
      Option.Rel (List.Forall₂ fun listed listed' =>
          listed.Renamed r listed.kernel listed' ∧ listed.CompiledAlike listed')
        (readListing source).value (readListing (r.source source)).value := by
  obtain ⟨hcodes, hkernels⟩ := readListing_renamed r source
  refine ⟨Renaming.forall₂_tokensOfLine source, hcodes, ?_⟩
  generalize (readListing source).value = value at hkernels ⊢
  generalize (readListing (r.source source)).value = value' at hkernels ⊢
  cases hkernels with
  | none => exact .none
  | some hkernels =>
      exact .some (hkernels.imp fun _ _ h => ⟨h, ListedKernel.compiledAlike_renamed h⟩)

/-- The two words that are exchanged name a struct and an index. The data of the declared buffer is
that of the struct, so its text changes. The comment is no token and stays. -/
theorem exchanged_names_do_not_matter :
    let r := Renaming.exchange (by decide : IsWord "img") (by decide : IsWord "x")
    let source := "kernel k // %img\nparam %img : struct S\nparam %x : scalar\n" ++
      "%p = extract %img, data : ptr\nbuffer %p u8\n%q = lea %p, %x, %x\n"
    let renamed := "kernel k // %img\nparam %x : struct S\nparam %img : scalar\n" ++
      "%p = extract %x, data : ptr\nbuffer %p u8\n%q = lea %p, %img, %img\n"
    r.source source = renamed ∧
      ∃ listed listed', (readListing source).value = some [listed] ∧
        (readListing renamed).value = some [listed'] ∧
        listed'.kernel = listed.kernel.rename r.name ∧ listed.CompiledAlike listed' ∧
        (listed.buffers.get? 2).map (·.data) = some "img.data" ∧
        (listed'.buffers.get? 2).map (·.data) = some "x.data" := by
  intro r source renamed
  have hsource : r.source source = renamed := by decide +kernel
  have hdata : (readListing source).value.map
      (fun kernels => kernels.map fun listed => (listed.buffers.get? 2).map (·.data)) =
      some [some "img.data"] := by
    decide +kernel
  have hdata' : (readListing renamed).value.map
      (fun kernels => kernels.map fun listed => (listed.buffers.get? 2).map (·.data)) =
      some [some "x.data"] := by
    decide +kernel
  obtain ⟨-, -, hkernels⟩ := value_names_never_matter r source
  rw [hsource] at hkernels
  obtain ⟨kernels, hread, hlist⟩ := Option.map_eq_some_iff.mp hdata
  obtain ⟨kernels', hread', hlist'⟩ := Option.map_eq_some_iff.mp hdata'
  obtain ⟨listed, rfl, himage⟩ := List.map_eq_singleton_iff.mp hlist
  obtain ⟨listed', rfl, himage'⟩ := List.map_eq_singleton_iff.mp hlist'
  rw [hread, hread'] at hkernels
  cases hkernels with
  | some hpairs =>
      obtain ⟨⟨hrenamed, halike⟩, -⟩ := List.forall₂_cons.mp hpairs
      exact ⟨hsource, listed, listed', hread, hread', hrenamed.kernel, halike, himage, himage'⟩

end BufferPromotion
