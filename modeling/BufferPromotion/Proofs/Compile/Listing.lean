import BufferPromotion.Proofs.Alias.Renumbering
import BufferPromotion.Proofs.Compile.Independence
import BufferPromotion.Proofs.Listing.RoundTrip

/-! # Listings of listings

Compiling a listing to a listing numbers the values of every kernel anew, parameters first, and
forgets the launch configuration and the buffers. Doing it again changes nothing: the output is
compiled to itself. The analysis does not depend on the numbers, so it says the same about the
kernels of the output.
-/

set_option autoImplicit false

namespace BufferPromotion

/-! ## What stays the same -/

/-- A kernel with its values numbered in the order of the listing, parameters first. -/
structure Kernel.RenumberedAs (kernel copy : Kernel) : Prop where
  name : copy.name = kernel.name
  params : copy.params = kernel.params.map fun param => { param with id := kernel.rank param.id }
  operations : copy.operations = kernel.operations.map (Operation.renumber kernel.rank)
  names : ∀ id ∈ kernel.order, copy.givenName? (kernel.rank id) = kernel.givenName? id
  order : copy.order = List.range copy.size

/-- An analysis with other numbers for the values. -/
structure Analysis.RenumberedAs (number : ValueId → ValueId) (analysis copy : Analysis) : Prop where
  references : ∀ value root, copy.aliases.references[value]? = some root ↔
    ∃ id old, analysis.aliases.references[id]? = some old ∧ number id = value ∧ number old = root
  pointers : ∀ value source, copy.aliases.pointers[value]? = some source ↔
    ∃ id old, analysis.aliases.pointers[id]? = some old ∧ number id = value ∧
      old.renumber number = source
  promoted : ∀ value, value ∈ copy.promotion.promoted ↔
    ∃ id ∈ analysis.promotion.promoted, number id = value
  blacklisted : ∀ value, value ∈ copy.promotion.blacklisted ↔
    ∃ id ∈ analysis.promotion.blacklisted, number id = value

theorem Kernel.Named.wordOf_eq {kernel : Kernel} {id : ValueId} {name : String}
    (h : kernel.givenName? id = some name) : kernel.wordOf id = name := by
  unfold Kernel.wordOf
  rw [h]
  rfl

theorem Kernel.ReadAs.renumberedAs {kernel : Kernel} {listed : ListedKernel}
    (h : kernel.ReadAs listed) (hkernel : kernel.Named) : kernel.RenumberedAs listed.kernel := by
  refine ⟨h.copies.name, ?_, h.copies.operations, fun id hid => ?_, h.copies.order⟩
  · rw [h.copies.params]
    refine List.map_congr_left fun param hparam => ?_
    unfold copiedParam
    rw [Named.wordOf_eq (hkernel.param param hparam)]
  · by_cases hshown : kernel.Shows id
    · obtain ⟨name, hname⟩ := Option.isSome_iff_exists.mp ((hkernel.shown id).mpr hshown)
      rw [h.copies.names id hshown, Named.wordOf_eq hname, hname]
    · -- a value without a word has no name, and neither has its copy
      have hold : kernel.givenName? id = none := by
        rw [← Option.not_isSome_iff_eq_none, hkernel.shown]
        exact hshown
      rw [hold, ← Option.not_isSome_iff_eq_none, h.named.shown]
      intro hcopy
      obtain ⟨other, hother, hrank⟩ := h.copies.exists_of_shows hcopy
      rw [← (rank_inj hid).mp hrank.symm] at hother
      exact hshown hother

theorem Kernel.ReadAs.analysis {kernel : Kernel} {listed : ListedKernel}
    (h : kernel.ReadAs listed) (hkernel : kernel.Named) :
    (Analysis.ofKernel kernel).RenumberedAs kernel.rank (Analysis.ofKernel listed.kernel) := by
  have hoperands : ∀ op ∈ kernel.operations, ∀ operand ∈ op.operands, operand ∈ kernel.order :=
    fun op hop operand hoperand => (hkernel.listable.shows_operand hop hoperand).mem_ids
  exact ⟨fun _ _ => AliasSet.references_copy_iff h.copies hoperands,
    fun _ _ => AliasSet.pointers_copy_iff h.copies hoperands,
    fun _ => Analysis.mem_promoted_copy_iff h.copies hoperands,
    fun _ => Analysis.mem_blacklisted_copy_iff h.copies⟩

/-! ## Compiling twice -/

theorem value_compile_listing {source output : String} {options : Options}
    (hformat : options.format = .listing) :
    (compile source options).value = some output ↔
      (∃ kernels, (readListing source).value = some kernels ∧
        String.intercalate "\n" (kernels.map fun listed => listed.kernel.listing) = output) ∧
      ∀ warning ∈ (readListing source).warnings, warning.code ∉ options.upgraded := by
  -- a value is given unless a warning is among those that count as errors
  have hupgraded : (readListing source).warnings.any
      (fun warning => options.upgraded.contains warning.code) = true ↔
        ¬ ∀ warning ∈ (readListing source).warnings, warning.code ∉ options.upgraded := by
    rw [List.any_eq_true]
    simp only [List.contains_iff_mem, not_forall, not_not, exists_prop]
  have hvalue : (compile source options).value =
      if (readListing source).warnings.any (fun warning => options.upgraded.contains warning.code)
        then none
        else (readListing source).value.map fun kernels =>
          String.intercalate "\n" (kernels.map fun listed => listed.kernel.listing) := by
    rw [← funext listings_eq]
    unfold compile compileLenient
    rw [hformat]
    rfl
  rw [hvalue, ← Option.map_eq_some_iff]
  split
  · next hany => exact ⟨nofun, fun h => absurd h.2 (hupgraded.mp hany)⟩
  · next hnone => exact ⟨fun h => ⟨h, not_not.mp (mt hupgraded.mpr hnone)⟩, fun h => h.1⟩

theorem map_listing_eq {kernels copies : List ListedKernel}
    (h : List.Forall₂ (fun listed copy => listed.kernel.Named ∧ listed.kernel.ReadAs copy)
      kernels copies) :
    copies.map (fun copy => copy.kernel.listing) =
      kernels.map fun listed => listed.kernel.listing := by
  induction h with
  | nil => rfl
  | cons hpair _ ih =>
      rw [List.map_cons, List.map_cons, hpair.2.copies.listing_eq hpair.1.listable, ih]

/-- The output of a listing compiled to a listing is compiled to itself. -/
theorem listing_is_fixed_point {source output : String} {options : Options}
    (hformat : options.format = .listing) (h : (compile source options).value = some output) :
    (compile output options).value = some output ∧
      ∃ kernels copies, (readListing source).value = some kernels ∧
        (readListing output).value = some copies ∧
        List.Forall₂ (fun listed copy => listed.kernel.RenumberedAs copy.kernel ∧
          (Analysis.ofKernel listed.kernel).RenumberedAs listed.kernel.rank
            (Analysis.ofKernel copy.kernel)) kernels copies := by
  obtain ⟨⟨kernels, hread, rfl⟩, hupgraded⟩ := (value_compile_listing hformat).mp h
  -- whatever has been read can be printed, and what is printed is read as a copy
  have hnamed := named_of_readListing hread
  have hlistable : ∀ kernel ∈ kernels.map (·.kernel), kernel.Listable := by
    intro kernel hkernel
    obtain ⟨listed, hlisted, rfl⟩ := List.mem_map.mp hkernel
    exact (hnamed listed hlisted).listable
  obtain ⟨copies, hcopies, hcopied, hwarnings⟩ := exists_copies hlistable
  rw [List.map_map] at hcopies hwarnings
  have hpairs := (List.forall₂_and_left kernels copies).mpr
    ⟨hnamed, List.forall₂_map_left_iff.mp hcopied⟩
  refine ⟨(value_compile_listing hformat).mpr ⟨⟨copies, hcopies, ?_⟩, ?_⟩, kernels, copies, hread,
    hcopies, ?_⟩
  · rw [map_listing_eq hpairs]
  · -- a warning about the output comes from a parameter that the source was warned about
    intro warning hwarning
    obtain ⟨hcode, kernel, hkernel, param, hparam, htype⟩ := hwarnings warning hwarning
    obtain ⟨listed, hlisted, rfl⟩ := List.mem_map.mp hkernel
    obtain ⟨first, hfirst, hfirstCode⟩ := warned_of_readListing hread hlisted hparam htype
    rw [hcode, ← hfirstCode]
    exact hupgraded first hfirst
  · exact hpairs.imp fun listed copy hpair =>
      ⟨hpair.2.renumberedAs hpair.1, hpair.2.analysis hpair.1⟩

/-- A parameter that is declared after an operation comes first in the output, and stays first. -/
theorem late_parameter_stays_first :
    (compile "kernel k\n%x = foo\nparam %p : odd\nblock 2 2\n\nkernel l"
        { Options.standard with format := .listing }).value =
          some "kernel k\nparam %p : ?\n%x = foo : scalar\n\nkernel l\n" ∧
      (compile "kernel k\nparam %p : ?\n%x = foo : scalar\n\nkernel l\n"
        { Options.standard with format := .listing }).value =
          some "kernel k\nparam %p : ?\n%x = foo : scalar\n\nkernel l\n" := by
  have hfirst : (compile "kernel k\n%x = foo\nparam %p : odd\nblock 2 2\n\nkernel l"
      { Options.standard with format := .listing }).value =
        some "kernel k\nparam %p : ?\n%x = foo : scalar\n\nkernel l\n" := by
    decide +kernel
  exact ⟨hfirst, (listing_is_fixed_point rfl hfirst).1⟩

end BufferPromotion
