import BufferPromotion.Proofs.Compile.Independence
import BufferPromotion.Proofs.Listing.Recorded

/-! # Places that are shown to the user

A kernel that is compiled is reported at the places that are recorded in it, and at no others
(`ListedKernel.only_compile`). These are places of lines, as are those that the reader reports
itself, so whatever is reported can be shown in the source, and what is recorded for a part of a
kernel is its line from the first token to the last (`places_are_in_source`).
-/

set_option autoImplicit false

namespace BufferPromotion

/-! ## One kernel -/

namespace ListedKernel

variable {listed : ListedKernel} {options : Options}

/-- A place that is recorded for some part of a kernel. -/
def Recorded (listed : ListedKernel) (span : Span) : Prop :=
  ∃ part, listed.placeOf part = some span

theorem recorded_span : listed.Recorded listed.span := ⟨.kernel, rfl⟩

theorem recorded_block {block : DeclaredSize} (h : listed.block = some block) :
    listed.Recorded block.span :=
  ⟨.block, congrArg (Option.map DeclaredSize.span) h⟩

theorem recorded_filter {filter : DeclaredSize} (h : listed.filter = some filter) :
    listed.Recorded filter.span :=
  ⟨.filter, congrArg (Option.map DeclaredSize.span) h⟩

theorem recorded_lineOf (id : ValueId) : listed.Recorded (listed.lineOf id) := by
  unfold lineOf
  cases hline : listed.spans[id]? with
  | none => exact recorded_span
  | some line => exact ⟨.value id, hline⟩

theorem recorded_bufferLineOf (id : ValueId) : listed.Recorded (listed.bufferLineOf id) := by
  unfold bufferLineOf
  cases hline : listed.bufferLines[id]? with
  | none => exact recorded_span
  | some line => exact ⟨.buffer id, hline⟩

/-- A diagnostic with neither labels nor another place in its problem points at one place. -/
theorem within_of_labels {known : Span → Prop} {diagnostic : Diagnostic}
    (hlabels : diagnostic.labels = []) (h : known diagnostic.span) : diagnostic.Within known :=
  ⟨h, by rw [hlabels]; exact List.forall_mem_nil _⟩

theorem within_filterWarnings (launch : LaunchConfig) :
    ∀ warning ∈ listed.filterWarnings launch, warning.Within listed.Recorded := by
  intro warning hwarning
  unfold filterWarnings at hwarning
  split at hwarning
  · rw [List.mem_singleton.mp hwarning]
    refine within_of_labels rfl ?_
    cases hfilter : listed.filter with
    | none => exact recorded_span
    | some filter => exact recorded_filter hfilter
  · cases hwarning

theorem within_oversizedTile (launch : LaunchConfig) :
    (listed.oversizedTile launch).Within listed.Recorded := by
  unfold oversizedTile
  dsimp only
  split
  · next block filter hblock hfilter =>
    refine ⟨recorded_block hblock, fun label hlabel => ?_⟩
    rw [List.mem_singleton.mp hlabel]
    exact recorded_filter hfilter
  · next block hblock _ => exact within_of_labels rfl (recorded_block hblock)
  · next filter _ hfilter => exact within_of_labels rfl (recorded_filter hfilter)
  · exact within_of_labels rfl recorded_span

theorem within_strideErrors (geometry : TileGeometry) :
    ∀ error ∈ listed.strideErrors geometry, error.Within listed.Recorded := by
  intro error herror
  obtain ⟨⟨id, buffer⟩, -, rfl⟩ := List.mem_map.mp herror
  exact within_of_labels rfl (recorded_bufferLineOf id)

theorem within_accessWarnings (context : SiteContext) :
    ∀ warning ∈ listed.accessWarnings context, warning.Within listed.Recorded := by
  intro warning hwarning
  obtain ⟨op, -, rfl⟩ := List.mem_map.mp hwarning
  exact within_of_labels rfl (recorded_lineOf op.id)

theorem only_output (geometry : TileGeometry) (analysis : Analysis) :
    (listed.output options geometry analysis).Only (Diagnostic.Within listed.Recorded) := by
  unfold output
  dsimp only
  cases options.format with
  | summary | aliasGraph | listing | dump => exact Outcome.only_ofValue _
  | kernel =>
      dsimp only
      unfold code
      cases Emission.run _ with
      | ok code => exact Outcome.only_ofValue _
      | error tile => exact Outcome.only_ofError (within_of_labels rfl recorded_span)

/-- What is reported about a kernel points at places that are recorded in it. -/
theorem only_compile :
    (listed.compile options).Only (Diagnostic.Within listed.Recorded) := by
  have hchecked := (Outcome.only_ofValue ()).foldl_warn
    (listed.within_filterWarnings (listed.launchOf options.settings.launch))
  unfold compile
  dsimp only
  cases TileGeometry.ofLaunch? (listed.launchOf options.settings.launch) with
  | none => exact (hchecked.fail (within_oversizedTile _)).map _
  | some geometry =>
      refine (hchecked.foldl_fail (within_strideErrors geometry)).andThen fun _ _ => ?_
      refine ((Outcome.only_ofValue ()).foldl_warn (within_accessWarnings _)).andThen fun _ _ => ?_
      exact only_output _ _

end ListedKernel

/-! ## Whole listings -/

theorem Diagnostic.Within.mono {known wider : Span → Prop} {diagnostic : Diagnostic}
    (h : diagnostic.Within known) (hwider : ∀ span, known span → wider span) :
    diagnostic.Within wider :=
  ⟨hwider _ h.1, fun label hlabel => hwider _ (h.2 label hlabel)⟩

variable {source : String}

/-- The place of a line of a source is a place in the source. -/
theorem isPlaceIn_extent {line : SourceLine} (h : line ∈ sourceLines source) :
    line.extent.IsPlaceIn source := by
  obtain ⟨back, hsaid, -⟩ := exists_blanks_around line.said
  refine (marks_extent h).isPlaceIn fun hbreak => ?_
  refine (exists_around_of_mem_sourceLines h).1 (dropComment_subset line.text ?_)
  show '\n' ∈ line.said
  rw [hsaid]
  exact List.mem_append_left _ (List.mem_append_right _ hbreak)

/-- What is recorded in a kernel of a listing is a place in the source. -/
theorem isPlaceIn_of_recorded {kernels : List ListedKernel}
    (h : (readListing source).value = some kernels) {listed : ListedKernel}
    (hlisted : listed ∈ kernels) {span : Span} (hspan : listed.Recorded span) :
    span.IsPlaceIn source := by
  obtain ⟨number, hnumber⟩ := List.mem_iff_getElem?.mp hlisted
  obtain ⟨part, hpart⟩ := hspan
  obtain ⟨line, hline, rfl⟩ := (placeOf_eq_some_iff h hnumber).mp hpart
  exact isPlaceIn_extent hline.mem

/-- Everything that is reported is at a place in the source. -/
theorem only_compile (options : Options) :
    (compile source options).Only (Diagnostic.Within (Span.IsPlaceIn source)) := by
  have hread : (readListing source).Only (Diagnostic.Within (Span.IsPlaceIn source)) :=
    fun _ => isPlaceIn_of_mem_diagnostics
  refine Outcome.Only.upgrade ?_ _
  unfold compileLenient
  dsimp only
  cases options.format with
  | listing | dump => exact hread.map _
  | summary | kernel | aliasGraph =>
      refine hread.andThen fun kernels hkernels => ?_
      intro entry hentry
      rw [diagnostics_compileAll] at hentry
      obtain ⟨listed, hlisted, hentry⟩ := List.mem_flatMap.mp hentry
      have hwithin := ListedKernel.only_compile entry hentry
      exact hwithin.mono fun _ => isPlaceIn_of_recorded hkernels hlisted

/-- **Every place that is reported or recorded is in the source.** Whatever the source and the
options are, the places of all diagnostics and of all their labels lie in the source, start and stop
at characters, and hold no line break. In a kernel of a listing, a place is recorded for a part of
it - the kernel itself, its block and filter, a buffer or a value - if and only if some line is about
that part. The place then starts with the first token of the last such line and stops with its last
token, and what it marks is the text of the line without its ending, its comment and the blanks
around the rest. -/
theorem places_are_in_source :
    (∀ (source : String) (options : Options), ∀ entry ∈ (compile source options).diagnostics,
      entry.2.span.IsPlaceIn source ∧ ∀ label ∈ entry.2.labels, label.1.IsPlaceIn source) ∧
    ∀ (source : String) (kernels : List ListedKernel), (readListing source).value = some kernels →
      ∀ (number : Nat) (listed : ListedKernel), kernels[number]? = some listed →
      ∀ (part : Kernel.Part) (span : Span), listed.placeOf part = some span ↔
        ∃ line first tokens, Reading.LastAbout (number, part) (sourceLines source) line ∧
          tokensOfLine line = .ok (first :: tokens) ∧ span.start = first.span.start ∧
          span.stop = (tokens.getLastD first).span.stop ∧
          span.Marks source.toList (trimBlanks line.said) := by
  refine ⟨fun source options => only_compile options, ?_⟩
  intro source kernels hkernels number listed hlisted part span
  rw [placeOf_eq_some_iff hkernels hlisted]
  constructor
  · rintro ⟨line, hline, rfl⟩
    obtain ⟨first, tokens, htokens⟩ := hline.exists_tokens
    obtain ⟨hstart, hstop, -⟩ := lineSpan_eq_extent htokens
    exact ⟨line, first, tokens, hline, htokens, hstart.symm, hstop.symm, marks_extent hline.mem⟩
  · rintro ⟨line, first, tokens, hline, htokens, hstart, hstop, -⟩
    obtain ⟨hfirst, hlast, -⟩ := lineSpan_eq_extent htokens
    exact ⟨line, hline, Span.ext_bounds (hstart.trans hfirst) (hstop.trans hlast)⟩

/-- Lines with characters of three bytes, blanks of three bytes, comments, tabs and carriage returns.
The filter is declared twice, and what is recorded is the second declaration. The tile is too large,
which is reported at the block, with a label at the filter. -/
theorem last_filter_is_recorded :
    let source := "kernel k // ∀\r\n\u3000filter 4 4\r\n param %p : ptr // ∃\n" ++
      "block 65536 65536\t\nfilter 65536 65536 \r\r\n"
    let block : Span := ⟨55, 17⟩
    let filter : Span := ⟨74, 18⟩
    (compile source Options.standard).diagnostics.map
        (fun entry => (entry.2.span, entry.2.labels.map (·.1))) = [(filter, []), (block, [filter])] ∧
      block.IsPlaceIn source ∧ filter.IsPlaceIn source ∧
      ∃ kernels listed, (readListing source).value = some kernels ∧ kernels[0]? = some listed ∧
        listed.placeOf .filter = some filter ∧
        ∃ line, Reading.LastAbout (0, .filter) (sourceLines source) line ∧
          filter.Marks source.toList (trimBlanks line.said) := by
  intro source block filter
  have hdiagnostics : (compile source Options.standard).diagnostics.map
      (fun entry => (entry.2.span, entry.2.labels.map (·.1))) =
        [(filter, []), (block, [filter])] := by
    decide +kernel
  have hfilters : (readListing source).value.map (fun kernels =>
      kernels.map fun listed => listed.placeOf .filter) = some [some filter] := by
    decide +kernel
  obtain ⟨hreported, hrecorded⟩ := places_are_in_source
  obtain ⟨entry, hentry, hplaces⟩ := List.exists_of_mem_map
    (hdiagnostics ▸ List.mem_cons_of_mem _ List.mem_cons_self :
      (block, [filter]) ∈ (compile source Options.standard).diagnostics.map _)
  obtain ⟨hspan, hlabels⟩ := Prod.mk.inj hplaces
  obtain ⟨hblock, hall⟩ := hreported source Options.standard entry hentry
  obtain ⟨label, hlabel, hfilter⟩ := List.exists_of_mem_map
    (hlabels ▸ List.mem_singleton_self filter : filter ∈ entry.2.labels.map (·.1))
  obtain ⟨kernels, hkernels, hparts⟩ := Option.map_eq_some_iff.mp hfilters
  obtain ⟨listed, rfl, hpart⟩ := List.map_eq_singleton_iff.mp hparts
  obtain ⟨line, first, tokens, hline, -, -, -, hmarks⟩ :=
    (hrecorded source [listed] hkernels 0 listed rfl .filter filter).mp hpart
  exact ⟨hdiagnostics, hspan ▸ hblock, hfilter ▸ hall label hlabel, [listed], listed, hkernels, rfl,
    hpart, line, hline, hmarks⟩

end BufferPromotion
