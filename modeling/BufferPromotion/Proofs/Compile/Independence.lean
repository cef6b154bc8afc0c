import BufferPromotion.Compile.Basic
import BufferPromotion.Proofs.Listing.Report

/-! # Kernels are compiled independently

Every kernel of a listing gives an outcome of its own, which is settled. The outcomes are added one
after the other: all diagnostics are kept in the order of the kernels, also those of kernels after
one that has failed, and there is an output if and only if there is no error at all. It is then the
outputs of all kernels with a line break between them (`kernels_compile_independently`).
-/

set_option autoImplicit false

namespace BufferPromotion

/-! ## One kernel -/

namespace ListedKernel

variable {listed : ListedKernel} {options : Options}

theorem settled_output (geometry : TileGeometry) (analysis : Analysis) :
    (listed.output options geometry analysis).Settled := by
  unfold output
  dsimp only
  cases options.format with
  | summary | aliasGraph | listing | dump => exact Outcome.settled_ofValue _
  | kernel =>
      dsimp only
      unfold code
      cases Emission.run _ with
      | ok code => exact Outcome.settled_ofValue _
      | error tile => exact Outcome.settled_ofError _

/-- A kernel gives its output if and only if it has no error. -/
theorem settled_compile : (listed.compile options).Settled := by
  have hchecked := (Outcome.settled_ofValue ()).foldl_warn
    (listed.filterWarnings (listed.launchOf options.settings.launch))
  unfold compile
  dsimp only
  cases TileGeometry.ofLaunch? (listed.launchOf options.settings.launch) with
  | none => exact (Outcome.settled_fail _).map _
  | some geometry =>
      refine (hchecked.foldl_fail _).andThen fun _ => ?_
      exact ((Outcome.settled_ofValue ()).foldl_warn _).andThen fun _ => settled_output _ _

end ListedKernel

/-! ## Joined outputs -/

/-- An output that is appended is the last of those with a line break between them. -/
theorem appendOutput_intercalate (outputs : List String) (output : String) :
    appendOutput (String.intercalate "\n" outputs) outputs.length output =
      String.intercalate "\n" (outputs ++ [output]) := by
  unfold appendOutput
  cases outputs with
  | nil => simp
  | cons first rest =>
      have hrest : first :: rest ≠ [] := List.cons_ne_nil _ _
      have hbreak : String.singleton '\n' = "\n" := rfl
      rw [if_pos (List.length_pos_of_ne_nil hrest), String.push_eq_append, hbreak,
        String.intercalate_append_of_ne_nil hrest (List.cons_ne_nil _ _),
        String.intercalate_singleton]

theorem listings_eq (kernels : List ListedKernel) :
    listings kernels = String.intercalate "\n" (kernels.map fun listed => listed.kernel.listing) := by
  induction kernels using List.reverseRecOn with
  | nil => rfl
  | append_singleton kernels listed ih =>
      have hlast : listings (kernels ++ [listed]) =
          appendOutput (listings kernels) kernels.length listed.kernel.listing := by
        simp [listings, List.zipIdx_append]
      have hlength : kernels.length = (kernels.map fun listed => listed.kernel.listing).length :=
        (List.length_map _).symm
      rw [hlast, ih, hlength, appendOutput_intercalate, List.map_append]
      rfl

namespace Outcome

variable {outcome next : Outcome String} {number : Nat}

theorem diagnostics_addOutput :
    (outcome.addOutput number next).diagnostics = outcome.diagnostics ++ next.diagnostics := by
  unfold addOutput
  dsimp only
  rw [diagnostics_reportAll]
  split <;> rfl

/-- An output is added if both are there. -/
theorem value_addOutput (hnext : next.Settled) {output : String} :
    (outcome.addOutput number next).value = some output ↔
      ∃ before more, outcome.value = some before ∧ next.value = some more ∧
        output = appendOutput before number more := by
  unfold addOutput
  dsimp only
  rw [value_reportAll]
  cases hmore : next.value with
  | none =>
      -- the error of the kernel is reported, and takes away what has been written
      have herror : next.diagnostics.any (·.1 == .error) = true := hnext.mp hmore
      rw [if_pos herror]
      exact ⟨nofun, fun ⟨_, _, _, hnone, _⟩ => nomatch hnone⟩
  | some more =>
      have hclean : next.diagnostics.any (·.1 == .error) = false := hnext.hasError_eq_false hmore
      rw [if_neg (by rw [hclean]; exact Bool.false_ne_true)]
      cases hbefore : outcome.value with
      | none => simp [hbefore]
      | some before => simp [set, hbefore, eq_comm]

theorem Settled.addOutput (h : outcome.Settled) (number : Nat) (next : Outcome String) :
    (outcome.addOutput number next).Settled := by
  refine Settled.reportAll ?_ _
  split
  · exact h.set _
  · exact h

end Outcome

variable {options : Options}

/-- The last of several kernels is compiled after the others. -/
theorem compileAll_concat (kernels : List ListedKernel) (listed : ListedKernel) :
    compileAll options (kernels ++ [listed]) =
      (compileAll options kernels).addOutput kernels.length (listed.compile options) := by
  simp [compileAll, List.zipIdx_append]

theorem diagnostics_compileAll (kernels : List ListedKernel) :
    (compileAll options kernels).diagnostics =
      kernels.flatMap fun listed => (listed.compile options).diagnostics := by
  induction kernels using List.reverseRecOn with
  | nil => rfl
  | append_singleton kernels listed ih =>
      rw [compileAll_concat, Outcome.diagnostics_addOutput, ih, List.flatMap_append,
        List.flatMap_singleton]

/-- Kernels have an output together if each of them has one. -/
theorem value_compileAll {kernels : List ListedKernel} {output : String} :
    (compileAll options kernels).value = some output ↔
      ∃ outputs, kernels.map (fun listed => (listed.compile options).value) = outputs.map some ∧
        String.intercalate "\n" outputs = output := by
  induction kernels using List.reverseRecOn generalizing output with
  | nil =>
      constructor
      · intro h
        cases h
        exact ⟨[], rfl, rfl⟩
      · rintro ⟨outputs, houtputs, rfl⟩
        rw [List.map_eq_nil_iff.mp houtputs.symm]
        rfl
  | append_singleton kernels listed ih =>
      have hlength : ∀ outputs : List String,
          kernels.map (fun listed => (listed.compile options).value) = outputs.map some →
            kernels.length = outputs.length :=
        fun outputs houtputs => by simpa using congrArg List.length houtputs
      rw [compileAll_concat, Outcome.value_addOutput ListedKernel.settled_compile]
      constructor
      · rintro ⟨_, last, hbefore, hlast, rfl⟩
        obtain ⟨outputs, houtputs, rfl⟩ := ih.mp hbefore
        refine ⟨outputs ++ [last], by simp [houtputs, hlast], ?_⟩
        rw [hlength outputs houtputs, appendOutput_intercalate]
      · rintro ⟨outputs, houtputs, rfl⟩
        rw [List.map_append] at houtputs
        obtain ⟨before, last, rfl, hbefore, hlast⟩ := List.map_eq_append_iff.mp houtputs.symm
        obtain ⟨last, rfl, hlast⟩ := List.map_eq_singleton_iff.mp hlast
        refine ⟨_, last, ih.mpr ⟨before, hbefore.symm, rfl⟩, (List.cons.inj hlast).1.symm, ?_⟩
        rw [hlength before hbefore.symm, appendOutput_intercalate]

theorem settled_compileAll (kernels : List ListedKernel) :
    (compileAll options kernels).Settled :=
  List.foldlRecOn kernels.zipIdx _ (Outcome.settled_ofValue "") fun _ h _ _ => h.addOutput _ _

/-! ## Whole listings -/

/-- Without warnings that count as errors, a listing is read and all its kernels are compiled. -/
theorem compile_eq_andThen {source : String}
    (hformat : options.format ∈ [OutputKind.summary, .kernel, .aliasGraph])
    (hupgraded : options.upgraded = []) :
    compile source options = (readListing source).andThen (compileAll options) := by
  have hlenient : compileLenient source options =
      (readListing source).andThen (compileAll options) := by
    unfold compileLenient
    dsimp only
    simp only [List.mem_cons, List.not_mem_nil, or_false] at hformat
    rcases hformat with hformat | hformat | hformat <;> rw [hformat]
  unfold compile
  rw [Outcome.upgrade_eq_self, hlenient]
  intro diagnostic
  rw [hupgraded]
  rfl

/-- **Kernels are compiled independently, and all or nothing.** An error of the listing is reported
with its other diagnostics and nothing else. Without one, the diagnostics of every kernel follow in
the order of the kernels, also after a kernel that has failed. There is an output if and only if
there is no error, and it is then the outputs of all kernels with a line break between them. What a
kernel adds is `ListedKernel.compile`, a function of this kernel and the options. -/
theorem kernels_compile_independently {source : String}
    (hformat : options.format ∈ [OutputKind.summary, .kernel, .aliasGraph])
    (hupgraded : options.upgraded = []) :
    let read := readListing source
    let compiled := compile source options
    (compiled.value.isSome = true ↔ compiled.hasError = false) ∧
      (read.hasError = true → compiled = ⟨none, read.diagnostics⟩) ∧
      (read.hasError = false → ∃ kernels, read.value = some kernels ∧
        compiled.diagnostics = read.diagnostics ++
          kernels.flatMap (fun listed => (listed.compile options).diagnostics) ∧
        ∀ output, compiled.value = some output ↔ ∃ outputs,
          kernels.map (fun listed => (listed.compile options).value) = outputs.map some ∧
            String.intercalate "\n" outputs = output) := by
  intro read compiled
  have hread : read.Settled := settled_readListing source
  have hcompiled : compiled = read.andThen (compileAll options) :=
    compile_eq_andThen hformat hupgraded
  have hsettled : compiled.Settled := hcompiled ▸ hread.andThen settled_compileAll
  refine ⟨?_, fun herror => ?_, fun herror => ?_⟩
  · rw [← Option.ne_none_iff_isSome, ← Bool.not_eq_true]
    exact not_congr hsettled
  · rw [hcompiled]
    unfold Outcome.andThen
    rw [hread.mpr herror]
  · obtain ⟨kernels, hkernels⟩ := hread.exists_value herror
    have hall : compiled = ⟨(compileAll options kernels).value,
        read.diagnostics ++ (compileAll options kernels).diagnostics⟩ := by
      rw [hcompiled]
      unfold Outcome.andThen
      rw [hkernels]
    refine ⟨kernels, hkernels, ?_, fun output => ?_⟩
    · rw [hall, diagnostics_compileAll]
    · rw [hall, ← value_compileAll]

/-- The first kernel has a tile that is too large, so there is no output. The warnings about the
other two are reported nevertheless, after the one of the reader. -/
theorem later_kernels_keep_diagnostics :
    let source := "kernel huge\nblock 65536 65536\nkernel even\nfilter 4 4\nparam %p : odd\n" ++
      "kernel linear\nparam %s : ptr\n%a = lea %s, %s\n%v = load %a"
    (readListing source).hasError = false ∧ (compile source Options.standard).value = none ∧
      (compile source Options.standard).diagnostics.map (fun entry => (entry.1, entry.2.code)) =
        [(.warning, .untypedParam), (.error, .wrongLaunch), (.warning, .evenFilter),
          (.warning, .linearAccess)] ∧
      ∃ kernels, (readListing source).value = some kernels ∧ kernels.length = 3 ∧
        (compile source Options.standard).diagnostics = (readListing source).diagnostics ++
          kernels.flatMap fun listed => (listed.compile Options.standard).diagnostics := by
  intro source
  have hthree : (readListing source).value.map List.length = some 3 := by decide +kernel
  have hcodes : (compile source Options.standard).diagnostics.map
      (fun entry => (entry.1, entry.2.code)) = [(.warning, .untypedParam), (.error, .wrongLaunch),
        (.warning, .evenFilter), (.warning, .linearAccess)] := by
    decide +kernel
  obtain ⟨listed, hlisted, hlength⟩ := Option.map_eq_some_iff.mp hthree
  have hread : (readListing source).hasError = false :=
    (settled_readListing source).hasError_eq_false hlisted
  have herror : (compile source Options.standard).hasError = true := by
    obtain ⟨entry, hentry, hcode⟩ := List.exists_of_mem_map (hcodes ▸
      List.mem_cons_of_mem _ List.mem_cons_self : (Severity.error, Code.wrongLaunch) ∈ _)
    refine List.any_eq_true.mpr ⟨entry, hentry, ?_⟩
    rw [(Prod.mk.inj hcode).1]
    rfl
  obtain ⟨houtput, -, hkernels⟩ :=
    @kernels_compile_independently Options.standard source (by decide) rfl
  obtain ⟨kernels, hvalue, hdiagnostics, -⟩ := hkernels hread
  refine ⟨hread, ?_, hcodes, kernels, hvalue, ?_, hdiagnostics⟩
  · rw [← Option.not_isSome_iff_eq_none, houtput, herror]
    exact Bool.noConfusion
  · rw [← hlength, Option.some.inj (hvalue.symm.trans hlisted)]

end BufferPromotion
