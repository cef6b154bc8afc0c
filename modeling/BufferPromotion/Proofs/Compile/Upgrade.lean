import BufferPromotion.Proofs.Compile.Independence
import BufferPromotion.Proofs.Diagnostic.Reached
import Mathlib.Data.List.Forall2

/-! # Warnings that count as errors

Which warnings count as errors is decided once a listing has been compiled. So a stricter
compilation reports what a lenient one reports, with other severities, and has the same output or
none (`upgrading_changes_severities`). This rests on outcomes being settled, whatever steps led to
them.
-/

set_option autoImplicit false

namespace BufferPromotion

variable {source : String} {options : Options}

theorem settled_compileLenient : (compileLenient source options).Settled := by
  have hread : (readListing source).Settled := settled_readListing source
  unfold compileLenient
  dsimp only
  cases options.format with
  | listing | dump => exact hread.map _
  | summary | kernel | aliasGraph => exact hread.andThen settled_compileAll

/-- The codes that count as errors do not matter before the upgrade. -/
theorem compile_upgraded (codes : List Code) :
    compile source { options with upgraded := codes } =
      (compileLenient source options).upgrade fun diagnostic => codes.contains diagnostic.code :=
  rfl

theorem compile_not_upgraded :
    compile source { options with upgraded := [] } = compileLenient source options := by
  rw [compile_upgraded]
  exact Outcome.upgrade_eq_self fun diagnostic => rfl

/-- Entry by entry, an upgrade changes nothing but severities. -/
theorem forall₂_upgrade (outcome : Outcome String) (codes : List Code) :
    List.Forall₂ (fun before after => after.2 = before.2 ∧
        (after.1 = .error ↔ before.1 = .error ∨ before.2.code ∈ codes))
      outcome.diagnostics
      (outcome.upgrade fun diagnostic => codes.contains diagnostic.code).diagnostics := by
  show List.Forall₂ _ _ (List.map _ _)
  rw [List.forall₂_map_right_iff, List.forall₂_same]
  intro entry _
  refine ⟨Outcome.upgradeEntry_snd _ entry, ?_⟩
  rw [Outcome.upgradeEntry_fst_eq_error_iff, List.contains_iff_mem]

/-- **A value is missing if and only if there is an error, and upgrading changes severities only.**
The first part holds of every outcome that the steps on outcomes lead to, whatever functions,
continuations and predicates they are given. So if some codes count as errors, a compilation has the
same diagnostics in the same order, where those are errors that were errors before or have one of
the codes. Its output is the same if no diagnostic is an error then, and otherwise there is none. -/
theorem upgrading_changes_severities :
    (∀ {α : Type} (outcome : Outcome α), outcome.Reached →
      (outcome.value = none ↔ ∃ entry ∈ outcome.diagnostics, entry.1 = .error)) ∧
    ∀ (source : String) (options : Options) (codes : List Code),
      let lenient := compile source { options with upgraded := [] }
      let strict := compile source { options with upgraded := codes }
      List.Forall₂ (fun before after => after.2 = before.2 ∧
          (after.1 = .error ↔ before.1 = .error ∨ before.2.code ∈ codes))
        lenient.diagnostics strict.diagnostics ∧
      ((∀ entry ∈ strict.diagnostics, entry.1 ≠ .error) →
        strict.value = lenient.value ∧ lenient.value.isSome = true) ∧
      ((∃ entry ∈ strict.diagnostics, entry.1 = .error) → strict.value = none) := by
  refine ⟨fun outcome h => ?_, fun source options codes => ?_⟩
  · rw [← Outcome.hasError_iff]
    exact Outcome.settled_of_reached h
  · have hsettled : (compileLenient source options).Settled := settled_compileLenient
    dsimp only
    rw [compile_not_upgraded, compile_upgraded]
    have hstrict := hsettled.upgrade fun diagnostic => codes.contains diagnostic.code
    refine ⟨forall₂_upgrade _ codes, fun hclean => ?_, fun herror => ?_⟩
    · have hnone : ((compileLenient source options).upgrade fun diagnostic =>
          codes.contains diagnostic.code).hasError = false := by
        rw [← Bool.not_eq_true, Outcome.hasError_iff]
        rintro ⟨entry, hentry, herror⟩
        exact hclean entry hentry herror
      have hsame := hsettled.value_upgrade hnone
      obtain ⟨output, houtput⟩ := hstrict.exists_value hnone
      refine ⟨hsame, ?_⟩
      rw [← hsame, houtput]
      rfl
    · exact hstrict.mpr (Outcome.hasError_iff.mpr herror)

/-- The listing has two warnings, one from reading it and one from compiling its kernel. With the
code of the second one counting as an error the first one stays a warning, and the output is gone.
In the same way nothing follows a warning that a predicate with a memory has picked. -/
theorem even_filter_counts_as_error :
    let source := "kernel k\nfilter 4 3\nparam %p : odd\n"
    let lenient := compile source Options.standard
    let strict := compile source { Options.standard with upgraded := [.evenFilter, .linearAccess] }
    let warning : Diagnostic := ⟨.evenFilter ⟨4, 3⟩, ⟨9, 10⟩, []⟩
    let picked := (((Outcome.ofValue 0).warn warning).warn warning).upgradeAsking
      fun asked _ => asked.isEmpty
    let stopped := picked.andThen fun value => Outcome.ofValue (value + 1)
    lenient.diagnostics.map (fun entry => (entry.1, entry.2.code)) =
        [(.warning, .untypedParam), (.warning, .evenFilter)] ∧
      lenient.value.isSome = true ∧
      List.Forall₂ (fun before after => after.2 = before.2 ∧
          (after.1 = .error ↔ before.1 = .error ∨
            before.2.code ∈ [Code.evenFilter, Code.linearAccess]))
        lenient.diagnostics strict.diagnostics ∧
      strict.value = none ∧
      stopped.diagnostics = [(.error, warning), (.warning, warning)] ∧
      (stopped.value = none ↔ ∃ entry ∈ stopped.diagnostics, entry.1 = .error) := by
  intro source lenient strict warning picked stopped
  obtain ⟨hreached, hcompiled⟩ := upgrading_changes_severities
  obtain ⟨hentries, -, hgone⟩ := hcompiled source Options.standard [.evenFilter, .linearAccess]
  have hcodes : lenient.diagnostics.map (fun entry => (entry.1, entry.2.code)) =
      [(.warning, .untypedParam), (.warning, .evenFilter)] := by
    decide +kernel
  have hpicked : picked.Reached :=
    (((Outcome.Reached.ofValue 0).warn warning).warn warning).upgradeAsking _
  refine ⟨hcodes, by decide +kernel, hentries, hgone (by decide +kernel), by decide, ?_⟩
  exact hreached stopped (hpicked.andThen _ fun value _ => .ofValue (value + 1))

end BufferPromotion
