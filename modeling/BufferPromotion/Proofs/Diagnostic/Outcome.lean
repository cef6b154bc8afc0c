import BufferPromotion.Diagnostic.Outcome

/-! # Laws of outcomes

Diagnostics are only ever added at the end, and an error takes the value away for good. So every
outcome that is put together from the steps of this library is *settled*: it lacks its value if
and only if one of its diagnostics is an error. And what holds of the diagnostics of every step holds
of all diagnostics of the whole (`Only`).
-/

set_option autoImplicit false

namespace BufferPromotion

namespace Outcome

variable {α β : Type} {outcome : Outcome α}

/-! ## Warnings -/

theorem warnings_fail (diagnostic : Diagnostic) :
    (outcome.fail diagnostic).warnings = outcome.warnings := by
  unfold warnings fail
  rw [List.filter_append, List.map_append]
  exact List.append_nil _

theorem foldl_warn (warnings : List Diagnostic) :
    warnings.foldl warn outcome =
      ⟨outcome.value, outcome.diagnostics ++ warnings.map (Prod.mk .warning)⟩ := by
  induction warnings generalizing outcome with
  | nil =>
      rw [List.map_nil, List.append_nil]
      rfl
  | cons warning warnings ih =>
      rw [List.foldl_cons, ih, List.map_cons, List.append_cons]
      rfl

theorem warnings_foldl_warn (warnings : List Diagnostic) :
    (warnings.foldl warn outcome).warnings = outcome.warnings ++ warnings := by
  have hfilter : (warnings.map (Prod.mk Severity.warning)).filter (·.1 == .warning) =
      warnings.map (Prod.mk .warning) := by
    rw [List.filter_eq_self]
    intro entry hentry
    obtain ⟨warning, -, rfl⟩ := List.mem_map.mp hentry
    rfl
  rw [foldl_warn]
  unfold Outcome.warnings
  rw [List.filter_append, List.map_append, hfilter, List.map_map]
  congr 1
  exact List.map_id _

/-! ## Reports -/

theorem diagnostics_report (entry : Severity × Diagnostic) :
    (outcome.report entry).diagnostics = outcome.diagnostics ++ [entry] := by
  obtain ⟨severity, diagnostic⟩ := entry
  cases severity <;> rfl

theorem diagnostics_reportAll (entries : List (Severity × Diagnostic)) :
    (outcome.reportAll entries).diagnostics = outcome.diagnostics ++ entries := by
  induction entries generalizing outcome with
  | nil => simp [reportAll]
  | cons entry entries ih =>
      calc (outcome.reportAll (entry :: entries)).diagnostics
          = ((outcome.report entry).reportAll entries).diagnostics := rfl
        _ = outcome.diagnostics ++ [entry] ++ entries := by rw [ih, diagnostics_report]
        _ = outcome.diagnostics ++ entry :: entries := by simp

/-- The value stays unless an error is reported. -/
theorem value_reportAll (entries : List (Severity × Diagnostic)) :
    (outcome.reportAll entries).value =
      if entries.any (·.1 == .error) then none else outcome.value := by
  induction entries generalizing outcome with
  | nil => rfl
  | cons entry entries ih =>
      have hrest : (outcome.reportAll (entry :: entries)).value =
          ((outcome.report entry).reportAll entries).value := rfl
      obtain ⟨severity, diagnostic⟩ := entry
      rw [hrest, ih]
      cases severity with
      | warning => rfl
      | error =>
          have hnone : (outcome.report (.error, diagnostic)).value = none := rfl
          rw [hnone, ite_self]
          rfl

theorem reportAll_append (entries more : List (Severity × Diagnostic)) :
    outcome.reportAll (entries ++ more) = (outcome.reportAll entries).reportAll more := by
  simp [reportAll]

/-- Warnings are reports like all others. -/
theorem foldl_warn_eq_reportAll (warnings : List Diagnostic) :
    warnings.foldl warn outcome = outcome.reportAll (warnings.map (Prod.mk .warning)) := by
  simp only [reportAll, List.foldl_map]
  rfl

/-! ## Settled outcomes -/

/-- An outcome lacks its value if and only if one of its diagnostics is an error. -/
def Settled (outcome : Outcome α) : Prop := outcome.value = none ↔ outcome.hasError = true

theorem hasError_iff :
    outcome.hasError = true ↔ ∃ entry ∈ outcome.diagnostics, entry.1 = .error := by
  simp [hasError]

theorem settled_ofValue (value : α) : (ofValue value).Settled := by
  simp [Settled, ofValue, hasError]

theorem settled_ofError (diagnostic : Diagnostic) :
    (ofError diagnostic : Outcome α).Settled := by
  simp [Settled, ofError, hasError]

/-- An error settles an outcome, whatever it was before. -/
theorem settled_fail (diagnostic : Diagnostic) : (outcome.fail diagnostic).Settled := by
  simp [Settled, fail, hasError]

theorem Settled.warn (h : outcome.Settled) (diagnostic : Diagnostic) :
    (outcome.warn diagnostic).Settled := by
  simpa [Settled, Outcome.warn, hasError] using h

theorem Settled.report (h : outcome.Settled) (entry : Severity × Diagnostic) :
    (outcome.report entry).Settled := by
  obtain ⟨severity, diagnostic⟩ := entry
  cases severity with
  | warning => exact h.warn diagnostic
  | error => exact settled_fail diagnostic

theorem Settled.reportAll (h : outcome.Settled) (entries : List (Severity × Diagnostic)) :
    (outcome.reportAll entries).Settled :=
  List.foldlRecOn entries Outcome.report h fun _ h entry _ => h.report entry

theorem Settled.foldl_warn (h : outcome.Settled) (warnings : List Diagnostic) :
    (warnings.foldl Outcome.warn outcome).Settled :=
  List.foldlRecOn warnings Outcome.warn h fun _ h warning _ => h.warn warning

theorem Settled.foldl_fail (h : outcome.Settled) (errors : List Diagnostic) :
    (errors.foldl Outcome.fail outcome).Settled :=
  List.foldlRecOn errors Outcome.fail h fun _ _ error _ => settled_fail error

theorem Settled.map (h : outcome.Settled) (f : α → β) : (outcome.map f).Settled := by
  simpa [Settled, Outcome.map, hasError] using h

theorem Settled.set (h : outcome.Settled) (value : α) : (outcome.set value).Settled := by
  simpa [Settled, Outcome.set, hasError] using h

/-- What follows only has to be settled for the value that it is given. -/
theorem Settled.andThen_of_value (h : outcome.Settled) {next : α → Outcome β}
    (hnext : ∀ value, outcome.value = some value → (next value).Settled) :
    (outcome.andThen next).Settled := by
  unfold Settled at h hnext ⊢
  cases hvalue : outcome.value with
  | none =>
      have herror := h.mp hvalue
      simpa [Outcome.andThen, hvalue, hasError] using herror
  | some value =>
      -- the first outcome has no error, so only an error of the second one can matter
      have hclean : outcome.hasError = false := by
        rw [← Bool.not_eq_true, ← h, hvalue]
        exact Option.some_ne_none value
      have hboth : (outcome.andThen next).hasError = (next value).hasError := by
        unfold hasError at hclean ⊢
        simp only [Outcome.andThen, hvalue, List.any_append, hclean, Bool.false_or]
      have hlast : (outcome.andThen next).value = (next value).value := by
        simp only [Outcome.andThen, hvalue]
      rw [hlast, hboth]
      exact hnext value hvalue

theorem Settled.andThen (h : outcome.Settled) {next : α → Outcome β}
    (hnext : ∀ value, (next value).Settled) : (outcome.andThen next).Settled :=
  h.andThen_of_value fun value _ => hnext value

/-- A settled outcome without an error has a value. -/
theorem Settled.exists_value (h : outcome.Settled) (herror : outcome.hasError = false) :
    ∃ value, outcome.value = some value := by
  refine Option.ne_none_iff_exists'.mp fun hnone => ?_
  rw [h.mp hnone] at herror
  cases herror

theorem Settled.hasError_eq_false (h : outcome.Settled) {value : α}
    (hvalue : outcome.value = some value) : outcome.hasError = false := by
  rw [← Bool.not_eq_true]
  intro herror
  rw [h.mpr herror] at hvalue
  cases hvalue

/-! ## Upgrading -/

theorem upgradeEntry_snd (holds : Diagnostic → Bool) (entry : Severity × Diagnostic) :
    (upgradeEntry holds entry).2 = entry.2 := by
  unfold upgradeEntry
  split <;> rfl

theorem upgradeEntry_fst_eq_error_iff {holds : Diagnostic → Bool}
    {entry : Severity × Diagnostic} :
    (upgradeEntry holds entry).1 = .error ↔ entry.1 = .error ∨ holds entry.2 = true := by
  obtain ⟨severity, diagnostic⟩ := entry
  cases severity with
  | error => simp [upgradeEntry]
  | warning => by_cases hholds : holds diagnostic = true <;> simp [upgradeEntry, hholds]

/-- Nothing changes if no warning is to become an error. -/
theorem upgrade_eq_self {holds : Diagnostic → Bool} (h : ∀ diagnostic, holds diagnostic = false) :
    outcome.upgrade holds = outcome := by
  have hentry : upgradeEntry holds = id := by
    funext entry
    simp [upgradeEntry, h]
  have hany : outcome.warnings.any holds = false := by simp [h]
  unfold upgrade
  rw [hentry, hany, List.map_id, if_neg Bool.false_ne_true]

/-! ## What is reported -/

/-- All diagnostics of an outcome have a property. -/
def Only (holds : Diagnostic → Prop) (outcome : Outcome α) : Prop :=
  ∀ entry ∈ outcome.diagnostics, holds entry.2

section Only

variable {holds : Diagnostic → Prop}

theorem only_ofValue (value : α) : (ofValue value).Only holds := by
  simp [Only, ofValue]

theorem only_ofError {diagnostic : Diagnostic} (h : holds diagnostic) :
    (ofError diagnostic : Outcome α).Only holds := by
  simpa [Only, ofError] using h

theorem Only.warn (h : outcome.Only holds) {diagnostic : Diagnostic} (hnew : holds diagnostic) :
    (outcome.warn diagnostic).Only holds :=
  List.forall_mem_append.mpr ⟨h, List.forall_mem_singleton.mpr hnew⟩

theorem Only.fail (h : outcome.Only holds) {diagnostic : Diagnostic} (hnew : holds diagnostic) :
    (outcome.fail diagnostic).Only holds :=
  List.forall_mem_append.mpr ⟨h, List.forall_mem_singleton.mpr hnew⟩

theorem Only.foldl_warn (h : outcome.Only holds) {warnings : List Diagnostic}
    (hnew : ∀ warning ∈ warnings, holds warning) :
    (warnings.foldl Outcome.warn outcome).Only holds :=
  List.foldlRecOn warnings Outcome.warn h fun _ h warning hwarning => h.warn (hnew warning hwarning)

theorem Only.foldl_fail (h : outcome.Only holds) {errors : List Diagnostic}
    (hnew : ∀ error ∈ errors, holds error) : (errors.foldl Outcome.fail outcome).Only holds :=
  List.foldlRecOn errors Outcome.fail h fun _ h error herror => h.fail (hnew error herror)

theorem Only.map (h : outcome.Only holds) (f : α → β) : (outcome.map f).Only holds := h

/-- What follows is only reported if there is a value for it. -/
theorem Only.andThen (h : outcome.Only holds) {next : α → Outcome β}
    (hnext : ∀ value, outcome.value = some value → (next value).Only holds) :
    (outcome.andThen next).Only holds := by
  unfold Outcome.andThen
  cases hvalue : outcome.value with
  | none => exact h
  | some value => exact List.forall_mem_append.mpr ⟨h, hnext value hvalue⟩

/-- A warning that becomes an error is the same diagnostic. -/
theorem Only.upgrade (h : outcome.Only holds) (upgraded : Diagnostic → Bool) :
    (outcome.upgrade upgraded).Only holds := by
  intro entry hentry
  obtain ⟨original, horiginal, rfl⟩ := List.mem_map.mp hentry
  rw [upgradeEntry_snd]
  exact h original horiginal

end Only

end Outcome

end BufferPromotion
